/-
What is looked at before an event is delivered. A run looks at requests to stop and at the limit on events before each
event. A single step looks at neither; it ends the run after its event if somebody has asked for that.
- `Calm`: no event is delivered, and a request to stop stays. Enrolling, ending and all that an entity does are calm
  (`perform_calm`, `enrol_calm`, `finish_calm`), so that calls deliver what their deeds say (`Legs.deliveries`).
- `stop_request_final`: after a request to stop, no run delivers anything; it ends. Only a step may still deliver one
  event, and it ends the run as well. A request that is made while events are delivered ends the run at once.
- `step_overlooks_stop`: such a step exists, after an entity that asked to stop when it was registered.
- `deliveries_within_limit`: runs keep to the limit on events, however they are mixed with other calls. The limit is
  passed exactly by a step that finds it reached and delivers an event all the same.
- `step_overlooks_limit`: such a step exists.
-/
import Mathlib.Tactic
import BrokerSim.Proofs.Kernel.Pause

namespace BrokerSim

variable {ε μ W α : Type}

/-- the event of a reaction -/
def Visit.event? : Visit μ → Option (Event μ)
  | react e => some e
  | _ => none

def Deed.reacted? : Deed ε μ → Option (Event μ)
  | reacted _ e _ => some e
  | _ => none

/-- the events that were delivered, by the deeds of a run -/
def delivered (deeds : List (Deed ε μ)) : List (Event μ) := deeds.filterMap Deed.reacted?

theorem delivered_append (first rest : List (Deed ε μ)) : delivered (first ++ rest) = delivered first ++ delivered rest :=
  List.filterMap_append ..

/-- nothing is delivered if nothing leaves -/
theorem delivered_eq_nil {deeds : List (Deed ε μ)} (h : popped deeds = []) : delivered deeds = [] := by
  refine List.filterMap_eq_nil_iff.2 fun d hd => ?_
  have stays := List.filterMap_eq_nil_iff.1 h d hd
  cases d <;> first | rfl | cases stays

namespace Simulation

/-- the events that were delivered, first one first -/
def deliveries (s : Simulation ε μ W) : List (Event μ) := s.visits.filterMap Visit.event?

/-! ## Calm -/

/-- from `s` to `t` no event was delivered, and a request to stop was not taken back -/
structure Calm (s t : Simulation ε μ W) : Prop where
  deliveries : t.deliveries = s.deliveries
  dispatched : t.dispatched = s.dispatched
  stop : s.stopRequested = true → t.stopRequested = true

variable {s t u : Simulation ε μ W}

theorem Calm.refl (s : Simulation ε μ W) : Calm s s := ⟨rfl, rfl, id⟩

theorem Calm.trans (h : Calm s t) (k : Calm t u) : Calm s u :=
  ⟨k.deliveries.trans h.deliveries, k.dispatched.trans h.dispatched, fun hs => k.stop (h.stop hs)⟩

theorem Change.deliveries {visited : List (Visit μ)} {spawned : List ε} (h : Change visited spawned s t) :
    t.deliveries = s.deliveries ++ visited.filterMap Visit.event? := by
  rw [Simulation.deliveries, h.visits, List.filterMap_append]
  rfl

theorem Effect.deliveries {spawned : List ε} (h : Effect spawned s t) : t.deliveries = s.deliveries := by
  rw [h.toChange.deliveries]
  exact List.append_nil _

theorem schedule_calm (delay : Float) (source target : EntityId) (message : μ) (s : Simulation ε μ W) :
    Calm s (s.schedule delay source target message).2 := by
  refine ⟨(schedule_effect delay source target message s).deliveries, ?_, ?_⟩
  · unfold Simulation.schedule
    split <;> rfl
  · intro hs
    unfold Simulation.schedule
    split <;> exact hs

theorem cancel_calm (h : Handle) (s : Simulation ε μ W) : Calm s (s.cancel h).2 :=
  ⟨(cancel_effect h s).deliveries, rfl, id⟩

/-- **Whatever an entity does is calm.** -/
theorem perform_calm (self : EntityId) (x : Action ε μ W α) (s : Simulation ε μ W) : Calm s (x.perform self s).2 := by
  obtain ⟨spawned, effect⟩ := x.perform_effect self s
  refine ⟨effect.deliveries, congrArg Counters.dispatched (perform_counters self x s), ?_⟩
  clear effect
  induction x generalizing s with
  | done a => exact id
  | observe next ih => exact ih _ s
  | schedule target delay message next ih =>
    intro hs
    exact ih _ _ ((schedule_calm delay self target message s).stop hs)
  | cancel handle next ih => exact ih _ (s.cancel handle).2
  | spawn e next ih => exact ih _ (s.reserve e).2
  | stop next ih => exact fun _ => ih s.requestStop rfl
  | write world next ih => exact ih { s with world }
  | remark r next ih => exact ih (s.note (.remark r))

theorem absorb_calm (id : EntityId) (e : SimError) (s : Simulation ε μ W) : Calm s (s.absorb id e).2 := by
  refine ⟨(absorb_effect id e s).deliveries, ?_, ?_⟩
  · unfold absorb
    split_ifs <;> rfl
  · intro hs
    unfold absorb
    split_ifs <;> exact hs

theorem absorbOutcome_calm (id : EntityId) (r : Except SimError Unit) (s : Simulation ε μ W) :
    Calm s (s.absorbOutcome id r).2 := by
  cases r with
  | ok => exact .refl s
  | error e => exact absorb_calm id e s

/-- an entry that tells of no delivery -/
theorem note_calm {entry : Entry ε μ} (h : entry.visit?.bind Visit.event? = none) (s : Simulation ε μ W) :
    Calm s (s.note entry) := by
  refine ⟨?_, rfl, id⟩
  rw [deliveries, visits, told_note, List.filterMap_append]
  cases hv : entry.visit? with
  | none => exact List.append_nil _
  | some v =>
    rw [hv] at h
    have hv : [v].filterMap Visit.event? = [] := List.filterMap_cons_none h
    exact (congrArg _ hv).trans (List.append_nil _)

theorem delivering_eq (e : Event μ) (s : Simulation ε μ W) :
    (s.delivering e).deliveries = s.deliveries ++ [e] ∧ (s.delivering e).dispatched = s.dispatched + 1 := by
  have h : Change [.react e] [] s (s.note (.dispatched e)) := .visit rfl rfl s
  exact ⟨h.deliveries, rfl⟩

variable [Entity ε μ W]

theorem start_calm (id : EntityId) (s : Simulation ε μ W) : Calm s (s.start id).2 := by
  unfold start
  split
  · exact note_calm rfl s
  · next slot hslot =>
    let x := ((Entity.start : Reaction ε ε μ W Unit).run.run slot.entity).perform id (s.note (.started id))
    have first : Calm s (s.note (.started id)) := note_calm rfl s
    have middle : Calm (s.note (.started id)) x.2 := perform_calm id _ _
    have last : Calm x.2 (x.2.note (.answered id (failure? x.1.1))) := note_calm rfl x.2
    have all := (first.trans middle).trans last
    exact ⟨all.deliveries, all.dispatched, all.stop⟩

theorem enrol_calm (id : EntityId) (e : ε) (s : Simulation ε μ W) : Calm s (s.enrol id e).2 := by
  have first : Calm s (s.note (.registered id (Named.name e))) := note_calm rfl s
  have inserted : Calm s (s.insert id e) := ⟨first.deliveries, first.dispatched, first.stop⟩
  exact (inserted.trans (start_calm id _)).trans (absorbOutcome_calm id _ _)

theorem finish_calm (s : Simulation ε μ W) : Calm s s.finish := by
  refine ⟨?_, congrArg Stats.dispatched (stats_finish s), fun hs => (stopRequested_finish s).trans hs⟩
  cases hl : s.terminated with
  | true => rw [finish_of_terminated hl]
  | false =>
    have h := (finish_closed hl).change.deliveries
    rw [List.filterMap_map] at h
    refine h.trans ?_
    have hnone : ∀ ids : List EntityId,
        ids.filterMap (Visit.event? ∘ fun id => (Visit.shutdown id s.now : Visit μ)) = [] := by
      intro ids
      simp [Function.comp_def, Visit.event?]
    rw [show ({ s with terminated := true, waiting := [] } : Simulation ε μ W).now = s.now from rfl, hnone]
    exact List.append_nil _

/-! ## Deliveries -/

/-- from `s` to `t` these events were delivered, and a request to stop was not taken back -/
structure Delivered (events : List (Event μ)) (s t : Simulation ε μ W) : Prop where
  deliveries : t.deliveries = s.deliveries ++ events
  dispatched : t.dispatched = s.dispatched + events.length
  stop : s.stopRequested = true → t.stopRequested = true

omit [Entity ε μ W] in
theorem Calm.delivered (h : Calm s t) : Delivered [] s t := ⟨by rw [h.deliveries, List.append_nil], h.dispatched, h.stop⟩

omit [Entity ε μ W] in
theorem Delivered.calm (h : Delivered [] s t) : Calm s t := ⟨by rw [h.deliveries, List.append_nil], h.dispatched, h.stop⟩

omit [Entity ε μ W] in
theorem Delivered.trans {first rest : List (Event μ)} (h : Delivered first s t) (k : Delivered rest t u) :
    Delivered (first ++ rest) s u where
  deliveries := by rw [k.deliveries, h.deliveries, List.append_assoc]
  dispatched := by rw [k.dispatched, h.dispatched, List.length_append, Nat.add_assoc]
  stop := fun hs => k.stop (h.stop hs)

theorem delivered_reactDeeds (e : Event μ) (slot : Slot ε) (s : Simulation ε μ W) :
    delivered (s.reactDeeds e slot) = [e] :=
  congrArg (e :: ·) (delivered_eq_nil (Reaction.popped_deeds ..))

section

variable {admits : Call ε μ → Prop} {p q : Phase} {deeds new : List (Deed ε μ)}

/-- **A leg delivers what its deeds say.** All but reactions are calm. -/
theorem Leg.deliveries (h : Leg admits p s new q t) : Delivered (delivered new) s t := by
  have calm : popped new = [] → Calm s t → Delivered (delivered new) s t := by
    intro stays calm
    rw [delivered_eq_nil stays]
    exact calm.delivered
  cases h with
  | schedule delay source target message =>
    exact calm (popped_of_isAct (s.isAct_scheduling _ _ _ _)) (schedule_calm delay source target message s)
  | cancel handle => exact calm (popped_of_isAct (s.isAct_cancelling _)) (cancel_calm handle s)
  | @accept _ e =>
    have named : Calm s (s.nameNext e).2 :=
      have h : Calm s (s.note (.reserved s.nextId e)) := note_calm rfl s
      ⟨h.deliveries, h.dispatched, h.stop⟩
    exact calm (popped_enrolDeeds ..) (named.trans (enrol_calm s.nextId e (s.nameNext e).2))
  | @enlist _ id e rest =>
    have h := enrol_calm id e { s with waiting := rest, spawned := s.spawned + 1 }
    exact calm (popped_enrolDeeds ..) ⟨h.deliveries, h.dispatched, h.stop⟩
  | settled => exact calm rfl (.refl s)
  | @drop _ e agenda =>
    have noted : Calm { s with agenda } (({ s with agenda } : Simulation ε μ W).note (.dropped e)) := note_calm rfl _
    have h := noted.trans (absorb_calm e.target (.unknownTarget e.target) _)
    exact Calm.delivered ⟨h.deliveries, h.dispatched, h.stop⟩
  | @react _ e agenda slot =>
    let v : Simulation ε μ W := { s with agenda }
    have played := perform_calm e.target ((Entity.react e : Reaction ε ε μ W Unit).run.run slot.entity) (v.delivering e)
    have reacted : Calm (v.delivering e) (v.react e slot).2 := ⟨played.deliveries, played.dispatched, played.stop⟩
    have rest := reacted.trans (absorbOutcome_calm e.target (v.react e slot).1 (v.react e slot).2)
    obtain ⟨hdel, hcount⟩ := delivering_eq e v
    rw [delivered_reactDeeds]
    exact ⟨rest.deliveries.trans hdel, rest.dispatched.trans hcount, rest.stop⟩
  | notice h =>
    obtain rfl | ⟨limit, rfl⟩ := h
    · exact (note_calm rfl s).delivered
    · exact (note_calm rfl s).delivered
  | finish => exact (finish_calm s).delivered

theorem Legs.deliveries (h : Legs admits p s deeds q t) : Delivered (delivered deeds) s t := by
  refine h.keep (P := fun deeds _ t => Delivered (delivered deeds) s t) (Calm.refl s).delivered ?_
  intro _ _ _ _ _ _ before leg
  rw [delivered_append]
  exact before.trans leg.deliveries

end

/-- only an entity that runs is delivered an event -/
theorem delivered_dispatchDeeds (fuel : Nat) (e : Event μ) (s : Simulation ε μ W) :
    delivered (s.dispatchDeeds fuel e) = if s.runs e.target then [e] else [] := by
  rcases running_or_idle e.target s with ⟨slot, hslot, hrun, htarget⟩ | ⟨hidle, hnone⟩
  · have hruns : s.runs e.target = true := by
      unfold runs
      rw [hslot]
      simpa using hrun
    unfold dispatchDeeds
    rw [if_pos hruns, htarget, delivered_append, delivered_reactDeeds]
    refine congrArg ([e] ++ ·) (delivered_eq_nil ?_)
    split
    · exact popped_settleDeeds fuel _
    · rfl
  · rw [dispatchDeeds_dropped hnone, hidle]
    rfl

/-- a delivery is calm but for its own event -/
theorem dispatch_delivered {fuel : Nat} {e : Event μ} {agenda : Agenda μ} {r : Except SimError Unit}
    (hl : s.terminated = false) (hn : s.agenda.next? = some (e, agenda))
    (h : ({ s with agenda } : Simulation ε μ W).dispatch fuel e = some (r, t)) :
    Delivered (if s.runs e.target then [e] else []) s t := by
  have spans := dispatch_spans (fun _ => True) fuel hl hn
  rw [h] at spans
  have shown := spans.legs.1.deliveries
  rwa [delivered_dispatchDeeds] at shown

/-- coming to rest is calm -/
theorem rest?_calm {horizon : Option Time} {outcome : RunOutcome} (h : s.rest? horizon = some (outcome, t)) :
    Calm s t :=
  (rest?_legs (fun _ => True) h).deliveries.calm

/-! ## After a request to stop -/

/-- the simulation after further calls, in their order -/
inductive Later : Simulation ε μ W → List (Call ε μ) → Simulation ε μ W → Prop
  | none (s : Simulation ε μ W) : Later s [] s
  | call {fuel : Nat} {s t u : Simulation ε μ W} {c : Call ε μ} {a : Answer} {calls : List (Call ε μ)}
      (h : s.call fuel c = some (a, t)) (rest : Later t calls u) : Later s (c :: calls) u

/-- does a call deliver events until it comes to rest? -/
def Call.Runs : Call ε μ → Prop
  | .run => True
  | .runUntil _ => True
  | _ => False

theorem loop_of_stop (hs : s.stopRequested = true) {horizon : Option Time} {fuel : Nat}
    {r : Except SimError RunOutcome} (h : s.loop horizon fuel = some (r, t)) :
    r = .ok .stopped ∧ t.terminated = true ∧ Calm s t := by
  have hrest : ∃ u, s.rest? horizon = some (.stopped, u) ∧ u.terminated = true := by
    unfold rest?
    split_ifs with hl
    · exact ⟨s, rfl, hl⟩
    · exact ⟨_, rfl, terminated_finish _⟩
  obtain ⟨u, hu, hl⟩ := hrest
  cases (loop_rest hu fuel).symm.trans h
  exact ⟨rfl, hl, rest?_calm hu⟩

/-- a step after a request to stop: either there is nothing to do, or it delivers what comes next and ends the run -/
theorem step_of_stop (hs : s.stopRequested = true) {fuel : Nat} {r : Except SimError Bool}
    (h : s.step fuel = some (r, t)) :
    t.stopRequested = true ∧ (t = s ∨ s.terminated = false ∧ t.terminated = true ∧
      (t.deliveries = s.deliveries ∨ ∃ e, t.deliveries = s.deliveries ++ [e])) := by
  unfold step at h
  split_ifs at h with hl
  · cases h
    exact ⟨hs, .inl rfl⟩
  · split at h
    · cases h
      exact ⟨hs, .inl rfl⟩
    · next e agenda hnext =>
      have hl : s.terminated = false := by simpa using hl
      have delivered : ∀ {r u}, ({ s with agenda } : Simulation ε μ W).dispatch fuel e = some (r, u) →
          u.stopRequested = true ∧ (u.deliveries = s.deliveries ∨ ∃ e, u.deliveries = s.deliveries ++ [e]) := by
        intro r u hu
        have shown := dispatch_delivered hl hnext hu
        refine ⟨shown.stop hs, ?_⟩
        rw [shown.deliveries]
        split_ifs
        · exact .inr ⟨e, rfl⟩
        · exact .inl (List.append_nil _)
      have ended : ∀ {u : Simulation ε μ W}, u.stopRequested = true →
          (u.deliveries = s.deliveries ∨ ∃ e, u.deliveries = s.deliveries ++ [e]) →
          u.finish.stopRequested = true ∧ (u.finish = s ∨ s.terminated = false ∧ u.finish.terminated = true ∧
            (u.finish.deliveries = s.deliveries ∨ ∃ e, u.finish.deliveries = s.deliveries ++ [e])) := by
        intro u hstop hdel
        rw [(finish_calm u).deliveries]
        exact ⟨(finish_calm u).stop hstop, .inr ⟨hl, terminated_finish u, hdel⟩⟩
      split at h
      · cases h
      · next err u hu =>
        cases h
        obtain ⟨hstop, hdel⟩ := delivered hu
        exact ended hstop hdel
      · next u hu =>
        obtain ⟨hstop, hdel⟩ := delivered hu
        cases h
        rw [if_pos hstop]
        exact ended hstop hdel

/-- all calls but runs and steps are calm -/
theorem call_calm {fuel : Nat} {c : Call ε μ} {a : Answer} (hruns : ¬ c.Runs) (hstep : c ≠ .step)
    (h : s.call fuel c = some (a, t)) : Calm s t := by
  have stays : popped (s.callDeeds fuel c) = [] := by
    cases c with
    | register e => exact popped_registerDeeds fuel e s
    | schedule => exact popped_of_isAct (s.isAct_scheduling _ _ _ _)
    | cancel => exact popped_of_isAct (s.isAct_cancelling _)
    | stop => rfl
    | run | runUntil => exact absurd trivial hruns
    | step => exact absurd rfl hstep
  obtain ⟨q, legs, -⟩ := call_legs (fun _ => True) trivial h
  have shown := legs.deliveries
  rw [delivered_eq_nil stays] at shown
  exact shown.calm

/-- what any call comes to after a request to stop -/
theorem call_of_stop (hs : s.stopRequested = true) {fuel : Nat} {c : Call ε μ} {a : Answer}
    (h : s.call fuel c = some (a, t)) :
    t.stopRequested = true ∧ (c.Runs → a = .ran (.ok .stopped) ∧ t.terminated = true) ∧
      (s.terminated = true → t.terminated = true) ∧
      (t.deliveries = s.deliveries ∨
        c = .step ∧ s.terminated = false ∧ t.terminated = true ∧ ∃ e, t.deliveries = s.deliveries ++ [e]) := by
  have ended : s.terminated = true → t.terminated = true :=
    fun hl => (call_of_terminated hl h).terminated.trans hl
  have quiet : ¬ c.Runs → c ≠ .step → t.stopRequested = true ∧ t.deliveries = s.deliveries := by
    intro hruns hstep
    have calm := call_calm hruns hstep h
    exact ⟨calm.stop hs, calm.deliveries⟩
  cases answered h with
  | @run r v hv =>
    obtain ⟨rfl, -, calm⟩ := loop_of_stop hs hv
    have calm := calm.trans (finish_calm v)
    exact ⟨calm.stop hs, fun _ => ⟨rfl, terminated_finish v⟩, ended, .inl calm.deliveries⟩
  | runUntil hu =>
    obtain ⟨rfl, hl, calm⟩ := loop_of_stop hs hu
    exact ⟨calm.stop hs, fun _ => ⟨rfl, hl⟩, ended, .inl calm.deliveries⟩
  | step hu =>
    obtain ⟨hstop, hcome⟩ := step_of_stop hs hu
    refine ⟨hstop, False.elim, ended, ?_⟩
    rcases hcome with rfl | ⟨hl, ht, hsame | hone⟩
    · exact .inl rfl
    · exact .inl hsame
    · exact .inr ⟨rfl, hl, ht, hone⟩
  | _ =>
    obtain ⟨hstop, hdel⟩ := quiet id nofun
    exact ⟨hstop, False.elim, ended, .inl hdel⟩

theorem terminated_of_rest? {horizon : Option Time} {outcome : RunOutcome}
    (h : s.rest? horizon = some (outcome, t)) (ht : t.stopRequested = true) : t.terminated = true := by
  by_cases hl : s.terminated = true
  · cases (if_pos hl : s.rest? horizon = _).symm.trans h
    exact hl
  by_cases hs : s.stopRequested = true
  · obtain ⟨-, hend, -⟩ := loop_of_stop hs (loop_rest h 0)
    exact hend
  · -- nothing that brings the run to rest now makes a request
    have hsame : t.stopRequested = s.stopRequested := by
      unfold rest? at h
      rw [if_neg hl, if_neg hs] at h
      split at h
      · cases h; rfl
      · split at h
        · cases h; rfl
        · split_ifs at h
          cases h; rfl
    exact absurd (hsame.symm.trans ht) hs

/-- a run that is answered has ended if somebody asked to stop -/
theorem terminated_of_loop {horizon : Option Time} {fuel : Nat} {r : Except SimError RunOutcome}
    (h : s.loop horizon fuel = some (r, t)) (ht : t.stopRequested = true) : t.terminated = true := by
  obtain ⟨q, u, -, -, rest⟩ := loop_legs (fun _ => True) horizon fuel s
  cases (rest r t h).2 with
  | rest hrest => exact terminated_of_rest? hrest ht
  | empty hrest =>
    unfold rest? at hrest
    split_ifs at hrest
  | failed err => exact terminated_finish u

/-- where a request to stop comes from: it is made while an entity is registered, or the call ends the run -/
theorem call_of_request (hs : s.stopRequested = false) {fuel : Nat} {c : Call ε μ} {a : Answer}
    (h : s.call fuel c = some (a, t)) (ht : t.stopRequested = true) : t.terminated = true ∨ ∃ e, c = .register e := by
  cases answered h with
  | @register e => exact .inr ⟨e, rfl⟩
  | schedule delay source target message =>
    have hsame : (s.schedule delay source target message).2.stopRequested = s.stopRequested := by
      unfold Simulation.schedule
      split <;> rfl
    cases (hsame.trans hs).symm.trans ht
  | cancel handle => cases hs.symm.trans ht
  | @run r v hv => exact .inl (terminated_finish v)
  | runUntil hu => exact .inl (terminated_of_loop hu ht)
  | step hu =>
    left
    unfold step at hu
    split_ifs at hu with hl
    · cases hu
      exact hl
    · split at hu
      · cases hu
        cases hs.symm.trans ht
      · split at hu
        · cases hu
        · cases hu
          exact terminated_finish _
        · cases hu
          split_ifs at ht ⊢ with hstop
          · exact terminated_finish _
          · exact absurd ht hstop
  | stop => exact .inl (terminated_finish s)

theorem later_of_stop {calls : List (Call ε μ)} (h : Later s calls t) (hs : s.stopRequested = true) :
    t.stopRequested = true ∧ ((s.terminated = true ∨ ∃ c ∈ calls, c.Runs) → t.terminated = true) ∧
      ((∀ c ∈ calls, c ≠ .step) → t.deliveries = s.deliveries) ∧
      (t.deliveries = s.deliveries ∨
        s.terminated = false ∧ t.terminated = true ∧ ∃ e, t.deliveries = s.deliveries ++ [e]) := by
  induction h with
  | none s => exact ⟨hs, by simp, fun _ => rfl, .inl rfl⟩
  | call h rest ih =>
    obtain ⟨hstop, hruns, hend, hdel⟩ := call_of_stop hs h
    obtain ⟨hstop', hend', hsteps', hdel'⟩ := ih hstop
    refine ⟨hstop', ?_, ?_, ?_⟩
    · rintro (hl | ⟨k, hk, hrun⟩)
      · exact hend' (.inl (hend hl))
      · rcases List.mem_cons.1 hk with rfl | hk
        · exact hend' (.inl (hruns hrun).2)
        · exact hend' (.inr ⟨k, hk, hrun⟩)
    · intro hsteps
      rw [hsteps' fun k hk => hsteps k (List.mem_cons_of_mem _ hk)]
      exact hdel.resolve_right fun hstep => hsteps _ List.mem_cons_self hstep.1
    · -- a step that delivers an event ends the run, so that no second one does
      rcases hdel with hsame | ⟨-, hl, ht, e, hone⟩
      · rw [hsame] at hdel'
        refine hdel'.imp_right fun hone => ⟨?_, hone.2⟩
        cases hl : Simulation.terminated _ with
        | false => rfl
        | true => exact absurd (hend hl) (by simp [hone.1])
      · refine .inr ⟨hl, hend' (.inl ht), e, ?_⟩
        rw [← hone]
        exact hdel'.resolve_right fun h => by simp [ht] at h

/-- **A request to stop is final, but for one event.** A call during which an entity first asks to stop ends the run,
    unless it is a registration. From then on every run answers that it was stopped, delivers nothing, and leaves the
    run ended. Whatever is called, at most one event is still delivered: by a step, on a run that has not ended, and
    that step ends it. -/
theorem stop_request_final {fuel : Nat} {c : Call ε μ} {a : Answer} (hs : s.stopRequested = false)
    (h : s.call fuel c = some (a, t)) (ht : t.stopRequested = true) :
    (t.terminated = true ∨ ∃ e, c = .register e) ∧ ∀ calls u, Later t calls u →
      ((∃ k ∈ calls, k.Runs) → u.terminated = true) ∧
      ((∀ k ∈ calls, k ≠ .step) → u.deliveries = t.deliveries) ∧
      (u.deliveries = t.deliveries ∨
        t.terminated = false ∧ u.terminated = true ∧ ∃ e, u.deliveries = t.deliveries ++ [e]) ∧
      ∀ fuel k b v, u.call fuel k = some (b, v) → k.Runs → b = .ran (.ok .stopped) := by
  refine ⟨call_of_request hs h ht, ?_⟩
  intro calls u hu
  obtain ⟨hstop, hend, hsteps, hdel⟩ := later_of_stop hu ht
  refine ⟨fun hrun => hend (.inr hrun), hsteps, hdel, ?_⟩
  intro fuel k b v hv hrun
  exact ((call_of_stop hstop hv).2.1 hrun).1

open Standin in
/-- a simulation with a player that has planned an event and asked to stop, all while it was registered -/
def quitter : Simulation Player Cue Stage :=
  theatre.after 1 (.register ⟨"player", [.scheduleSelf 1 "ping" [] false, .stop], 0⟩)

theorem stop_request_final_of_quitter :
    quitter.stopRequested = true ∧ quitter.terminated = false ∧ quitter.agenda.size = 1 ∧
      (quitter.after 1 .run).terminated = true ∧ (quitter.after 1 .run).deliveries = quitter.deliveries := by
  obtain ⟨a, ha⟩ := call_after 1 theatre (.register ⟨"player", [.scheduleSelf 1 "ping" [] false, .stop], 0⟩)
    (by decide +kernel)
  obtain ⟨b, hb⟩ := call_after 1 quitter .run (by decide +kernel)
  obtain ⟨-, hlater⟩ := stop_request_final (s := theatre) (by decide +kernel) ha (by decide +kernel)
  obtain ⟨hend, hsteps, -⟩ := hlater [.run] _ (.call hb (.none _))
  exact ⟨by decide +kernel, by decide +kernel, by decide +kernel, hend ⟨.run, List.mem_cons_self, trivial⟩,
    hsteps (by simp)⟩

/-- **A step overlooks a request to stop.** The player has asked to stop, and yet a step delivers its event. -/
theorem step_overlooks_stop :
    quitter.stopRequested = true ∧ quitter.deliveries = [] ∧
      (quitter.after 1 .step).deliveries.map (fun e => (e.handle, e.target)) = [(0, 0)] := by
  decide +kernel

/-! ## The limit on events -/

/-- is there an event that a step would deliver? -/
def Ready (s : Simulation ε μ W) : Prop :=
  s.terminated = false ∧ ∃ e agenda, s.agenda.next? = some (e, agenda) ∧ s.runs e.target = true

/-- no step was taken that had an event to deliver when the limit was reached -/
def Frugal (s : Simulation ε μ W) (c : Call ε μ) (_ : Answer) (_ : Simulation ε μ W) : Prop :=
  c = .step → s.Ready → s.limitReached? = none

theorem dispatched_dispatch {fuel : Nat} {e : Event μ} {agenda : Agenda μ} {r : Except SimError Unit}
    (hl : s.terminated = false) (hn : s.agenda.next? = some (e, agenda))
    (h : ({ s with agenda } : Simulation ε μ W).dispatch fuel e = some (r, t)) :
    t.dispatched = s.dispatched + if s.runs e.target then 1 else 0 := by
  rw [(dispatch_delivered hl hn h).dispatched]
  split_ifs <;> rfl

/-- a run passes no limit that was not passed before -/
theorem dispatched_loop {horizon : Option Time} {fuel : Nat} {r : Except SimError RunOutcome} {n : UInt64}
    (hn : s.limits.maxEvents? = some n) (h : s.loop horizon fuel = some (r, t)) :
    t.dispatched ≤ max s.dispatched n.toNat := by
  -- no rest means that the limit is not reached, and a delivery adds one event
  have delivered : ∀ {fuel : Nat} {s u : Simulation ε μ W} {e : Event μ} {agenda : Agenda μ} {r : Except SimError Unit},
      s.limits.maxEvents? = some n → s.rest? horizon = none → s.agenda.next? = some (e, agenda) →
      ({ s with agenda } : Simulation ε μ W).dispatch fuel e = some (r, u) → u.dispatched ≤ n.toNat := by
    intro fuel s u e agenda r hn hrest hnext hu
    have hlimit : s.dispatched < n.toNat := by
      unfold rest? limitReached? at hrest
      rw [hn] at hrest
      split_ifs at hrest
      by_contra hle
      simp [Option.filter, not_lt.1 hle] at hrest
    have hcount := dispatched_dispatch (live_of_rest? hrest) hnext hu
    split_ifs at hcount <;> omega
  fun_induction loop horizon fuel s with
  | case1 fuel s outcome u hrest =>
    cases h
    rw [(rest?_calm hrest).dispatched]
    exact le_max_left ..
  | case2 fuel s hrest hnext => cases h; exact le_max_left ..
  | case3 s hrest e agenda hnext => cases h
  | case4 s hrest e agenda hnext fuel hnone => cases h
  | case5 s hrest e agenda hnext fuel u hu ih =>
    have hu' := delivered hn hrest hnext hu
    have ht := ih ((congrArg Limits.maxEvents? (limits_dispatch (live_of_rest? hrest) hnext hu)).trans hn) h
    rw [max_eq_right hu'] at ht
    exact ht.trans (le_max_right ..)
  | case6 s hrest e agenda hnext fuel err u hu =>
    cases h
    rw [(finish_calm u).dispatched]
    exact (delivered hn hrest hnext hu).trans (le_max_right ..)

/-- a step delivers one event if it has one to deliver -/
theorem dispatched_step {fuel : Nat} {r : Except SimError Bool} (h : s.step fuel = some (r, t)) :
    (s.Ready → t.dispatched = s.dispatched + 1) ∧ (¬ s.Ready → t.dispatched = s.dispatched) := by
  unfold step at h
  split_ifs at h with hl
  · cases h
    exact ⟨fun hready => Bool.noConfusion (hready.1.symm.trans hl), fun _ => rfl⟩
  · have hl : s.terminated = false := by simpa using hl
    split at h
    · next hnext =>
      cases h
      refine ⟨?_, fun _ => rfl⟩
      rintro ⟨-, e, agenda, hsome, -⟩
      cases hnext.symm.trans hsome
    · next e agenda hnext =>
      have hready : s.Ready ↔ s.runs e.target = true := by
        constructor
        · rintro ⟨-, e', agenda', hsome, hrun⟩
          cases hnext.symm.trans hsome
          exact hrun
        · exact fun hrun => ⟨hl, e, agenda, hnext, hrun⟩
      have delivered : ∀ {r u}, ({ s with agenda } : Simulation ε μ W).dispatch fuel e = some (r, u) →
          (s.Ready → u.dispatched = s.dispatched + 1) ∧ (¬ s.Ready → u.dispatched = s.dispatched) := by
        intro r u hu
        rw [hready, dispatched_dispatch hl hnext hu]
        exact ⟨fun hrun => by rw [if_pos hrun], fun hrun => by rw [if_neg hrun, Nat.add_zero]⟩
      split at h
      · cases h
      · next err u hu =>
        cases h
        rw [(finish_calm u).dispatched]
        exact delivered hu
      · next u hu =>
        cases h
        have hsame : (if u.stopRequested = true then u.finish else u).dispatched = u.dispatched := by
          split_ifs
          · exact (finish_calm u).dispatched
          · rfl
        rw [hsame]
        exact delivered hu

/-- what any call adds to the events delivered -/
theorem dispatched_call {fuel : Nat} {c : Call ε μ} {a : Answer} {n : UInt64} (hn : s.limits.maxEvents? = some n)
    (hle : s.dispatched ≤ n.toNat) (h : s.call fuel c = some (a, t)) :
    n.toNat < t.dispatched ↔ c = .step ∧ s.dispatched = n.toNat ∧ s.Ready := by
  have within : c ≠ .step → t.dispatched ≤ max s.dispatched n.toNat →
      (n.toNat < t.dispatched ↔ c = .step ∧ s.dispatched = n.toNat ∧ s.Ready) := by
    intro hc ht
    rw [max_eq_right hle] at ht
    exact iff_of_false (not_lt.2 ht) fun hstep => hc hstep.1
  have quiet : ¬ c.Runs → c ≠ .step → (n.toNat < t.dispatched ↔ c = .step ∧ s.dispatched = n.toNat ∧ s.Ready) := by
    intro hruns hstep
    refine within hstep ?_
    rw [(call_calm hruns hstep h).dispatched]
    exact le_max_left ..
  cases answered h with
  | @run r v hv =>
    refine within nofun ?_
    rw [(finish_calm v).dispatched]
    exact dispatched_loop hn hv
  | runUntil hu => exact within nofun (dispatched_loop hn hu)
  | step hu =>
    obtain ⟨hready, hrest⟩ := dispatched_step hu
    by_cases hr : s.Ready
    · rw [hready hr]
      exact ⟨fun hlt => ⟨rfl, by omega, hr⟩, fun ⟨_, heq, _⟩ => by omega⟩
    · rw [hrest hr]
      exact iff_of_false (not_lt.2 hle) fun hstep => hr hstep.2.2
  | _ => exact quiet id nofun

/-- **Runs keep to the limit on events, steps do not.** After any calls among which no step delivered an event when the
    limit was reached, no more events were delivered than allowed. From there a call passes the limit if and only if it
    is a step that finds it reached, and has an event to deliver. -/
theorem deliveries_within_limit {s : Simulation ε μ W} (h : Reached Frugal s) {n : UInt64}
    (hn : s.limits.maxEvents? = some n) :
    s.stats.dispatched ≤ n.toNat ∧ ∀ fuel c a t, s.call fuel c = some (a, t) →
      (n.toNat < t.stats.dispatched ↔ c = .step ∧ s.stats.dispatched = n.toNat ∧ s.Ready) := by
  suffices hle : s.dispatched ≤ n.toNat from ⟨hle, fun _ _ _ _ h => dispatched_call hn hle h⟩
  induction h with
  | fresh limits world => exact Nat.zero_le _
  | @call fuel s t c a before h ha ih =>
    have hn' : s.limits.maxEvents? = some n := (congrArg Limits.maxEvents? (limits_call h)).symm.trans hn
    have hle := ih hn'
    by_contra hlt
    obtain ⟨hc, heq, hready⟩ := (dispatched_call hn' hle h).1 (not_le.1 hlt)
    have hlimit := ha hc hready
    unfold limitReached? at hlimit
    rw [hn'] at hlimit
    simp [Option.filter, heq] at hlimit

section Quota

open Standin

/-- a simulation limited to one event, with a player that has planned two -/
def planned : Simulation Player Cue Stage :=
  (fresh { maxEvents? := some 1 } {}).after 1
    (.register ⟨"player", [.scheduleSelf 1 "first" [] false, .scheduleSelf 2 "second" [] false], 0⟩)

/-- the first of them was delivered -/
def exhausted : Simulation Player Cue Stage := planned.after 1 .step

theorem deliveries_within_limit_of_exhausted :
    Reached Frugal exhausted ∧ exhausted.stats.dispatched = 1 ∧ exhausted.agenda.size = 1 ∧
      (exhausted.after 2 .run).stats.dispatched ≤ 1 := by
  obtain ⟨a, ha⟩ := call_after 1 (fresh { maxEvents? := some 1 } {} : Simulation Player Cue Stage)
    (.register ⟨"player", [.scheduleSelf 1 "first" [] false, .scheduleSelf 2 "second" [] false], 0⟩) (by decide +kernel)
  obtain ⟨b, hb⟩ := call_after 1 planned .step (by decide +kernel)
  obtain ⟨k, hk⟩ := call_after 2 exhausted .run (by decide +kernel)
  have reached : Reached Frugal exhausted :=
    .call (.call (.fresh _ _) ha nofun) hb fun _ _ => (by decide +kernel : planned.limitReached? = none)
  have hn : exhausted.limits.maxEvents? = some 1 := by decide +kernel
  obtain ⟨-, hnext⟩ := deliveries_within_limit reached hn
  refine ⟨reached, by decide +kernel, by decide +kernel, ?_⟩
  by_contra hlt
  cases ((hnext _ _ _ _ hk).1 (not_le.1 hlt)).1

/-- **A step overlooks the limit.** One event is allowed and was delivered, and yet a step delivers another. -/
theorem step_overlooks_limit :
    exhausted.limits.maxEvents? = some 1 ∧ exhausted.stats.dispatched = 1 ∧
      (exhausted.after 1 .step).stats.dispatched = 2 := by
  decide +kernel

end Quota

end Simulation

end BrokerSim
