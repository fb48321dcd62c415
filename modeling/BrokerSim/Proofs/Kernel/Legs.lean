/-
Calls taken apart, whatever they are and however they end. A call goes leg by leg (`Leg`): something is scheduled or
cancelled, an entity is handed over or comes up for its turn, an event leaves, the run ends. This is the one place where
the code of a whole call is followed; what a run keeps is proved of one leg, and holds of legs in a row (`Legs.keep`).
- `Phase`: where a call stands between two legs, so that it is known who may still wait.
- `settle_spans`, `dispatch_spans`, `register_spans`: the parts of a call, also those that never come back.
- `loop_legs`, `step_legs`: what a run and a step come to, and what they looked at in the end (`Rests`, `Stepped`).
- `call_legs`: every call is legs in a row, with the deeds of the call.
-/
import BrokerSim.Proofs.Kernel.Calls

namespace BrokerSim

variable {ε μ W α : Type}

/-- where a call stands -/
inductive Phase where
  /-- between two calls, or between two events of a run -/
  | resting
  /-- those that wait are enrolled -/
  | enrolling
  /-- an error came up that no run survives -/
  | failed (error : SimError)

/-- what follows a start or a reaction -/
def Phase.after : Except SimError Unit → Phase
  | .ok () => enrolling
  | .error err => failed err

/-- where a part of a call has got that comes to this -/
def Phase.reached : Except SimError α → Phase
  | .ok _ => resting
  | .error err => failed err

theorem Phase.reached_ne (r : Except SimError α) : reached r ≠ enrolling := by cases r <;> nofun

namespace Simulation

variable [Entity ε μ W]

/-! := dispatch_spans admits fuel hl:= dispatch_spans admits fuel hl Legs -/

/-- one leg of a call, with its deeds; the caller makes such calls only as it `admits` -/
inductive Leg (admits : Call ε μ → Prop) :
    Phase → Simulation ε μ W → List (Deed ε μ) → Phase → Simulation ε μ W → Prop
  | schedule (delay : Float) (source target : EntityId) (message : μ) (s : Simulation ε μ W)
      (welcome : admits (.schedule delay source target message)) :
      Leg admits .resting s (s.scheduling delay source target message) .resting
        (s.schedule delay source target message).2
  | cancel (handle : Handle) (s : Simulation ε μ W) (welcome : admits (.cancel handle)) :
      Leg admits .resting s (s.cancelling handle) .resting (s.cancel handle).2
  /-- the caller's entity is given the next id and enrolled -/
  | accept {s : Simulation ε μ W} {e : ε} (welcome : admits (.register e)) (live : s.terminated = false) :
      Leg admits .resting s (.admitted s.nextId e :: (s.nameNext e).2.enrolDeeds s.nextId e)
        (.after ((s.nameNext e).2.enrol s.nextId e).1) ((s.nameNext e).2.enrol s.nextId e).2
  /-- the first in line is enrolled -/
  | enlist {s : Simulation ε μ W} {id : EntityId} {e : ε} {rest : List (EntityId × ε)} (live : s.terminated = false)
      (line : s.waiting = (id, e) :: rest) :
      Leg admits .enrolling s
        (.enlisted id e :: ({ s with waiting := rest, spawned := s.spawned + 1 }).enrolDeeds id e)
        (.after (({ s with waiting := rest, spawned := s.spawned + 1 }).enrol id e).1)
        (({ s with waiting := rest, spawned := s.spawned + 1 }).enrol id e).2
  /-- nobody waits any more -/
  | settled {s : Simulation ε μ W} (idle : s.waiting = []) : Leg admits .enrolling s [] .resting s
  /-- an event leaves and finds no running target -/
  | drop {s : Simulation ε μ W} {e : Event μ} {agenda : Agenda μ} (live : s.terminated = false)
      (next : s.agenda.next? = some (e, agenda)) (nobody : s.runs e.target = false) :
      Leg admits .resting s [.dropped e] .resting
        (({ s with agenda }.note (.dropped e)).absorb e.target (.unknownTarget e.target)).2
  /-- an event leaves and its target reacts -/
  | react {s : Simulation ε μ W} {e : Event μ} {agenda : Agenda μ} {slot : Slot ε} (live : s.terminated = false)
      (next : s.agenda.next? = some (e, agenda)) (target : s.entities[e.target]? = some slot)
      (running : slot.state = .running) :
      Leg admits .resting s (({ s with agenda } : Simulation ε μ W).reactDeeds e slot)
        (.after ((({ s with agenda } : Simulation ε μ W).react e slot).2.absorbOutcome e.target
          (({ s with agenda } : Simulation ε μ W).react e slot).1).1)
        ((({ s with agenda } : Simulation ε μ W).react e slot).2.absorbOutcome e.target
          (({ s with agenda } : Simulation ε μ W).react e slot).1).2
  /-- the log tells what will bring the run to rest -/
  | notice {s : Simulation ε μ W} {entry : Entry ε μ}
      (h : entry = .stopping s.now ∨ ∃ limit, entry = .limitReached limit s.now) :
      Leg admits .resting s [] .resting (s.note entry)
  /-- the run ends, if it has not ended before -/
  | finish {p : Phase} (s : Simulation ε μ W) (h : p ≠ .enrolling) : Leg admits p s [] p s.finish

/-- legs in a row, and all their deeds -/
inductive Legs (admits : Call ε μ → Prop) :
    Phase → Simulation ε μ W → List (Deed ε μ) → Phase → Simulation ε μ W → Prop
  | refl (p : Phase) (s : Simulation ε μ W) : Legs admits p s [] p s
  | tail {p q r : Phase} {s t u : Simulation ε μ W} {deeds new : List (Deed ε μ)} (before : Legs admits p s deeds q t)
      (last : Leg admits q t new r u) : Legs admits p s (deeds ++ new) r u

variable {admits : Call ε μ → Prop} {p q r : Phase} {s t u : Simulation ε μ W} {deeds new : List (Deed ε μ)}

theorem Leg.single (h : Leg admits p s new q t) : Legs admits p s new q t := .tail (.refl p s) h

theorem Legs.trans (h : Legs admits p s deeds q t) (k : Legs admits q t new r u) :
    Legs admits p s (deeds ++ new) r u := by
  induction k with
  | refl => rw [List.append_nil]; exact h
  | tail _ last ih =>
    rw [← List.append_assoc]
    exact .tail (ih h) last

/-- a leg that does nothing of note -/
theorem Legs.quiet (h : Legs admits p s deeds q t) (k : Legs admits q t [] r u) : Legs admits p s deeds r u := by
  have all := h.trans k
  rwa [List.append_nil] at all

/-- **What every leg keeps is kept by legs in a row,** with the deeds so far and the phase that they lead to. -/
theorem Legs.keep {P : List (Deed ε μ) → Phase → Simulation ε μ W → Prop} (h : Legs admits p s deeds q t)
    (start : P [] p s)
    (leg : ∀ {deeds q t new r u}, P deeds q t → Leg admits q t new r u → P (deeds ++ new) r u) : P deeds q t := by
  induction h with
  | refl => exact start
  | tail _ last ih => exact leg (ih start) last

/-! := dispatch_spans admits fuel hl:= dispatch_spans admits fuel hl The end of a run, and what comes before it -/

omit [Entity ε μ W] in
/-- an event that finds nobody is told of, and its error goes where errors go -/
theorem drop_effect (e : Event μ) (s : Simulation ε μ W) :
    Effect [] s ((s.note (.dropped e)).absorb e.target (.unknownTarget e.target)).2 :=
  have noted : Effect [] s (s.note (.dropped e)) := .note rfl rfl
  noted.trans (absorb_effect e.target (.unknownTarget e.target) _)

omit [Entity ε μ W] in
theorem notice_effect {entry : Entry ε μ} (h : entry = .stopping s.now ∨ ∃ limit, entry = .limitReached limit s.now) :
    Effect [] s (s.note entry) := by
  obtain rfl | ⟨limit, rfl⟩ := h
  · exact .note rfl rfl
  · exact .note rfl rfl

theorem terminated_enrol (id : EntityId) (e : ε) (s : Simulation ε μ W) :
    (s.enrol id e).2.terminated = s.terminated := by
  have started : ((s.insert id e).start id).2.terminated = s.terminated := by
    cases hslot : (s.insert id e).entities[id]? with
    | none => rw [start_astray hslot]; rfl
    | some slot =>
      obtain ⟨_, _, _, -, change, -, -⟩ := start_change hslot
      exact change.terminated
  exact (absorbOutcome_effect id _ _).terminated.trans started

theorem terminated_react (e : Event μ) (slot : Slot ε) (s : Simulation ε μ W) :
    ((s.react e slot).2.absorbOutcome e.target (s.react e slot).1).2.terminated = s.terminated := by
  obtain ⟨_, _, -, change, -, -⟩ := react_change e slot s
  exact (absorbOutcome_effect e.target _ _).terminated.trans change.terminated

/-- a run that has ended does not begin again -/
theorem Leg.live (h : Leg admits p s new q t) (hl : t.terminated = false) : s.terminated = false := by
  cases h with
  | schedule delay source target message => exact (schedule_effect delay source target message s).terminated ▸ hl
  | cancel | settled | notice => exact hl
  | accept _ live => exact live
  | enlist live => exact live
  | drop live => exact live
  | react live => exact live
  | finish => exact Bool.noConfusion (hl.symm.trans (terminated_finish s))

theorem live_of_rest? {horizon : Option Time} (h : s.rest? horizon = none) : s.terminated = false := by
  unfold rest? at h
  split_ifs at h with hl
  simpa using hl

variable (admits) in
/-- what brings a run to rest is told, and may end it -/
theorem rest?_legs {horizon : Option Time} {outcome : RunOutcome} (h : s.rest? horizon = some (outcome, t)) :
    Legs admits .resting s [] .resting t := by
  unfold rest? at h
  split_ifs at h
  · cases h
    exact .refl ..
  · cases h
    exact (Leg.notice (.inl rfl)).single.tail (.finish _ nofun)
  · split at h
    · cases h
      exact (Leg.notice (.inr ⟨_, rfl⟩)).single
    · split at h
      · cases h
        exact .refl ..
      · split_ifs at h
        cases h
        exact .refl ..

/-! := dispatch_spans admits fuel hl:= dispatch_spans admits fuel hl Parts of a call -/

/-- legs from `s` on, with these deeds, that go as far as a part of a call does: to its end, if it comes back -/
def Spans (admits : Call ε μ → Prop) (p : Phase) (s : Simulation ε μ W) (deeds : List (Deed ε μ))
    (x? : Option (Result ε μ W α)) : Prop :=
  ∃ q t, Legs admits p s deeds q t ∧ t.terminated = false ∧ ∀ r u, x? = some (r, u) → q = .reached r ∧ t = u

theorem Spans.legs {r : Except SimError α} (h : Spans admits p s deeds (some (r, t))) :
    Legs admits p s deeds (.reached r) t ∧ t.terminated = false := by
  obtain ⟨q, u, legs, live, hx⟩ := h
  obtain ⟨rfl, rfl⟩ := hx r t rfl
  exact ⟨legs, live⟩

/-- a leg before a part of a call -/
theorem Spans.head {x? : Option (Result ε μ W α)} (h : Leg admits p s new q t) (k : Spans admits q t deeds x?) :
    Spans admits p s (new ++ deeds) x? := by
  obtain ⟨r, u, legs, rest⟩ := k
  exact ⟨r, u, h.single.trans legs, rest⟩

/-- a start or a reaction that failed is the last leg of its part of a call -/
theorem Leg.spans {err : SimError} (h : Leg admits p s new (.after (.error err)) t) (hl : t.terminated = false) :
    Spans admits p s (new ++ []) (some ((.error err, t) : Result ε μ W α)) := by
  refine ⟨_, t, h.single.trans (.refl ..), hl, fun r u hx => ?_⟩
  cases hx
  exact ⟨rfl, rfl⟩

/-- **Those that wait are enrolled** one by one, for as long as the fuel lasts. -/
theorem settle_spans (fuel : Nat) (hl : s.terminated = false) :
    Spans admits .enrolling s (s.settleDeeds fuel) (s.settle fuel) := by
  fun_induction settle fuel s with
  | case1 fuel s hw =>
    unfold settleDeeds
    rw [hw]
    refine ⟨_, s, (Leg.settled hw).single, hl, fun r u hx => ?_⟩
    cases hx
    exact ⟨rfl, rfl⟩
  | case2 s id e rest hw =>
    unfold settleDeeds
    rw [hw]
    exact ⟨_, s, .refl .., hl, fun _ _ hx => by cases hx⟩
  | case3 s id e rest hw fuel u hu ih =>
    have first : Leg admits _ s _ _ _ := .enlist hl hw
    have live := (terminated_enrol id e { s with waiting := rest, spawned := s.spawned + 1 }).trans hl
    unfold settleDeeds
    rw [hw]
    dsimp only
    rw [hu] at first live ⊢
    exact (ih live).head first
  | case4 s id e rest hw fuel err u hu =>
    have first : Leg admits _ s _ _ _ := .enlist hl hw
    have live := (terminated_enrol id e { s with waiting := rest, spawned := s.spawned + 1 }).trans hl
    unfold settleDeeds
    rw [hw]
    dsimp only
    rw [hu] at first live ⊢
    exact first.spans live

variable (admits) in
/-- **The caller's entity is enrolled,** and those that it asks for. -/
theorem register_spans (fuel : Nat) {e : ε} (welcome : admits (.register e)) (hl : s.terminated = false) :
    Spans admits .resting s (s.registerDeeds fuel e) (s.register fuel e) := by
  have first : Leg admits _ s _ _ _ := .accept welcome hl
  have live := (terminated_enrol s.nextId e (s.nameNext e).2).trans hl
  unfold registerDeeds
  rw [register_eq fuel e hl, if_neg (by simp [hl])]
  generalize hx : (s.nameNext e).2.enrol s.nextId e = x at first live ⊢
  obtain ⟨_ | _, u⟩ := x
  · exact first.spans live
  · obtain ⟨q, t, legs, hl', rest⟩ := (settle_spans fuel live).head first
    refine ⟨q, t, legs, hl', fun r v hv => ?_⟩
    obtain ⟨⟨r', v'⟩, hr, heq⟩ := Option.map_eq_some_iff.1 hv
    cases heq
    obtain ⟨rfl, rfl⟩ := rest r' v hr
    exact ⟨by cases r' <;> rfl, rfl⟩

omit [Entity ε μ W] in
/-- somebody runs under an id, or nobody does -/
theorem running_or_idle (id : EntityId) (s : Simulation ε μ W) :
    (∃ slot, s.entities[id]? = some slot ∧ slot.state = .running ∧
      (s.entities[id]?.filter fun slot => slot.state = .running) = some slot) ∨
    s.runs id = false ∧ (s.entities[id]?.filter fun slot => slot.state = .running) = none := by
  unfold runs
  cases s.entities[id]? with
  | none => exact .inr ⟨rfl, rfl⟩
  | some slot =>
    by_cases hr : slot.state = .running
    · exact .inl ⟨slot, rfl, hr, by simp [hr]⟩
    · exact .inr ⟨by simp [hr], by simp [hr]⟩

variable (admits) in
/-- **An event leaves and is delivered,** and those are enrolled that were asked for. -/
theorem dispatch_spans (fuel : Nat) {e : Event μ} {agenda : Agenda μ} (hl : s.terminated = false)
    (hn : s.agenda.next? = some (e, agenda)) :
    Spans admits .resting s (({ s with agenda } : Simulation ε μ W).dispatchDeeds fuel e)
      (({ s with agenda } : Simulation ε μ W).dispatch fuel e) := by
  unfold dispatch dispatchDeeds
  rcases running_or_idle e.target ({ s with agenda } : Simulation ε μ W) with
    ⟨slot, hslot, hrun, htarget⟩ | ⟨hidle, hnone⟩
  · rw [htarget]
    dsimp only
    have first : Leg admits _ s _ _ _ := .react hl hn hslot hrun
    have live := (terminated_react e slot ({ s with agenda } : Simulation ε μ W)).trans hl
    generalize hx : (({ s with agenda } : Simulation ε μ W).react e slot).2.absorbOutcome e.target _ = x at first live ⊢
    obtain ⟨_ | _, u⟩ := x
    · exact first.spans live
    · exact (settle_spans fuel live).head first
  · rw [hnone]
    refine ⟨_, _, (Leg.drop hl hn hidle).single, (absorb_effect ..).terminated.trans hl, fun r u hx => ?_⟩
    cases hx
    exact ⟨rfl, rfl⟩

/-! := dispatch_spans admits fuel hl:= dispatch_spans admits fuel hl Whole calls -/

/-- what a run that has got to `u` comes to: something brings it to rest, or an error ends it -/
inductive Rests (horizon : Option Time) (u : Simulation ε μ W) :
    Except SimError RunOutcome → Simulation ε μ W → Prop
  | rest {outcome : RunOutcome} {t : Simulation ε μ W} (h : u.rest? horizon = some (outcome, t)) :
      Rests horizon u (.ok outcome) t
  | empty (rest : u.rest? horizon = none) (next : u.agenda.next? = none) : Rests horizon u (.ok .drained) u
  | failed (err : SimError) (live : u.terminated = false) : Rests horizon u (.error err) u.finish

theorem Rests.legs {horizon : Option Time} {r : Except SimError RunOutcome} (h : Rests horizon s r t) :
    Legs admits (.reached r) s [] (.reached r) t := by
  cases h with
  | rest h => exact rest?_legs admits h
  | empty => exact .refl ..
  | failed err live => exact (Leg.finish s (Phase.reached_ne _)).single

variable (admits) in
/-- **A run** delivers events until something brings it to rest. -/
theorem loop_legs (horizon : Option Time) (fuel : Nat) (s : Simulation ε μ W) :
    ∃ q u, Legs admits .resting s (s.loopDeeds horizon fuel) q u ∧ u.terminated = s.terminated ∧
      ∀ r t, s.loop horizon fuel = some (r, t) → q = .reached r ∧ Rests horizon u r t := by
  fun_induction loop horizon fuel s with
  | case1 fuel s outcome v hrest =>
    unfold loopDeeds
    rw [hrest]
    refine ⟨_, s, .refl .., rfl, fun r t hx => ?_⟩
    cases hx
    exact ⟨rfl, .rest hrest⟩
  | case2 fuel s hrest hnext =>
    unfold loopDeeds
    rw [hrest, hnext]
    refine ⟨_, s, .refl .., rfl, fun r t hx => ?_⟩
    cases hx
    exact ⟨rfl, .empty hrest hnext⟩
  | case3 s hrest e agenda hnext =>
    unfold loopDeeds
    rw [hrest, hnext]
    exact ⟨_, s, .refl .., rfl, fun _ _ hx => by cases hx⟩
  | case4 s hrest e agenda hnext fuel hnone =>
    have hl := live_of_rest? hrest
    obtain ⟨q, u, legs, live, -⟩ := dispatch_spans admits fuel hl hnext
    unfold loopDeeds
    rw [hrest, hnext]
    dsimp only
    rw [hnone, List.append_nil]
    exact ⟨q, u, legs, live.trans hl.symm, fun _ _ hx => by cases hx⟩
  | case5 s hrest e agenda hnext fuel v hv ih =>
    have hl := live_of_rest? hrest
    have delivered := dispatch_spans admits fuel hl hnext
    rw [hv] at delivered
    obtain ⟨q, u, legs, same, rest⟩ := ih
    unfold loopDeeds
    rw [hrest, hnext]
    dsimp only
    rw [hv]
    exact ⟨q, u, delivered.legs.1.trans legs, (same.trans delivered.legs.2).trans hl.symm, rest⟩
  | case6 s hrest e agenda hnext fuel err v hv =>
    have hl := live_of_rest? hrest
    have delivered := dispatch_spans admits fuel hl hnext
    rw [hv] at delivered
    unfold loopDeeds
    rw [hrest, hnext]
    dsimp only
    rw [hv, List.append_nil]
    refine ⟨_, v, delivered.legs.1, delivered.legs.2.trans hl.symm, fun r t hx => ?_⟩
    cases hx
    exact ⟨rfl, .failed err delivered.legs.2⟩

/-- what a step that has got to `u` comes to: there was nothing to deliver, or the run goes on unless somebody has asked
    for its end, or an error ends it -/
inductive Stepped (u : Simulation ε μ W) : Except SimError Bool → Simulation ε μ W → Prop
  | idle (live : u.terminated = false) (next : u.agenda.next? = none) : Stepped u (.ok false) u
  | stopped (live : u.terminated = false) (asked : u.stopRequested = true) : Stepped u (.ok true) u.finish
  | delivered (live : u.terminated = false) (unasked : u.stopRequested = false) : Stepped u (.ok true) u
  | failed (err : SimError) (live : u.terminated = false) : Stepped u (.error err) u.finish

theorem Stepped.legs {r : Except SimError Bool} (h : Stepped s r t) : Legs admits (.reached r) s [] (.reached r) t := by
  cases h with
  | idle | delivered => exact .refl ..
  | stopped | failed => exact (Leg.finish s (Phase.reached_ne _)).single

variable (admits) in
/-- **A step** delivers one event, if there is one. -/
theorem step_legs (fuel : Nat) (hl : s.terminated = false) :
    ∃ q u, Legs admits .resting s (s.stepDeeds fuel) q u ∧
      ∀ r t, s.step fuel = some (r, t) → q = .reached r ∧ Stepped u r t := by
  unfold step stepDeeds
  rw [if_neg (by simp [hl]), if_neg (by simp [hl])]
  cases hn : s.agenda.next? with
  | none =>
    refine ⟨_, s, .refl .., fun r t hx => ?_⟩
    cases hx
    exact ⟨rfl, .idle hl hn⟩
  | some x =>
    obtain ⟨e, agenda⟩ := x
    obtain ⟨q, u, legs, live, rest⟩ := dispatch_spans admits fuel hl hn
    refine ⟨q, u, legs, fun r t hx => ?_⟩
    dsimp only at hx
    split at hx
    · cases hx
    · next err v hv =>
      cases hx
      obtain ⟨rfl, rfl⟩ := rest _ _ hv
      exact ⟨rfl, .failed err live⟩
    · next v hv =>
      cases hx
      obtain ⟨rfl, rfl⟩ := rest _ _ hv
      refine ⟨rfl, ?_⟩
      split_ifs with hstop
      · exact .stopped live hstop
      · exact .delivered live (by simpa using hstop)

/-- where a call stands that is answered so -/
def Answer.phase : Answer → Phase
  | registered r => .reached r
  | ran r => .reached r
  | stepped r => .reached r
  | _ => .resting

variable (admits) in
/-- **Every call that is answered is legs in a row,** with the deeds of the call. -/
theorem call_legs {fuel : Nat} {c : Call ε μ} {a : Answer} (welcome : admits c)
    (h : s.call fuel c = some (a, t)) :
    ∃ q, Legs admits .resting s (s.callDeeds fuel c) q t ∧ (s.terminated = false → q = a.phase) := by
  cases answered h with
  | @register e r _ hu =>
    cases hl : s.terminated with
    | true =>
      cases (if_pos hl : s.register fuel e = some (.error (.terminated s.now), s)).symm.trans hu
      have none : s.callDeeds fuel (.register e) = [] := if_pos hl
      rw [none]
      exact ⟨_, .refl .., nofun⟩
    | false =>
      have spans := register_spans admits (s := s) fuel welcome hl
      rw [hu] at spans
      exact ⟨_, spans.legs.1, fun _ => rfl⟩
  | schedule delay source target message =>
    exact ⟨_, (Leg.schedule delay source target message s welcome).single, fun _ => rfl⟩
  | cancel handle => exact ⟨_, (Leg.cancel handle s welcome).single, fun _ => rfl⟩
  | @run r u hu =>
    obtain ⟨q, v, legs, -, rest⟩ := loop_legs admits s.limits.until? fuel s
    obtain ⟨rfl, rests⟩ := rest r u hu
    exact ⟨_, (legs.quiet rests.legs).quiet (Leg.finish u (Phase.reached_ne r)).single, fun _ => rfl⟩
  | @runUntil time r _ hu =>
    obtain ⟨q, v, legs, -, rest⟩ := loop_legs admits (some time) fuel s
    obtain ⟨rfl, rests⟩ := rest r t hu
    exact ⟨_, legs.quiet rests.legs, fun _ => rfl⟩
  | @step r _ hu =>
    cases hl : s.terminated with
    | true =>
      cases (if_pos hl : s.step fuel = some (.ok false, s)).symm.trans hu
      have none : s.callDeeds fuel .step = [] := if_pos hl
      rw [none]
      exact ⟨_, .refl .., nofun⟩
    | false =>
      obtain ⟨q, v, legs, rest⟩ := step_legs admits fuel hl
      obtain ⟨rfl, stepped⟩ := rest r t hu
      exact ⟨_, legs.quiet stepped.legs, fun _ => rfl⟩
  | stop => exact ⟨_, (Leg.finish (p := .resting) s nofun).single, fun _ => rfl⟩

variable (admits) in
/-- the deeds of a call are those of legs in a row, whether the call comes back or not -/
theorem callDeeds_legs (fuel : Nat) (s : Simulation ε μ W) (c : Call ε μ) (welcome : admits c) :
    ∃ q t, Legs admits .resting s (s.callDeeds fuel c) q t := by
  cases hc : s.call fuel c with
  | some x =>
    obtain ⟨q, legs, -⟩ := call_legs admits welcome hc
    exact ⟨q, x.2, legs⟩
  | none =>
    cases c with
    | register e =>
      cases hl : s.terminated with
      | true => cases (if_pos hl : s.register fuel e = _).symm.trans (Option.map_eq_none_iff.1 hc)
      | false =>
        obtain ⟨q, t, legs, -⟩ := register_spans admits (s := s) fuel welcome hl
        exact ⟨q, t, legs⟩
    | run =>
      obtain ⟨q, t, legs, -, -⟩ := loop_legs admits s.limits.until? fuel s
      exact ⟨q, t, legs⟩
    | runUntil time =>
      obtain ⟨q, t, legs, -, -⟩ := loop_legs admits (some time) fuel s
      exact ⟨q, t, legs⟩
    | step =>
      cases hl : s.terminated with
      | true => cases (if_pos hl : s.step fuel = _).symm.trans (Option.map_eq_none_iff.1 hc)
      | false =>
        obtain ⟨q, t, legs, -⟩ := step_legs admits fuel hl
        exact ⟨q, t, legs⟩
    | schedule | cancel | stop => cases hc

end Simulation

end BrokerSim
