/-
A run in its smallest parts, whatever is called: also after a registration that failed and left others waiting under ids
that do not fit the registry any more, and while the world turns by itself.
- `Agenda.Ages`: what an agenda may become: no event joins it but under a new handle. `Action.perform_ages`: nothing
  that an entity does makes it otherwise.
- `Pulse`: an entity takes its place, starts or reacts, an event is scheduled, cancelled or dropped, the run ends, or
  something happens that no entity takes part in. `Pulse.ages`, `Pulse.visits`, `Pulse.handouts`: what every pulse keeps.
- `Felt`: all that a pulse can come to at one place of the registry (`Pulse.felt`).
- `Sequel.pulses`: all that is seen of a run is pulses in a row.
-/
import BrokerSim.Proofs.Kernel.Beat
import BrokerSim.Proofs.Kernel.Unbroken

namespace BrokerSim

variable {ε μ W α : Type}

/-! ## Agendas that age -/

namespace Agenda

/-- from the first agenda to the second, events may leave it or be struck off, and only new handles may come to it -/
def Ages (a b : Agenda μ) : Prop :=
  a.IsQueue → b.IsQueue ∧ a.issued ≤ b.issued ∧ ∀ e, b.Holds e → e.handle < a.issued → a.Holds e

variable {a b c : Agenda μ} {e : Event μ}

theorem Ages.refl (a : Agenda μ) : a.Ages a := fun ha => ⟨ha, le_rfl, fun _ he _ => he⟩

theorem Ages.trans (h : a.Ages b) (k : b.Ages c) : a.Ages c := by
  intro ha
  obtain ⟨hb, hab, old⟩ := h ha
  obtain ⟨hc, hbc, old'⟩ := k hb
  exact ⟨hc, hab.trans hbc, fun e he hlt => old e (old' e he (hlt.trans_le hab)) hlt⟩

/-- the event that leaves was held under its handle, and nothing is held under it any more -/
theorem IsQueue.leave (ha : a.IsQueue) (hn : a.next? = some (e, b)) :
    a.Holds e ∧ b.IsQueue ∧ b.issued = a.issued ∧ ∀ f, b.Holds f ↔ a.Holds f ∧ f.handle ≠ e.handle := by
  obtain ⟨p, hr, hp⟩ := ha
  have hnext := hr.next hp
  rw [hn] at hnext
  cases hq : p.next? with
  | none =>
    rw [hq] at hnext
    exact hnext.elim
  | some x =>
    rw [hq] at hnext
    obtain ⟨f, q⟩ := x
    obtain ⟨rfl, hr'⟩ := hnext
    obtain ⟨hmem, hlive, -, hissued, -⟩ := hp.next?_eq hq
    refine ⟨hr.mem_live.1 hmem, ⟨q, hr', hp.next? hq⟩, by rw [hr'.issued, hissued, hr.issued], fun f => ?_⟩
    rw [← hr'.mem_live, ← hr.mem_live]
    exact hlive f

/-- a handle that is cancelled is struck off, and nothing else is -/
theorem IsQueue.cancel (ha : a.IsQueue) (h : Handle) :
    (a.cancel h).2.IsQueue ∧ (a.cancel h).2.issued = a.issued ∧
      ∀ f, (a.cancel h).2.Holds f ↔ a.Holds f ∧ f.handle ≠ h := by
  obtain ⟨p, hr, hp⟩ := ha
  have hr' := (hr.cancel hp h).2
  refine ⟨⟨_, hr', hp.cancel h⟩, ?_, fun f => ?_⟩
  · rw [hr'.issued, hr.issued]
    exact Plain.issued_strike (some h) p
  · rw [← hr'.mem_live, ← hr.mem_live]
    change f ∈ (p.strike (some h)).live ↔ _
    rw [Plain.mem_strike, ne_eq, ne_eq, Option.some.injEq, eq_comm]

/-- a handle is pending if and only if an event is held under it -/
theorem IsQueue.isPending_iff (ha : a.IsQueue) {h : Handle} : a.isPending h = true ↔ ∃ e, a.Holds e ∧ e.handle = h := by
  obtain ⟨p, hr, -⟩ := ha
  rw [isPending, hr.pending, Plain.isPending_iff]
  simp only [hr.mem_live]

theorem next?_ages (hn : a.next? = some (e, b)) : a.Ages b := by
  intro ha
  obtain ⟨-, hb, hissued, hold⟩ := ha.leave hn
  exact ⟨hb, hissued.ge, fun f hf _ => ((hold f).1 hf).1⟩

theorem cancel_ages (h : Handle) (a : Agenda μ) : a.Ages (a.cancel h).2 := by
  intro ha
  obtain ⟨hb, hissued, hold⟩ := ha.cancel h
  exact ⟨hb, hissued.ge, fun f hf _ => ((hold f).1 hf).1⟩

end Agenda

namespace Simulation

theorem schedule_ages (delay : Float) (source target : EntityId) (message : μ) (s : Simulation ε μ W) :
    s.agenda.Ages (s.schedule delay source target message).2.agenda := by
  cases hd : Agenda.accepts delay with
  | false =>
    obtain ⟨reason, heq⟩ := schedule_refused hd source target message s
    rw [heq]
    exact .refl _
  | true =>
    intro hs
    obtain ⟨agenda, heq, hq, -, hissued, hold⟩ := schedule_holds hs hd source target message
    rw [heq]
    refine ⟨hq, hissued ▸ Nat.le_succ _, fun e he hlt => ?_⟩
    rcases (hold e).1 he with he | rfl
    · exact he
    · exact absurd hlt (lt_irrefl _)

end Simulation

/-- **Whatever an entity does,** the agenda ages. -/
theorem Action.perform_ages (self : EntityId) (x : Action ε μ W α) (s : Simulation ε μ W) :
    s.agenda.Ages (x.perform self s).2.agenda := by
  induction x generalizing s with
  | done a => exact .refl _
  | observe next ih => exact ih _ s
  | schedule target delay message next ih =>
    exact (Simulation.schedule_ages delay self target message s).trans (ih _ _)
  | cancel handle next ih =>
    exact (Agenda.cancel_ages handle s.agenda).trans (ih (s.cancel handle).1 (s.cancel handle).2)
  | spawn e next ih => exact ih _ (s.reserve e).2
  | stop next ih => exact ih s.requestStop
  | write world next ih => exact ih { s with world }
  | remark r next ih => exact ih (s.note (.remark r))

/-! ## What an entity hears -/

/-- the event of a reaction of the entity under an id -/
def Visit.heard? (id : EntityId) : Visit μ → Option (Event μ)
  | react e => if e.target = id then some e else none
  | _ => none

namespace Simulation

variable {s t u : Simulation ε μ W}

/-- the events on which the entity under an id has reacted, first one first -/
def heard (id : EntityId) (s : Simulation ε μ W) : List (Event μ) := s.visits.filterMap (Visit.heard? id)

theorem mem_heard {id : EntityId} {e : Event μ} : e ∈ s.heard id ↔ .react e ∈ s.visits ∧ e.target = id := by
  unfold heard
  rw [List.mem_filterMap]
  constructor
  · rintro ⟨v, hv, he⟩
    cases v with
    | react f =>
      rw [Visit.heard?] at he
      split_ifs at he with ht
      cases he
      exact ⟨hv, ht⟩
    | _ => cases he
  · rintro ⟨hv, ht⟩
    exact ⟨_, hv, if_pos ht⟩

theorem heard_of_visits {id : EntityId} {new : List (Visit μ)} (hv : t.visits = s.visits ++ new)
    (hn : ∀ v ∈ new, v.heard? id = none) : t.heard id = s.heard id := by
  unfold heard
  rw [hv, List.filterMap_append, List.filterMap_eq_nil_iff.2 hn, List.append_nil]

/-- where nobody is visited nobody hears anything -/
theorem heard_same {id : EntityId} (hv : t.visits = s.visits) : t.heard id = s.heard id := by
  unfold heard
  rw [hv]

variable [Entity ε μ W]

/-! ## Pulses -/

/-- one of the smallest parts of a run -/
inductive Pulse : Simulation ε μ W → Simulation ε μ W → Prop
  /-- something is logged, counted or named, or the world turns -/
  | aside {s t : Simulation ε μ W} (agenda : t.agenda = s.agenda) (entities : t.entities = s.entities)
      (visits : t.visits = s.visits) (handouts : s.handouts ⊆ t.handouts) (terminated : t.terminated = s.terminated) :
      Pulse s t
  | schedule (delay : Float) (source target : EntityId) (message : μ) (s : Simulation ε μ W) :
      Pulse s (s.schedule delay source target message).2
  | cancel (handle : Handle) (s : Simulation ε μ W) : Pulse s (s.cancel handle).2
  /-- an entity that was given an id takes the next place, whether or not that is its own -/
  | place {s : Simulation ε μ W} {id : EntityId} {e : ε} (given : (id, e) ∈ s.handouts) (live : s.terminated = false) :
      Pulse s (s.insert id e)
  /-- a start is asked for under an id under which nothing runs -/
  | start {s : Simulation ε μ W} {id : EntityId} (live : s.terminated = false) (idle : s.runs id = false) :
      Pulse s (s.start id).2
  /-- an event leaves and finds no running target -/
  | drop {s : Simulation ε μ W} {e : Event μ} {agenda : Agenda μ} (live : s.terminated = false)
      (next : s.agenda.next? = some (e, agenda)) (nobody : s.runs e.target = false) : Pulse s { s with agenda }
  /-- an event leaves and its target reacts -/
  | react {s : Simulation ε μ W} {e : Event μ} {agenda : Agenda μ} {slot : Slot ε} (live : s.terminated = false)
      (next : s.agenda.next? = some (e, agenda)) (target : s.entities[e.target]? = some slot)
      (running : slot.state = .running) : Pulse s (({ s with agenda } : Simulation ε μ W).react e slot).2
  | finish {s : Simulation ε μ W} (live : s.terminated = false) : Pulse s s.finish

/-- any number of pulses -/
abbrev Pulses : Simulation ε μ W → Simulation ε μ W → Prop := Relation.ReflTransGen Pulse

/-- what touches neither the agenda nor the registry is no matter for entities -/
theorem Pulse.of_effect (h : Effect [] s t) (ha : t.agenda = s.agenda) : Pulse s t :=
  .aside ha h.entities (h.visits.trans (List.append_nil _))
    (by rw [h.handouts]; exact List.subset_append_left _ _) h.terminated

theorem note_pulse {entry : Entry ε μ} (hv : entry.visit? = none) (hh : entry.handout? = none)
    (s : Simulation ε μ W) : Pulse s (s.note entry) := .of_effect (.note hv hh) rfl

theorem absorbOutcome_pulse (id : EntityId) (r : Except SimError Unit) (s : Simulation ε μ W) :
    Pulse s (s.absorbOutcome id r).2 :=
  .of_effect (absorbOutcome_effect id r s) (congrArg agenda (core_absorbOutcome id r s) :)

/-! ## What every pulse keeps -/

/-- to put an entity into the registry tells of no visit and no id -/
theorem insert_told {id : EntityId} {e : ε} (s : Simulation ε μ W) :
    (s.insert id e).visits = s.visits ∧ (s.insert id e).handouts = s.handouts := by
  have hn : Effect [] s (s.note (.registered id (Named.name e))) := .note rfl rfl
  exact ⟨hn.visits.trans (List.append_nil _), hn.handouts.trans (List.append_nil _)⟩

/-- **Every pulse lets the agenda age.** -/
theorem Pulse.ages (h : Pulse s t) : s.agenda.Ages t.agenda := by
  have same : ∀ {v : Simulation ε μ W}, v.agenda = s.agenda → s.agenda.Ages v.agenda := fun hv => hv ▸ .refl _
  cases h with
  | aside agenda => exact same agenda
  | schedule delay source target message => exact schedule_ages delay source target message s
  | cancel handle => exact Agenda.cancel_ages handle s.agenda
  | place given live => exact same rfl
  | @start _ id live idle =>
    cases hslot : s.entities[id]? with
    | none =>
      rw [start_astray hslot]
      exact same rfl
    | some slot =>
      rw [start_eq hslot]
      exact (Entity.start.run.run slot.entity : Action ε μ W _).perform_ages id (s.note (.started id))
  | drop live next nobody => exact Agenda.next?_ages next
  | @react _ e agenda slot live next target running =>
    rw [react_eq]
    exact (Agenda.next?_ages next).trans
      (((Entity.react e).run.run slot.entity : Action ε μ W _).perform_ages e.target
        (({ s with agenda } : Simulation ε μ W).delivering e))
  | finish live => exact same (agenda_finish s)

/-- what entities were called, pulse by pulse -/
theorem Pulse.visits (h : Pulse s t) : ∃ new, t.visits = s.visits ++ new ∧
    ∀ e, .react e ∈ new → ∃ agenda, s.agenda.next? = some (e, agenda) := by
  have none : ∀ {v : Simulation ε μ W}, v.visits = s.visits → ∃ new, v.visits = s.visits ++ new ∧
      ∀ e, .react e ∈ new → ∃ agenda, s.agenda.next? = some (e, agenda) :=
    fun hv => ⟨[], by rw [hv, List.append_nil], fun _ h => nomatch h⟩
  cases h with
  | aside _ _ visits => exact none visits
  | schedule delay source target message =>
    exact none ((schedule_effect delay source target message s).visits.trans (List.append_nil _))
  | cancel handle => exact none rfl
  | place given live => exact none (insert_told s).1
  | @start _ id live idle =>
    cases hslot : s.entities[id]? with
    | none =>
      have hc : Change [.stray id] [] s (s.note (.misplaced id)) := .visit rfl rfl s
      rw [start_astray hslot]
      exact ⟨_, hc.visits, by simp⟩
    | some slot =>
      obtain ⟨error?, entity, spawned, -, hc, -, -⟩ := start_change hslot
      exact ⟨_, hc.visits, by simp⟩
  | drop live next nobody => exact none rfl
  | @react _ e agenda slot live next target running =>
    obtain ⟨entity, spawned, -, hc, -, -⟩ := react_change e slot { s with agenda }
    refine ⟨_, hc.visits, fun f hf => ?_⟩
    obtain rfl : f = e := by simpa using hf
    exact ⟨agenda, next⟩
  | finish live => exact ⟨_, (finish_closed live).change.visits, by simp⟩

/-- no id is taken back -/
theorem Pulse.handouts (h : Pulse s t) : s.handouts ⊆ t.handouts := by
  have more : ∀ {v : Simulation ε μ W} {l : List (EntityId × ε)}, v.handouts = s.handouts ++ l →
      s.handouts ⊆ v.handouts := fun hv => hv ▸ List.subset_append_left _ _
  cases h with
  | aside _ _ _ handouts => exact handouts
  | schedule delay source target message => exact more (schedule_effect delay source target message s).handouts
  | cancel handle => exact List.Subset.refl _
  | place given live => exact (insert_told s).2.symm ▸ List.Subset.refl _
  | @start _ id live idle =>
    cases hslot : s.entities[id]? with
    | none =>
      have hc : Change [.stray id] [] s (s.note (.misplaced id)) := .visit rfl rfl s
      rw [start_astray hslot]
      exact more hc.handouts
    | some slot =>
      obtain ⟨error?, entity, spawned, -, hc, -, -⟩ := start_change hslot
      exact more hc.handouts
  | drop live next nobody => exact List.Subset.refl _
  | @react _ e agenda slot live next target running =>
    obtain ⟨entity, spawned, -, hc, -, -⟩ := react_change e slot { s with agenda }
    exact more hc.handouts
  | finish live => exact more (finish_closed live).change.handouts

/-- a run so far: its agenda is a queue, and whatever was delivered has left it -/
structure Timed (s : Simulation ε μ W) : Prop where
  queue : s.agenda.IsQueue
  past : ∀ e, .react e ∈ s.visits → e.handle < s.agenda.issued

omit [Entity ε μ W] in
theorem timed_fresh (limits : Limits) (world : W) : Timed (fresh limits world : Simulation ε μ W) :=
  ⟨⟨{}, .fresh, Plain.sound_fresh⟩, fun _ h => nomatch h⟩

theorem Timed.pulse (hs : Timed s) (h : Pulse s t) : Timed t := by
  obtain ⟨hq, hissued, -⟩ := h.ages hs.queue
  obtain ⟨new, hv, hnew⟩ := h.visits
  refine ⟨hq, fun e he => ?_⟩
  rw [hv] at he
  rcases List.mem_append.1 he with he | he
  · exact (hs.past e he).trans_le hissued
  · obtain ⟨agenda, hn⟩ := hnew e he
    exact (hs.queue.event (hs.queue.leave hn).1).2.trans_le hissued

/-! ## At one place -/

/-- how a pulse is felt at one place of the registry -/
inductive Felt (id : EntityId) (s t : Simulation ε μ W) : Prop
  /-- nothing happens there -/
  | spared (slot : t.entities[id]? = s.entities[id]?) (heard : t.heard id = s.heard id)
      (live : t.terminated = false → s.terminated = false)
  /-- somebody who was given an id takes the place -/
  | placed {k : EntityId} {e : ε} (live : s.terminated = false) (given : (k, e) ∈ s.handouts)
      (slot : t.entities[id]? = some ⟨Named.name e, .created, e⟩) (heard : t.heard id = s.heard id)
      (vacant : s.entities[id]? = none)
  | started {old : Slot ε} {y : ε} {r : Except SimError Unit} {u : Simulation ε μ W} (live : s.terminated = false)
      (before : s.entities[id]? = some old) (idle : old.state ≠ .running)
      (play : (Entity.start : Reaction ε ε μ W Unit).play id old.entity (s.note (.started id)) = ((r, y), u))
      (agenda : t.agenda = u.agenda)
      (slot : t.entities[id]? = some { old with state := stateAfter (failure? r), entity := y })
      (heard : t.heard id = s.heard id)
  | reacted {e : Event μ} {agenda : Agenda μ} {old : Slot ε} {y : ε} {r : Except SimError Unit} {u : Simulation ε μ W}
      (live : s.terminated = false) (next : s.agenda.next? = some (e, agenda)) (target : e.target = id)
      (before : s.entities[id]? = some old) (running : old.state = .running)
      (play : (Entity.react e : Reaction ε ε μ W Unit).play id old.entity
        (({ s with agenda } : Simulation ε μ W).delivering e) = ((r, y), u))
      (after : t.agenda = u.agenda) (slot : t.entities[id]? = some { old with entity := y })
      (heard : t.heard id = s.heard id ++ [e])
  | closed {old : Slot ε} {world : W} (before : s.entities[id]? = some old) (running : old.state = .running)
      (slot : t.entities[id]? = some
        { old with state := .shutdown, entity := (Entity.shutdown μ s.now old.entity world).1 })
      (heard : t.heard id = s.heard id) (ended : t.terminated = true)

theorem start_felt {k : EntityId} (live : s.terminated = false) (idle : s.runs k = false) (id : EntityId) :
    Felt id s (s.start k).2 := by
  cases hslot : s.entities[k]? with
  | none =>
    have hc : Change [.stray k] [] s (s.note (.misplaced k)) := .visit rfl rfl s
    rw [start_astray hslot]
    exact .spared rfl (heard_of_visits hc.visits (by simp [Visit.heard?])) fun _ => live
  | some old =>
    obtain ⟨error?, entity, spawned, -, hc, -, -⟩ := start_change hslot
    have heard : (s.start k).2.heard id = s.heard id := heard_of_visits hc.visits (by simp [Visit.heard?])
    have terminated := hc.terminated
    obtain ⟨⟨⟨r, y⟩, u⟩, hp⟩ : ∃ x, (Entity.start : Reaction ε ε μ W Unit).play k old.entity (s.note (.started k)) = x :=
      ⟨_, rfl⟩
    have entities : u.entities = s.entities := by
      obtain ⟨l, effect⟩ := (Entity.start.run.run old.entity : Action ε μ W _).perform_effect k (s.note (.started k))
      change Effect l _ ((Entity.start : Reaction ε ε μ W Unit).play k old.entity (s.note (.started k))).2 at effect
      rw [hp] at effect
      exact effect.entities
    have heq : s.start k = (r, { u.note (.answered k (failure? r)) with
        entities := u.entities.setIfInBounds k { old with state := stateAfter (failure? r), entity := y } }) := by
      have hp : (Entity.start.run.run old.entity).perform k (s.note (.started k)) = ((r, y), u) := hp
      rw [start_eq hslot, hp]
    rw [heq] at heard terminated ⊢
    by_cases hk : k = id
    · subst hk
      have hidle : old.state ≠ .running := fun hrun => Bool.noConfusion (idle.symm.trans (runs_iff.2 ⟨old, hslot, hrun⟩))
      refine .started live hslot hidle hp rfl ?_ heard
      rw [entities]
      exact Array.getElem?_setIfInBounds_self_of_lt (Array.getElem?_eq_some_iff.1 hslot).1
    · refine .spared ?_ heard fun _ => live
      rw [entities]
      exact Array.getElem?_setIfInBounds_ne hk

theorem react_felt {e : Event μ} {agenda : Agenda μ} {old : Slot ε} (live : s.terminated = false)
    (next : s.agenda.next? = some (e, agenda)) (target : s.entities[e.target]? = some old)
    (running : old.state = .running) (id : EntityId) :
    Felt id s (({ s with agenda } : Simulation ε μ W).react e old).2 := by
  obtain ⟨entity, spawned, -, hc, -, -⟩ := react_change e old { s with agenda }
  have visits : (({ s with agenda } : Simulation ε μ W).react e old).2.visits = s.visits ++ [.react e] := hc.visits
  obtain ⟨⟨⟨r, y⟩, u⟩, hp⟩ : ∃ x, (Entity.react e : Reaction ε ε μ W Unit).play e.target old.entity
      (({ s with agenda } : Simulation ε μ W).delivering e) = x := ⟨_, rfl⟩
  have entities : u.entities = s.entities := by
    obtain ⟨l, effect⟩ := ((Entity.react e).run.run old.entity : Action ε μ W _).perform_effect e.target
      (({ s with agenda } : Simulation ε μ W).delivering e)
    change Effect l _ ((Entity.react e : Reaction ε ε μ W Unit).play e.target old.entity _).2 at effect
    rw [hp] at effect
    exact effect.entities
  have heq : ({ s with agenda } : Simulation ε μ W).react e old =
      (r, { u with entities := u.entities.setIfInBounds e.target { old with entity := y } }) := by
    rw [react_eq, hp]
  rw [heq] at visits ⊢
  by_cases ht : e.target = id
  · subst ht
    refine .reacted live next rfl target running hp rfl ?_ ?_
    · rw [entities]
      exact Array.getElem?_setIfInBounds_self_of_lt (Array.getElem?_eq_some_iff.1 target).1
    · unfold heard
      rw [visits, List.filterMap_append]
      simp [Visit.heard?]
  · refine .spared ?_ (heard_of_visits visits (by simp [Visit.heard?, ht])) fun _ => live
    rw [entities]
    exact Array.getElem?_setIfInBounds_ne ht

theorem finish_felt (live : s.terminated = false) (id : EntityId) : Felt id s s.finish := by
  have h := finish_closed live
  have heard : s.finish.heard id = s.heard id := by
    refine heard_of_visits h.change.visits fun v hv => ?_
    obtain ⟨k, -, rfl⟩ := List.mem_map.1 hv
    rfl
  have ended : s.finish.terminated = true := terminated_finish s
  cases hr : s.runs id with
  | false => exact .spared (h.other id (.inr hr)) heard fun hf => Bool.noConfusion (ended.symm.trans hf)
  | true =>
    obtain ⟨slot, hslot, hrun⟩ := runs_iff.1 hr
    obtain ⟨world, hclosed⟩ := h.closed id (Array.getElem?_eq_some_iff.1 hslot).1 slot hslot hrun
    exact .closed hslot hrun hclosed heard ended

/-- **What a pulse comes to at one place.** -/
theorem Pulse.felt (h : Pulse s t) (id : EntityId) : Felt id s t := by
  cases h with
  | aside agenda entities visits handouts terminated =>
    exact .spared (by rw [entities]) (heard_same visits) fun hl => terminated ▸ hl
  | schedule delay source target message =>
    have effect := schedule_effect delay source target message s
    exact .spared (by rw [effect.entities]) (heard_same (effect.visits.trans (List.append_nil _)))
      fun hl => effect.terminated ▸ hl
  | cancel handle => exact .spared rfl rfl fun hl => hl
  | @place _ k e given live =>
    have heard : (s.insert k e).heard id = s.heard id := heard_same (insert_told s).1
    have hslot : (s.insert k e).entities[id]? = (s.entities.push ⟨Named.name e, .created, e⟩)[id]? := rfl
    rw [Array.getElem?_push] at hslot
    split_ifs at hslot with hid
    · subst hid
      exact .placed live given hslot heard (Array.getElem?_eq_none le_rfl)
    · exact .spared hslot heard fun _ => live
  | start live idle => exact start_felt live idle id
  | drop live next nobody => exact .spared rfl rfl fun hl => hl
  | react live next target running => exact react_felt live next target running id
  | finish live => exact finish_felt live id

/-! ## Calls, pulse by pulse -/

/-- a run that may go on whatever was called before: it is fair, and those that wait were given their ids -/
structure Kempt (s : Simulation ε μ W) : Prop extends Fair s where
  listed : ∀ w ∈ s.waiting, w ∈ s.handouts

omit [Entity ε μ W] in
theorem kempt_fresh (limits : Limits) (world : W) : Kempt (fresh limits world : Simulation ε μ W) :=
  ⟨fair_fresh limits world, fun _ h => nomatch h⟩

/-- whoever takes a place and starts was given an id, and so were those that it spawns -/
theorem enrol_pulses {id : EntityId} {e : ε} (given : (id, e) ∈ s.handouts) (hl : s.terminated = false)
    (idle : s.runs id = false) (listed : ∀ w ∈ s.waiting, w ∈ s.handouts) :
    Pulses s (s.enrol id e).2 ∧ ∀ w ∈ (s.enrol id e).2.waiting, w ∈ (s.enrol id e).2.handouts := by
  let placed := s.insert id e
  have hplaced : ∀ w ∈ placed.waiting, w ∈ placed.handouts := fun w hw => (insert_told s).2.symm ▸ listed w hw
  have idle : placed.runs id = false := (runs_insert id id e s).trans idle
  have hstarted : ∀ w ∈ (placed.start id).2.waiting, w ∈ (placed.start id).2.handouts := by
    cases hslot : placed.entities[id]? with
    | none =>
      have hc : Change [.stray id] [] placed (placed.note (.misplaced id)) := .visit rfl rfl placed
      rw [start_astray hslot]
      exact hc.mem_waiting hplaced (List.append_nil _).symm
    | some slot =>
      obtain ⟨error?, entity, spawned, -, hc, -, hw⟩ := start_change hslot
      exact hc.mem_waiting hplaced hw
  have absorbed := absorbOutcome_effect id (placed.start id).1 (placed.start id).2
  refine ⟨.head (.place given hl) (.head (.start (s := placed) hl idle) (.single (absorbOutcome_pulse _ _ _))), ?_⟩
  exact absorbed.toChange.mem_waiting hstarted absorbed.waiting

/-- the first in line was given an id, and takes a place -/
theorem enlist_pulses {id : EntityId} {e : ε} {rest : List (EntityId × ε)} (hs : Kempt s) (hl : s.terminated = false)
    (hw : s.waiting = (id, e) :: rest) :
    let v := ({ s with waiting := rest, spawned := s.spawned + 1 } : Simulation ε μ W).enrol id e
    Pulses s v.2 ∧ ∀ w ∈ v.2.waiting, w ∈ v.2.handouts := by
  have hfirst : (id, e) ∈ s.waiting := hw ▸ List.mem_cons_self
  have idle : s.runs id = false := by
    by_contra hrun
    exact (hs.running id (by simpa using hrun)).2 (List.mem_map_of_mem (f := Prod.fst) hfirst)
  obtain ⟨pulses, listed⟩ := enrol_pulses (s := { s with waiting := rest, spawned := s.spawned + 1 })
    (hs.listed _ hfirst) hl idle fun w hmem => hs.listed w (hw ▸ List.mem_cons_of_mem _ hmem)
  have called : Pulse s { s with waiting := rest, spawned := s.spawned + 1 } :=
    .aside rfl rfl rfl (List.Subset.refl _) rfl
  exact ⟨.head called pulses, listed⟩

/-- the caller's entity is given an id, and takes a place -/
theorem admit_pulses (e : ε) (hs : Kempt s) (hl : s.terminated = false) :
    let v := (s.nameNext e).2.enrol s.nextId e
    Pulses s v.2 ∧ ∀ w ∈ v.2.waiting, w ∈ v.2.handouts := by
  let named := (s.nameNext e).2
  have handouts : named.handouts = s.handouts ++ [(s.nextId, e)] := told_note _ _ s
  have visits : named.visits = s.visits := (told_note Entry.visit? (.reserved s.nextId e) s).trans (List.append_nil _)
  have idle : named.runs s.nextId = false := by
    by_contra hrun
    have hrun : named.runs s.nextId = true := by simpa using hrun
    exact lt_irrefl _ (hs.running s.nextId hrun).1
  obtain ⟨enrolled, listed⟩ := enrol_pulses (s := named) (handouts ▸ List.mem_append_right _ List.mem_cons_self) hl idle
    fun w hw => handouts ▸ List.mem_append_left _ (hs.listed w hw)
  have called : Pulse s named := .aside rfl rfl visits (by rw [handouts]; exact List.subset_append_left _ _) rfl
  exact ⟨.head called enrolled, listed⟩

/-- an event leaves, and its target reacts -/
theorem react_pulses {e : Event μ} {agenda : Agenda μ} {slot : Slot ε} (hs : Kempt s) (hl : s.terminated = false)
    (hn : s.agenda.next? = some (e, agenda)) (hslot : s.entities[e.target]? = some slot) (hrun : slot.state = .running) :
    let x := ({ s with agenda } : Simulation ε μ W).react e slot
    let v := x.2.absorbOutcome e.target x.1
    Pulses s v.2 ∧ ∀ w ∈ v.2.waiting, w ∈ v.2.handouts := by
  let x := ({ s with agenda } : Simulation ε μ W).react e slot
  obtain ⟨entity, spawned, -, hc, -, hw⟩ := react_change e slot { s with agenda }
  have absorbed := absorbOutcome_effect e.target x.1 x.2
  exact ⟨.head (.react hl hn hslot hrun) (.single (absorbOutcome_pulse _ _ _)),
    absorbed.toChange.mem_waiting (hc.mem_waiting hs.listed hw) absorbed.waiting⟩

section

variable {admits : Call ε μ → Prop} {p q : Phase} {deeds new : List (Deed ε μ)}

/-- **Every leg is a row of pulses,** and leaves a run that may go on. -/
theorem Leg.pulses (h : Leg admits p s new q t) (hs : Kempt s) : Pulses s t ∧ Kempt t := by
  have fair := (h.unbroken hs.toFair).1
  suffices listed : Pulses s t ∧ ∀ w ∈ t.waiting, w ∈ t.handouts from ⟨listed.1, fair, listed.2⟩
  clear fair
  have aside : ∀ {u : Simulation ε μ W}, Effect [] s u → Pulse s u → Pulses s u ∧ ∀ w ∈ u.waiting, w ∈ u.handouts :=
    fun effect pulse => ⟨.single pulse, effect.toChange.mem_waiting hs.listed effect.waiting⟩
  cases h with
  | schedule delay source target message =>
    exact aside (schedule_effect delay source target message s) (.schedule delay source target message s)
  | cancel handle => exact aside (cancel_effect handle s) (.cancel handle s)
  | accept _ live => exact admit_pulses _ hs live
  | enlist live line => exact enlist_pulses hs live line
  | settled => exact ⟨.refl, hs.listed⟩
  | @drop _ e agenda live next nobody =>
    have effect := drop_effect e { s with agenda }
    exact ⟨.head (.drop live next nobody) (.single (.of_effect effect rfl)),
      effect.toChange.mem_waiting hs.listed effect.waiting⟩
  | react live next target running => exact react_pulses hs live next target running
  | notice h =>
    refine aside (notice_effect h) ?_
    obtain rfl | ⟨limit, rfl⟩ := h
    · exact note_pulse rfl rfl s
    · exact note_pulse rfl rfl s
  | finish =>
    refine ⟨?_, fun w hw => ?_⟩
    · cases hl : s.terminated with
      | true => rw [finish_of_terminated hl]
      | false => exact .single (.finish hl)
    · rw [handouts_finish]
      exact hs.listed w ((waiting_finish s).subset hw)

theorem Legs.pulses (h : Legs admits p s deeds q t) (hs : Kempt s) : Pulses s t ∧ Kempt t := by
  refine h.keep (P := fun _ _ t => Pulses s t ∧ Kempt t) ⟨.refl, hs⟩ ?_
  rintro _ _ _ _ _ _ ⟨pulses, kempt⟩ leg
  obtain ⟨more, kempt⟩ := leg.pulses kempt
  exact ⟨pulses.trans more, kempt⟩

end

/-- **Every call that is answered is a row of pulses,** whatever its answer. -/
theorem Kempt.call {fuel : Nat} {c : Call ε μ} {a : Answer} (hs : Kempt s) (h : s.call fuel c = some (a, t)) :
    Pulses s t ∧ Kempt t := by
  obtain ⟨q, legs, -⟩ := call_legs (fun _ => True) trivial h
  exact legs.pulses hs

theorem Kempt.dispatch {fuel : Nat} {e : Event μ} {agenda : Agenda μ} {r : Except SimError Unit} (hs : Kempt s)
    (hl : s.terminated = false) (hn : s.agenda.next? = some (e, agenda))
    (h : ({ s with agenda } : Simulation ε μ W).dispatch fuel e = some (r, t)) : Pulses s t ∧ Kempt t := by
  have spans := dispatch_spans (fun _ => True) fuel hl hn
  rw [h] at spans
  exact spans.legs.1.pulses hs

variable {allowed : Call ε μ → Answer → Prop} {drift : W → W → Prop}

/-- **All that is seen of a run is pulses in a row,** whatever the calls and their answers are. -/
theorem Sequel.pulses (h : Sequel allowed drift s t) (hs : Kempt s) : Pulses s t ∧ Kempt t := by
  induction h with
  | refl => exact ⟨.refl, hs⟩
  | @tail u v _ last ih =>
    obtain ⟨before, kempt⟩ := ih
    have step : Pulses u v ∧ Kempt v := by
      cases last with
      | call ha h => exact kempt.call h
      | deliver live next h => exact kempt.dispatch live next h
      | turn h =>
        exact ⟨.single (.aside rfl rfl rfl (List.Subset.refl _) rfl),
          ⟨kempt.given, kempt.distinct, kempt.running, kempt.counted, kempt.ended⟩, kempt.listed⟩
    exact ⟨before.trans step.1, step.2⟩

end Simulation

end BrokerSim
