/-
The life of an entity. A `Lifeline` is what one entity may be called for, from first to last: a start; if it came to a
good end, reactions; and one shutdown at most. `Alive` is what every move keeps: each entity of the registry has such a
lifeline, which fits the state of its slot, and shutdowns are the last visits of all.
- `lifecycle`: so it is after any calls of which no registration failed. Once the run has ended, every entity that had
  started well was shut down, in the order of ids and at the time of the clock, and no call visits anybody any more.
  The calls that end the run are those of `Ends`, and no others.
-/
import Mathlib.Tactic
import BrokerSim.Proofs.Kernel.Moves

namespace BrokerSim

variable {ε μ W : Type}

/-! ## Lifelines -/

/-- the visits of one entity -/
def life (id : EntityId) (visits : List (Visit μ)) : List (Visit μ) := visits.filter (·.id == id)

/-- all the visits of one entity, first visit first, and where they leave it -/
inductive Lifeline (id : EntityId) : List (Visit μ) → LifecycleState → Prop
  | refused (err : SimError) : Lifeline id [.start id, .answered id (some err)] .shutdown
  | running (events : List (Event μ)) :
      Lifeline id ([.start id, .answered id none] ++ events.map .react) .running
  | closed (events : List (Event μ)) (time : Time) :
      Lifeline id ([.start id, .answered id none] ++ events.map .react ++ [.shutdown id time]) .shutdown

namespace Lifeline

variable {id : EntityId} {visits : List (Visit μ)} {state : LifecycleState}

theorem start (error? : Option SimError) :
    Lifeline id ([.start id, .answered id error?] : List (Visit μ)) (stateAfter error?) := by
  cases error? with
  | none => exact .running []
  | some err => exact .refused err

theorem react (h : Lifeline id visits .running) (e : Event μ) : Lifeline id (visits ++ [.react e]) .running := by
  cases h with
  | running events =>
    have h : (events ++ [e]).map .react = events.map .react ++ [Visit.react e] := List.map_append
    rw [List.append_assoc, ← h]
    exact .running (events ++ [e])

theorem shutdown (h : Lifeline id visits .running) (time : Time) :
    Lifeline id (visits ++ [.shutdown id time]) .shutdown := by
  cases h with
  | running events => exact .closed events time

/-- an entity that started well and was not shut down is running, and no other is -/
theorem running_iff (h : Lifeline id visits state) (hv : ∀ v ∈ visits, v.isShutdown = false) :
    state = .running ↔ .answered id none ∈ visits := by
  cases h with
  | refused err => simp
  | running events => simp
  | closed events time => exact absurd (hv (.shutdown id time) (by simp)) (by simp [Visit.isShutdown])

end Lifeline

theorem life_append (id : EntityId) (v w : List (Visit μ)) : life id (v ++ w) = life id v ++ life id w :=
  List.filter_append ..

theorem life_other {id : EntityId} {v : List (Visit μ)} (h : ∀ x ∈ v, x.id ≠ id) : life id v = [] :=
  List.filter_eq_nil_iff.2 fun x hx => by simpa using h x hx

theorem life_self {id : EntityId} {v : List (Visit μ)} (h : ∀ x ∈ v, x.id = id) : life id v = v :=
  List.filter_eq_self.2 fun x hx => by simpa using h x hx

/-- of a row of shutdowns an entity sees its own -/
theorem life_shutdowns {ids : List EntityId} (hn : ids.Nodup) (id : EntityId) (time : Time) :
    life id (ids.map (.shutdown · time) : List (Visit μ)) = if id ∈ ids then [.shutdown id time] else [] := by
  have h : life id (ids.map (.shutdown · time) : List (Visit μ)) = (ids.filter (· == id)).map (.shutdown · time) :=
    List.filter_map
  rw [h, List.filter_beq, hn.count]
  split_ifs <;> rfl

/-- the last visits are the shutdowns, at one time and in the order of ids, of all that had started well -/
def Ended (time : Time) (visits : List (Visit μ)) : Prop :=
  ∃ (before : List (Visit μ)) (ids : List EntityId), visits = before ++ ids.map (.shutdown · time) ∧
    (∀ v ∈ before, v.isShutdown = false) ∧ ids.Pairwise (· < ·) ∧ ∀ id, id ∈ ids ↔ .answered id none ∈ before

namespace Simulation

/-! ## What every move keeps -/

/-- shutdowns come last: there are none before the run ends, and then one for each entity that had started well -/
structure Alive (s : Simulation ε μ W) : Prop where
  absent : ∀ id, s.entities[id]? = none → life id s.visits = []
  present : ∀ id slot, s.entities[id]? = some slot → Lifeline id (life id s.visits) slot.state
  live : s.terminated = false → ∀ v ∈ s.visits, v.isShutdown = false
  ended : s.terminated = true → Ended s.now s.visits

variable {s t : Simulation ε μ W}

theorem alive_fresh (limits : Limits) (world : W) : Alive (fresh limits world : Simulation ε μ W) where
  absent := fun _ _ => rfl
  present := fun _ _ h => by cases h
  live := fun _ _ h => nomatch h
  ended := fun h => nomatch h

/-- nothing but shutdowns was added to the visits of a run that goes on -/
theorem Change.live {v : List (Visit μ)} {spawned : List ε} (h : Change v spawned s t)
    (hs : ∀ v ∈ s.visits, v.isShutdown = false) (hv : ∀ x ∈ v, x.isShutdown = false) :
    ∀ x ∈ t.visits, x.isShutdown = false := by
  intro x hx
  rw [h.visits] at hx
  exact (List.mem_append.1 hx).elim (hs x) (hv x)

theorem Change.life {v : List (Visit μ)} {spawned : List ε} (h : Change v spawned s t) (id : EntityId) :
    life id t.visits = BrokerSim.life id s.visits ++ BrokerSim.life id v := by
  rw [h.visits, life_append]

/-- the ids of the running entities, in order -/
def running (s : Simulation ε μ W) : List EntityId := (List.range s.entities.size).filter s.runs

theorem mem_running {id : EntityId} {slot : Slot ε} (h : s.entities[id]? = some slot) :
    id ∈ s.running ↔ slot.state = .running := by
  have hlt : id < s.entities.size := (Array.getElem?_eq_some_iff.1 h).1
  rw [running, List.mem_filter, List.mem_range, runs, h]
  simp [hlt]

theorem not_mem_running {id : EntityId} (h : s.entities[id]? = none) : id ∉ s.running := by
  rw [running, List.mem_filter, runs, h]
  simp

theorem Alive.mem_running_iff (hs : Alive s) (hl : s.terminated = false) (id : EntityId) :
    id ∈ s.running ↔ .answered id none ∈ s.visits := by
  have hmem : .answered id none ∈ BrokerSim.life id s.visits ↔ .answered id none ∈ s.visits := by
    simp [BrokerSim.life, Visit.id]
  rw [← hmem]
  cases h : s.entities[id]? with
  | none => rw [hs.absent id h]; exact iff_of_false (not_mem_running h) List.not_mem_nil
  | some slot =>
    rw [mem_running h]
    exact (hs.present id slot h).running_iff fun v hv => hs.live hl v (List.mem_filter.1 hv).1

variable [Entity ε μ W]

theorem Move.alive (h : Move s t) (hs : Alive s) : Alive t := by
  cases h with
  | act h _ =>
    have hv : t.visits = s.visits := h.visits.trans (List.append_nil _)
    constructor
    · rw [h.entities, hv]; exact hs.absent
    · rw [h.entities, hv]; exact hs.present
    · rw [h.terminated, hv]; exact hs.live
    · rw [h.terminated, hv, h.now]; exact hs.ended
  | leave agenda live =>
    exact ⟨hs.absent, hs.present, hs.live, fun h => Bool.noConfusion (h.symm.trans live)⟩
  | @enrol _ e entity rest error? spawned live line turn change entities waiting =>
    have hother : ∀ id, id ≠ s.entities.size →
        BrokerSim.life id [.start s.entities.size, .answered s.entities.size error?] = ([] : List (Visit μ)) :=
      fun id hid => life_other (by simpa [Visit.id] using hid.symm)
    refine ⟨?_, ?_, fun _ => change.live (hs.live live) (by simp [Visit.isShutdown]),
      fun h => Bool.noConfusion (h.symm.trans (change.terminated.trans live))⟩
    · intro id hid
      rw [entities, Array.getElem?_push] at hid
      split_ifs at hid with hne
      rw [change.life, hs.absent id hid, hother id hne, List.append_nil]
    · intro id slot hslot
      rw [entities, Array.getElem?_push] at hslot
      rw [change.life]
      split_ifs at hslot with hid
      · cases hslot
        rw [hid, hs.absent _ (Array.getElem?_eq_none le_rfl), life_self (by simp [Visit.id])]
        exact .start error?
      · rw [hother id hid, List.append_nil]
        exact hs.present id slot hslot
  | @deliver _ event slot₀ entity spawned live target running turn change entities waiting =>
    have hother : ∀ id, id ≠ event.target → BrokerSim.life id [Visit.react event] = [] :=
      fun id hid => life_other (by simpa [Visit.id] using hid.symm)
    refine ⟨?_, ?_, fun _ => change.live (hs.live live) (by simp [Visit.isShutdown]),
      fun h => Bool.noConfusion (h.symm.trans (change.terminated.trans live))⟩
    · intro id hid
      rw [entities, Array.getElem?_setIfInBounds] at hid
      split_ifs at hid with heq hlt
      · rw [Array.getElem?_eq_none (not_lt.1 hlt)] at target
        cases target
      · rw [change.life, hs.absent id hid, hother id (Ne.symm heq), List.append_nil]
    · intro id slot hslot
      rw [entities, Array.getElem?_setIfInBounds] at hslot
      rw [change.life]
      split_ifs at hslot with heq hlt
      · cases hslot
        have hself : BrokerSim.life event.target [Visit.react event] = [.react event] := life_self (by simp [Visit.id])
        have h := hs.present _ _ target
        rw [← heq, hself]
        rw [running] at h ⊢
        exact h.react event
      · rw [hother id (Ne.symm heq), List.append_nil]
        exact hs.present id slot hslot
  | finish live =>
    have h := finish_closed live
    have hids : s.running.Pairwise (· < ·) := List.Pairwise.filter _ List.pairwise_lt_range
    have hlife : ∀ id, BrokerSim.life id s.finish.visits =
        BrokerSim.life id s.visits ++ if id ∈ s.running then [.shutdown id s.now] else [] := by
      intro id
      rw [← life_shutdowns hids.nodup id s.now]
      exact h.change.life id
    refine ⟨?_, ?_, fun ht => Bool.noConfusion (ht.symm.trans h.change.terminated), ?_⟩
    · intro id hid
      have hnone : s.entities[id]? = none := by
        rw [Array.getElem?_eq_none_iff] at hid ⊢
        exact hid.trans' h.size.ge
      rw [hlife, hs.absent id hnone, if_neg (not_mem_running hnone)]
      rfl
    · intro id slot hslot
      obtain ⟨old, (hold : s.entities[id]? = some old), -, hlast⟩ := h.slot le_rfl hslot
      have hp := hs.present id old hold
      rcases hlast with ⟨hidle, rfl⟩ | ⟨hrun, hclosed, -⟩
      · rw [hlife, if_neg (fun hm => hidle ((mem_running hold).1 hm)), List.append_nil]
        exact hp
      · rw [hlife, if_pos ((mem_running hold).2 hrun), hclosed]
        rw [hrun] at hp
        exact hp.shutdown s.now
    · intro _
      refine ⟨s.visits, s.running, ?_, hs.live live, hids, hs.mem_running_iff live⟩
      rw [h.change.now]
      exact h.change.visits

/-! ## Any calls -/

/-- **The life of an entity.** After any calls of which no registration failed (but those made after the end), the visits
    of each entity of the registry are a lifeline that fits its state, and nobody else was visited. Before the end nobody
    was shut down; after it every entity that had started well was, last of all, once, in the order of ids and at the
    time of the clock. From then on no call visits anybody; before, a call ends the run in the cases of `Ends`. -/
theorem lifecycle (h : Reached Loyal s) :
    (∀ id, match s.entities[id]? with
      | none => life id s.visits = []
      | some slot => Lifeline id (life id s.visits) slot.state) ∧
    (s.terminated = false → ∀ v ∈ s.visits, v.isShutdown = false) ∧
    (s.terminated = true → Ended s.now s.visits) ∧
    ∀ fuel c a t, s.call fuel c = some (a, t) →
      (s.terminated = true → t.terminated = true ∧ t.visits = s.visits ∧ t.now = s.now) ∧
      (s.terminated = false → (t.terminated = true ↔ Ends t c a)) := by
  obtain ⟨hs, htidy, hidle⟩ := h.orderly.invariant alive_fresh fun _ _ _ => Move.alive
  refine ⟨?_, hs.live, hs.ended, ?_⟩
  · intro id
    cases hslot : s.entities[id]? with
    | none => exact hs.absent id hslot
    | some slot => exact hs.present id slot hslot
  · intro fuel c a t hc
    constructor
    · intro ht
      have he := call_of_terminated ht hc
      exact ⟨he.terminated.trans ht, he.visits.trans (List.append_nil _), he.now⟩
    · intro hl
      exact (call_moves htidy hidle hl hc).2.1

/-- the lead was started, reacted to its word and was shut down with the others, when the run was over -/
theorem lifecycle_of_player :
    Reached Loyal performed ∧ Lifeline 0 (life 0 performed.visits) .shutdown ∧ (life 0 performed.visits).length = 4 ∧
      Ended performed.now performed.visits := by
  have visited := lifecycle performed_loyal
  have shut : performed.entities[0]?.map Slot.state = some .shutdown := by decide +kernel
  have four : (life 0 performed.visits).length = 4 := by decide +kernel
  have ends : performed.terminated = true := by decide +kernel
  refine ⟨performed_loyal, ?_⟩
  -- nothing is to be computed from here on
  generalize performed = s at visited shut four ends ⊢
  obtain ⟨slot, hslot, hshut⟩ := Option.map_eq_some_iff.1 shut
  obtain ⟨lifelines, -, ended, -⟩ := visited
  have lifeline := lifelines 0
  rw [hslot] at lifeline
  exact ⟨hshut ▸ lifeline, four, ended ends⟩

end Simulation

end BrokerSim
