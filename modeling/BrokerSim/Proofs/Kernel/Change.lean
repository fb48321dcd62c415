/-
What the steps of a simulation change. The journal tells which entities were called, in which order (`visits`), and
which ids were given to which entities (`handouts`); `Change` says how both go on from one simulation to another.
- `Action.perform_effect`: whatever an entity does, it gives out the next ids in turn, to entities that then wait at the
  end of the line; the registry, the clock and the visits stay as they are.
- `enrol_change`, `react_change`, `finish_closed`: the three places where entities are called. Each adds its visits and
  touches the slots of those it visits, and no others.
-/
import Mathlib.Tactic
import BrokerSim.Kernel.Run

namespace BrokerSim

/-- a call of an entity's code, the end of its start, or a start that found no entity -/
inductive Visit (μ : Type) where
  | start (id : EntityId)
  | answered (id : EntityId) (error? : Option SimError)
  | react (event : Event μ)
  | shutdown (id : EntityId) (time : Time)
  | stray (id : EntityId)

namespace Visit

variable {μ : Type}

/-- the entity that is visited -/
def id : Visit μ → EntityId
  | start id => id
  | answered id _ => id
  | react e => e.target
  | shutdown id _ => id
  | stray id => id

def isShutdown : Visit μ → Bool
  | shutdown _ _ => true
  | _ => false

end Visit

variable {ε μ W α : Type}

def Entry.visit? : Entry ε μ → Option (Visit μ)
  | .started id => some (.start id)
  | .answered id error? => some (.answered id error?)
  | .dispatched e => some (.react e)
  | .closed time id => some (.shutdown id time)
  | .misplaced id => some (.stray id)
  | _ => none

def Entry.handout? : Entry ε μ → Option (EntityId × ε)
  | .reserved id e => some (id, e)
  | _ => none

/-- entities numbered in turn from an id on -/
def numbered : EntityId → List ε → List (EntityId × ε)
  | _, [] => []
  | id, e :: rest => (id, e) :: numbered (id + 1) rest

theorem range_append_range' (n k : Nat) : List.range n ++ List.range' n k = List.range (n + k) := by
  rw [List.range_eq_range', List.range_eq_range', ← List.range'_append_1, Nat.zero_add]

theorem numbered_append (id : EntityId) (l k : List ε) :
    numbered id (l ++ k) = numbered id l ++ numbered (id + l.length) k := by
  induction l generalizing id with
  | nil => rfl
  | cons e l ih =>
    rw [List.cons_append, numbered, ih, numbered, List.cons_append, List.length_cons, Nat.add_assoc, Nat.add_comm 1]

theorem numbered_fst (id : EntityId) (l : List ε) : (numbered id l).map Prod.fst = List.range' id l.length := by
  induction l generalizing id with
  | nil => rfl
  | cons e l ih => rw [numbered, List.map_cons, ih, List.length_cons, List.range'_succ]

theorem numbered_snd (id : EntityId) (l : List ε) : (numbered id l).map Prod.snd = l := by
  induction l generalizing id with
  | nil => rfl
  | cons e l ih => rw [numbered, List.map_cons, ih]

theorem numbered_length (id : EntityId) (l : List ε) : (numbered id l).length = l.length := by
  rw [← List.length_map (f := Prod.fst), numbered_fst, List.length_range']

namespace Simulation

/-! ## What the journal tells -/

/-- what a reading of its entries makes of the journal, first entry first -/
def told {β : Type} (read : Entry ε μ → Option β) (s : Simulation ε μ W) : List β :=
  (s.journal.filterMap read).reverse

/-- which entities were visited, first visit first -/
def visits (s : Simulation ε μ W) : List (Visit μ) := s.told Entry.visit?

/-- which ids were given to which entities -/
def handouts (s : Simulation ε μ W) : List (EntityId × ε) := s.told Entry.handout?

theorem told_note {β : Type} (read : Entry ε μ → Option β) (entry : Entry ε μ) (s : Simulation ε μ W) :
    (s.note entry).told read = s.told read ++ (read entry).toList := by
  unfold told note
  cases h : read entry with
  | none => rw [List.filterMap_cons_none h]; exact (List.append_nil _).symm
  | some b => rw [List.filterMap_cons_some h, List.reverse_cons]; rfl

theorem told_exchange {β : Type} {read : Entry ε μ → Option β} (hr : ∀ r, read (.remark r) = none) (x : Exchange W α)
    (s : Simulation ε μ W) : (s.exchange x).2.told read = s.told read := by
  have h : ∀ (remarks : List Remark) (j : List (Entry ε μ)),
      (remarks.foldl (fun j r => .remark r :: j) j).filterMap read = j.filterMap read := by
    intro remarks
    induction remarks with
    | nil => exact fun _ => rfl
    | cons r rest ih => exact fun j => (ih _).trans (List.filterMap_cons_none (hr r))
  exact congrArg List.reverse (h _ _)

/-! ## Changes -/

/-- from `s` to `t` these visits were made and these entities were given ids -/
structure Change (visited : List (Visit μ)) (spawned : List ε) (s t : Simulation ε μ W) : Prop where
  visits : t.visits = s.visits ++ visited
  handouts : t.handouts = s.handouts ++ numbered s.nextId spawned
  nextId : t.nextId = s.nextId + spawned.length
  now : t.now = s.now
  terminated : t.terminated = s.terminated

/-- what an entity may change: it is given ids for the entities it spawns, which wait at the end of the line -/
structure Effect (spawned : List ε) (s t : Simulation ε μ W) : Prop extends Change [] spawned s t where
  entities : t.entities = s.entities
  waiting : t.waiting = s.waiting ++ numbered s.nextId spawned

variable {s t u : Simulation ε μ W}

theorem Change.trans {v w : List (Visit μ)} {a b : List ε} (h : Change v a s t) (k : Change w b t u) :
    Change (v ++ w) (a ++ b) s u where
  visits := by rw [k.visits, h.visits, List.append_assoc]
  handouts := by rw [k.handouts, h.handouts, h.nextId, numbered_append, List.append_assoc]
  nextId := by rw [k.nextId, h.nextId, List.length_append, Nat.add_assoc]
  now := k.now.trans h.now
  terminated := k.terminated.trans h.terminated

theorem Change.counted {v : List (Visit μ)} {spawned : List ε} (h : Change v spawned s t)
    (hs : s.handouts.map Prod.fst = List.range s.nextId) : t.handouts.map Prod.fst = List.range t.nextId := by
  rw [h.handouts, h.nextId, List.map_append, hs, numbered_fst, range_append_range']

/-- those that wait behind the others were spawned -/
theorem Effect.spawned_eq {spawned l : List ε} (h : Effect spawned s t)
    (hw : t.waiting = s.waiting ++ numbered s.nextId l) : spawned = l := by
  have heq := List.append_cancel_left (h.waiting.symm.trans hw)
  rw [← numbered_snd s.nextId spawned, heq, numbered_snd]

theorem Change.mem_handouts {v : List (Visit μ)} {spawned : List ε} (h : Change v spawned s t) {w : EntityId × ε}
    (hw : w ∈ s.handouts ∨ w ∈ numbered s.nextId spawned) : w ∈ t.handouts := by
  rw [h.handouts]
  exact List.mem_append.2 hw

theorem Change.not_stray {v : List (Visit μ)} {spawned : List ε} (h : Change v spawned s t)
    (hs : ∀ id, .stray id ∉ s.visits) (hv : ∀ id, .stray id ∉ v) : ∀ id, .stray id ∉ t.visits := by
  intro id hid
  rw [h.visits] at hid
  exact (List.mem_append.1 hid).elim (hs id) (hv id)

theorem Change.mem_waiting {v : List (Visit μ)} {spawned : List ε} (h : Change v spawned s t)
    {line : List (EntityId × ε)} (hs : ∀ w ∈ line, w ∈ s.handouts)
    (ht : t.waiting = line ++ numbered s.nextId spawned) :
    ∀ w ∈ t.waiting, w ∈ t.handouts := by
  intro w hw
  rw [ht] at hw
  exact h.mem_handouts ((List.mem_append.1 hw).imp_left (hs w))

/-- nothing that counts is different -/
theorem Effect.none (hv : t.visits = s.visits) (hh : t.handouts = s.handouts) (hi : t.nextId = s.nextId)
    (hn : t.now = s.now) (ht : t.terminated = s.terminated) (he : t.entities = s.entities)
    (hw : t.waiting = s.waiting) : Effect [] s t where
  visits := by rw [hv, List.append_nil]
  handouts := by rw [hh, numbered, List.append_nil]
  nextId := hi
  now := hn
  terminated := ht
  entities := he
  waiting := by rw [hw, numbered, List.append_nil]

theorem Effect.refl (s : Simulation ε μ W) : Effect [] s s := .none rfl rfl rfl rfl rfl rfl rfl

theorem Effect.trans {a b : List ε} (h : Effect a s t) (k : Effect b t u) : Effect (a ++ b) s u where
  toChange := h.toChange.trans k.toChange
  entities := k.entities.trans h.entities
  waiting := by rw [k.waiting, h.waiting, h.nextId, numbered_append, List.append_assoc]

/-- an entry that tells of no visit and no id changes nothing that counts -/
theorem Effect.note {entry : Entry ε μ} (hv : entry.visit? = Option.none) (hh : entry.handout? = Option.none) :
    Effect [] s (s.note entry) := by
  refine .none ?_ ?_ rfl rfl rfl rfl rfl
  · rw [visits, told_note, hv]; exact List.append_nil _
  · rw [handouts, told_note, hh]; exact List.append_nil _

theorem exchange_effect (x : Exchange W α) (s : Simulation ε μ W) : Effect [] s (s.exchange x).2 :=
  .none (told_exchange (fun _ => rfl) x s) (told_exchange (fun _ => rfl) x s) rfl rfl rfl rfl rfl

theorem schedule_effect (delay : Float) (source target : EntityId) (message : μ) (s : Simulation ε μ W) :
    Effect [] s (s.schedule delay source target message).2 := by
  unfold Simulation.schedule Agenda.schedule
  split
  · next h =>
    split_ifs at h
    cases h
    exact .none rfl rfl rfl rfl rfl rfl rfl
  · exact .refl s

theorem cancel_effect (h : Handle) (s : Simulation ε μ W) : Effect [] s (s.cancel h).2 := by
  have hn : (s.agenda.cancel h).2.now = s.agenda.now := by
    unfold Agenda.cancel
    split_ifs <;> rfl
  exact .none rfl rfl rfl hn rfl rfl rfl

theorem reserve_effect (e : ε) (s : Simulation ε μ W) : Effect [e] s (s.reserve e).2 where
  visits := told_note _ _ s
  handouts := told_note _ _ s
  nextId := rfl
  now := rfl
  terminated := rfl
  entities := rfl
  waiting := rfl

end Simulation

open Simulation

/-- **What an action does.** Its spawns get the next ids and wait; no entity is visited. -/
theorem Action.perform_effect (self : EntityId) (x : Action ε μ W α) (s : Simulation ε μ W) :
    ∃ spawned, Effect spawned s (x.perform self s).2 := by
  induction x generalizing s with
  | done a => exact ⟨[], .refl s⟩
  | observe next ih => exact ih _ s
  | schedule target delay message next ih =>
    obtain ⟨l, h⟩ := ih (s.schedule delay self target message).1 (s.schedule delay self target message).2
    exact ⟨[] ++ l, (schedule_effect delay self target message s).trans h⟩
  | cancel handle next ih =>
    obtain ⟨l, h⟩ := ih (s.cancel handle).1 (s.cancel handle).2
    exact ⟨[] ++ l, (cancel_effect handle s).trans h⟩
  | spawn e next ih =>
    obtain ⟨l, h⟩ := ih (s.reserve e).1 (s.reserve e).2
    exact ⟨[e] ++ l, (reserve_effect e s).trans h⟩
  | stop next ih =>
    obtain ⟨l, h⟩ := ih s.requestStop
    have hs : Effect [] s s.requestStop := .none rfl rfl rfl rfl rfl rfl rfl
    exact ⟨[] ++ l, hs.trans h⟩
  | write world next ih =>
    obtain ⟨l, h⟩ := ih { s with world }
    have hs : Effect [] s { s with world } := .none rfl rfl rfl rfl rfl rfl rfl
    exact ⟨[] ++ l, hs.trans h⟩
  | remark r next ih =>
    obtain ⟨l, h⟩ := ih (s.note (.remark r))
    exact ⟨[] ++ l, (Effect.note rfl rfl).trans h⟩

/-! ## Calls of an entity's code -/

/-- where a start leaves an entity -/
def stateAfter (error? : Option SimError) : LifecycleState := if error?.isNone then .running else .shutdown

/-- one call of the code of the entity under an id takes it from `x` to `y` -/
inductive Turn (μ W : Type) [Entity ε μ W] (id : EntityId) : ε → ε → Prop
  | start (x : ε) (s : Simulation ε μ W) :
      Turn μ W id x ((Entity.start.run.run x).perform id s).1.2
  | react (e : Event μ) (x : ε) (s : Simulation ε μ W) (h : e.target = id) :
      Turn μ W id x (((Entity.react e).run.run x).perform id s).1.2
  | shutdown (now : Time) (x : ε) (world : W) : Turn μ W id x (Entity.shutdown μ now x world).1

namespace Simulation

theorem Change.visit {v : Visit μ} {entry : Entry ε μ} (hv : entry.visit? = some v) (hh : entry.handout? = Option.none)
    (s : Simulation ε μ W) : Change [v] [] s (s.note entry) where
  visits := by rw [Simulation.visits, told_note, hv]; rfl
  handouts := by rw [Simulation.handouts, told_note, hh]; rfl
  nextId := rfl
  now := rfl
  terminated := rfl

/-- an entry that tells of no visit and no id may stand at the end -/
theorem Change.note {visited : List (Visit μ)} {spawned : List ε} {s t : Simulation ε μ W}
    (h : Change visited spawned s t) {entry : Entry ε μ} (hv : entry.visit? = none) (hh : entry.handout? = none) :
    Change visited spawned s (t.note entry) := by
  have all := h.trans (Effect.note (s := t) hv hh).toChange
  rw [List.append_nil, List.append_nil] at all
  exact all

theorem absorb_effect (id : EntityId) (e : SimError) (s : Simulation ε μ W) : Effect [] s (s.absorb id e).2 := by
  unfold absorb
  split_ifs
  · have hn : Effect [] s (s.note (.recovered s.now id e)) := .note rfl rfl
    exact hn.trans (.none rfl rfl rfl rfl rfl rfl rfl)
  · exact .note rfl rfl

theorem absorbOutcome_effect (id : EntityId) (r : Except SimError Unit) (s : Simulation ε μ W) :
    Effect [] s (s.absorbOutcome id r).2 := by
  cases r with
  | ok => exact .refl s
  | error e => exact absorb_effect id e s

theorem setIfInBounds_push (entities : Array (Slot ε)) (a b : Slot ε) :
    (entities.push a).setIfInBounds entities.size b = entities.push b := by
  rw [Array.setIfInBounds, dif_pos (by simp), Array.set_push, dif_neg (lt_irrefl _)]

variable [Entity ε μ W]

/-- a registration gives the next id to an entity, enrols it, and then those that it spawned -/
theorem register_eq (fuel : Nat) (e : ε) {s : Simulation ε μ W} (hl : s.terminated = false) :
    s.register fuel e =
      match (s.nameNext e).2.enrol s.nextId e with
      | (.error err, u) => some (.error err, u)
      | (.ok (), u) => (u.settle fuel).map fun (r, t) => (r.map fun _ => s.nextId, t) := by
  unfold register
  rw [if_neg (by simp [hl])]
  rfl

/-- a start under an id that has no place is noted, and that is all -/
theorem start_astray {id : EntityId} {s : Simulation ε μ W} (hs : s.entities[id]? = none) :
    s.start id = (.ok (), s.note (.misplaced id)) := by
  unfold start
  rw [hs]

theorem start_eq {id : EntityId} {slot : Slot ε} {s : Simulation ε μ W} (hs : s.entities[id]? = some slot) :
    s.start id =
      let x := (Entity.start.run.run slot.entity).perform id (s.note (.started id))
      (x.1.1, { x.2.note (.answered id (failure? x.1.1)) with
        entities := x.2.entities.setIfInBounds id
          { slot with state := stateAfter (failure? x.1.1), entity := x.1.2 } }) := by
  unfold start
  rw [hs]
  rfl

/-- a start is one visit, and ends with its outcome -/
theorem start_change {id : EntityId} {slot : Slot ε} {s : Simulation ε μ W} (hs : s.entities[id]? = some slot) :
    ∃ error? entity spawned, Turn μ W id slot.entity entity ∧
      Change [.start id, .answered id error?] spawned s (s.start id).2 ∧
      (s.start id).2.entities = s.entities.setIfInBounds id { slot with state := stateAfter error?, entity } ∧
      (s.start id).2.waiting = s.waiting ++ numbered s.nextId spawned := by
  obtain ⟨spawned, h⟩ := (Entity.start.run.run slot.entity).perform_effect id (s.note (.started id))
  rw [start_eq hs]
  let x := (Entity.start.run.run slot.entity).perform id (s.note (.started id))
  refine ⟨failure? x.1.1, x.1.2, spawned, .start slot.entity (s.note (.started id)), ?_, ?_, ?_⟩
  · have first : Change [.start id] [] s (s.note (.started id)) := .visit rfl rfl s
    have last : Change [.answered id (failure? x.1.1)] [] x.2 (x.2.note (.answered id (failure? x.1.1))) :=
      .visit rfl rfl x.2
    have all := (first.trans h.toChange).trans last
    simp only [List.nil_append, List.append_nil] at all
    exact ⟨all.visits, all.handouts, all.nextId, all.now, all.terminated⟩
  · change x.2.entities.setIfInBounds id _ = _
    rw [h.entities]
    rfl
  · exact h.waiting

/-- the entity that takes the next place of the registry is enrolled: it is started once, and its slot is the new one -/
theorem enrol_change (e : ε) (s : Simulation ε μ W) :
    ∃ error? entity spawned, Turn μ W s.entities.size e entity ∧
      Change [.start s.entities.size, .answered s.entities.size error?] spawned s (s.enrol s.entities.size e).2 ∧
      (s.enrol s.entities.size e).2.entities = s.entities.push ⟨Named.name e, stateAfter error?, entity⟩ ∧
      (s.enrol s.entities.size e).2.waiting = s.waiting ++ numbered s.nextId spawned := by
  have hi : Change [] [] s (s.insert s.entities.size e) :=
    have h : Effect [] s (s.note (.registered s.entities.size (Named.name e))) := .note rfl rfl
    ⟨h.visits, h.handouts, h.nextId, h.now, h.terminated⟩
  have hs : (s.insert s.entities.size e).entities[s.entities.size]? = some ⟨Named.name e, .created, e⟩ :=
    Array.getElem?_push_size
  obtain ⟨error?, entity, spawned, hx, hc, he, hw⟩ := start_change hs
  have ha := absorbOutcome_effect s.entities.size ((s.insert s.entities.size e).start s.entities.size).1
    ((s.insert s.entities.size e).start s.entities.size).2
  refine ⟨error?, entity, spawned, hx, ?_, ?_, ha.waiting.trans ((List.append_nil _).trans hw)⟩
  · have all := (hi.trans hc).trans ha.toChange
    simp only [List.nil_append, List.append_nil] at all
    exact all
  · refine ha.entities.trans (he.trans ?_)
    change (s.entities.push _).setIfInBounds s.entities.size _ = _
    exact setIfInBounds_push s.entities _ _

/-- the reaction of a running entity is one visit, and changes its own slot only -/
theorem react_change (e : Event μ) (slot : Slot ε) (s : Simulation ε μ W) :
    ∃ entity spawned, Turn μ W e.target slot.entity entity ∧
      Change [.react e] spawned s (s.react e slot).2 ∧
      (s.react e slot).2.entities = s.entities.setIfInBounds e.target { slot with entity } ∧
      (s.react e slot).2.waiting = s.waiting ++ numbered s.nextId spawned := by
  let before := { s.note (.dispatched e) with dispatched := s.dispatched + 1 }
  let x := ((Entity.react e).run.run slot.entity).perform e.target before
  obtain ⟨spawned, h⟩ := ((Entity.react e).run.run slot.entity).perform_effect e.target before
  refine ⟨x.1.2, spawned, .react e slot.entity before rfl, ?_, ?_, h.waiting⟩
  · have first : Change [.react e] [] s before :=
      have h : Change [.react e] [] s (s.note (.dispatched e)) := .visit rfl rfl s
      ⟨h.visits, h.handouts, h.nextId, h.now, h.terminated⟩
    have all := first.trans h.toChange
    simp only [List.nil_append, List.append_nil] at all
    exact ⟨all.visits, all.handouts, all.nextId, all.now, all.terminated⟩
  · change x.2.entities.setIfInBounds e.target _ = _
    rw [h.entities]
    rfl

/-! ## The end -/

/-- does an entity run under this id? -/
def runs (s : Simulation ε μ W) (id : EntityId) : Bool := (s.entities[id]?).any (·.state = .running)

/-- from `s` to `t` the running entities with ids below `n` were shut down, in the order of ids -/
structure Closed (n : Nat) (s t : Simulation ε μ W) : Prop where
  change : Change (((List.range n).filter s.runs).map (.shutdown · s.now)) [] s t
  waiting : t.waiting = s.waiting
  size : t.entities.size = s.entities.size
  other : ∀ id, (n ≤ id ∨ s.runs id = false) → t.entities[id]? = s.entities[id]?
  closed : ∀ id < n, ∀ slot, s.entities[id]? = some slot → slot.state = .running →
    ∃ world : W, t.entities[id]? =
      some { slot with state := .shutdown, entity := (Entity.shutdown μ s.now slot.entity world).1 }

theorem Closed.zero (s : Simulation ε μ W) : Closed 0 s s where
  change := (Effect.refl s).toChange
  waiting := rfl
  size := rfl
  other := fun _ _ => rfl
  closed := fun _ h => absurd h (Nat.not_lt_zero _)

/-- an id under which nothing runs is passed over -/
theorem Closed.skip {n : Nat} {s t : Simulation ε μ W} (h : Closed n s t) (hr : s.runs n = false) :
    Closed (n + 1) s t where
  change := by
    rw [List.range_succ, List.filter_append, List.filter_cons_of_neg (by simp [hr]), List.filter_nil, List.append_nil]
    exact h.change
  waiting := h.waiting
  size := h.size
  other := fun id hid => h.other id (hid.imp_left Nat.le_of_succ_le)
  closed := by
    intro id hid slot hs hx
    rcases Nat.lt_succ_iff_lt_or_eq.1 hid with hid | rfl
    · exact h.closed id hid slot hs hx
    · rw [runs, hs] at hr
      simp [hx] at hr

theorem close_running {n : Nat} {slot : Slot ε} {t : Simulation ε μ W} (ht : t.entities[n]? = some slot)
    (hr : slot.state = .running) :
    t.close n =
      let x := (t.note (.closed t.now n)).exchange (Entity.shutdown μ t.now slot.entity)
      { x.2 with entities := x.2.entities.setIfInBounds n { slot with state := .shutdown, entity := x.1 } } := by
  unfold close
  rw [ht]
  exact if_pos hr

theorem close_idle {n : Nat} {t : Simulation ε μ W} (ht : t.runs n = false) : t.close n = t := by
  unfold close
  unfold runs at ht
  cases hs : t.entities[n]? with
  | none => rfl
  | some slot =>
    rw [hs] at ht
    exact if_neg (by simpa using ht)

theorem Closed.close {n : Nat} {s t : Simulation ε μ W} (h : Closed n s t) : Closed (n + 1) s (t.close n) := by
  have hn : t.entities[n]? = s.entities[n]? := h.other n (.inl le_rfl)
  cases hr : s.runs n with
  | false =>
    have ht : t.runs n = false := by rw [runs, hn]; exact hr
    rw [close_idle ht]
    exact h.skip hr
  | true =>
    obtain ⟨slot, hs, hx⟩ := (Option.any_eq_true _ _).1 hr
    have hx : slot.state = .running := by simpa using hx
    have ht := hn.trans hs
    have hsize := (Array.getElem?_eq_some_iff.1 ht).1
    rw [close_running ht hx]
    have hc : Change [.shutdown n s.now] [] t (t.note (.closed t.now n)) :=
      .visit (by rw [← h.change.now]; rfl) rfl t
    have he := exchange_effect (Entity.shutdown μ t.now slot.entity) (t.note (.closed t.now n))
    constructor
    · have all := h.change.trans (hc.trans he.toChange)
      rw [List.range_succ, List.filter_append, List.filter_cons_of_pos hr, List.filter_nil, List.map_append]
      exact ⟨all.visits, all.handouts, all.nextId, all.now, all.terminated⟩
    · exact h.waiting
    · exact (Array.size_setIfInBounds ..).trans h.size
    · intro id hid
      have hne : n ≠ id := by
        rintro rfl
        rcases hid with hid | hid
        · omega
        · exact Bool.false_ne_true (hid.symm.trans hr)
      exact (Array.getElem?_setIfInBounds_ne hne).trans (h.other id (hid.imp_left Nat.le_of_succ_le))
    · intro id hid slot' hs' hx'
      rcases Nat.lt_succ_iff_lt_or_eq.1 hid with hid | rfl
      · obtain ⟨world, he⟩ := h.closed id hid slot' hs' hx'
        exact ⟨world, (Array.getElem?_setIfInBounds_ne hid.ne').trans he⟩
      · cases hs.symm.trans hs'
        rw [← h.change.now]
        exact ⟨t.world, Array.getElem?_setIfInBounds_self_of_lt hsize⟩

theorem Closed.foldl (n : Nat) (s : Simulation ε μ W) : Closed n s ((List.range n).foldl Simulation.close s) := by
  induction n with
  | zero => exact .zero s
  | succ n ih =>
    rw [List.range_succ, List.foldl_append]
    exact ih.close

/-- **What the end of a run does.** Nobody waits any more, and every running entity is shut down, once, in the order of
    ids and at the time of the clock. -/
theorem finish_closed {s : Simulation ε μ W} (hs : s.terminated = false) :
    Closed s.entities.size { s with terminated := true, waiting := [] } s.finish := by
  have h := Closed.foldl s.entities.size { s with terminated := true, waiting := [] }
  unfold finish
  rw [if_neg (by simp [hs])]
  exact ⟨h.change.note rfl rfl, h.waiting, h.size, h.other, h.closed⟩

/-- what the end makes of a slot: it is shut down if it ran, else it stays as it is -/
theorem Closed.slot {n : Nat} {s t : Simulation ε μ W} (h : Closed n s t) (hn : s.entities.size ≤ n) {id : EntityId}
    {slot : Slot ε} (hs : t.entities[id]? = some slot) :
    ∃ old, s.entities[id]? = some old ∧ slot.name = old.name ∧
      (old.state ≠ .running ∧ slot = old ∨
        old.state = .running ∧ slot.state = .shutdown ∧
          ∃ world : W, slot.entity = (Entity.shutdown μ s.now old.entity world).1) := by
  have hlt : id < s.entities.size := h.size ▸ (Array.getElem?_eq_some_iff.1 hs).1
  have hold : s.entities[id]? = some s.entities[id] := Array.getElem?_eq_getElem hlt
  refine ⟨s.entities[id], hold, ?_⟩
  by_cases hr : s.entities[id].state = .running
  · obtain ⟨world, he⟩ := h.closed id (hlt.trans_le hn) _ hold hr
    cases hs.symm.trans he
    exact ⟨rfl, .inr ⟨hr, rfl, world, rfl⟩⟩
  · have hruns : s.runs id = false := by
      rw [runs, hold]
      simp [hr]
    cases (h.other id (.inr hruns)).symm.trans hs |>.symm.trans hold
    exact ⟨rfl, .inl ⟨hr, rfl⟩⟩

theorem finish_of_terminated {s : Simulation ε μ W} (hs : s.terminated = true) : s.finish = s := if_pos hs

theorem terminated_finish (s : Simulation ε μ W) : s.finish.terminated = true := by
  cases hl : s.terminated with
  | false => exact (finish_closed hl).change.terminated
  | true => rw [finish_of_terminated hl, hl]

/-- the end of a run and the shutdowns touch the entities, the world and the journal, and nobody waits any more -/
theorem finish_keeps {β : Type} (f : Simulation ε μ W → β)
    (hf : ∀ (s : Simulation ε μ W) entities world journal waiting terminated,
      f { s with entities, world, journal, waiting, terminated } = f s) (s : Simulation ε μ W) : f s.finish = f s := by
  have hclose : ∀ (s : Simulation ε μ W) id, f (s.close id) = f s := by
    intro s id
    unfold close
    split
    · rfl
    · split_ifs
      · exact hf s _ _ _ s.waiting s.terminated
      · rfl
  have hfold : ∀ (ids : List EntityId) (s : Simulation ε μ W), f (ids.foldl close s) = f s := by
    intro ids
    induction ids with
    | nil => exact fun _ => rfl
    | cons id ids ih => exact fun s => (ih _).trans (hclose s id)
  unfold finish
  split_ifs
  · rfl
  · exact (hf _ _ _ _ _ _).trans ((hfold _ _).trans (hf s _ _ _ [] true))

theorem stopRequested_finish (s : Simulation ε μ W) : s.finish.stopRequested = s.stopRequested :=
  finish_keeps stopRequested (fun _ _ _ _ _ _ => rfl) s

theorem stats_finish (s : Simulation ε μ W) : s.finish.stats = s.stats :=
  finish_keeps stats (fun _ _ _ _ _ _ => rfl) s

theorem limits_finish (s : Simulation ε μ W) : s.finish.limits = s.limits :=
  finish_keeps limits (fun _ _ _ _ _ _ => rfl) s

theorem agenda_finish (s : Simulation ε μ W) : s.finish.agenda = s.agenda :=
  finish_keeps agenda (fun _ _ _ _ _ _ => rfl) s

theorem size_finish (s : Simulation ε μ W) : s.finish.entities.size = s.entities.size := by
  cases hl : s.terminated with
  | false => exact (finish_closed hl).size
  | true => rw [finish_of_terminated hl]

/-- those that still wait when the run is over are forgotten -/
theorem waiting_finish (s : Simulation ε μ W) : s.finish.waiting.Sublist s.waiting := by
  cases hl : s.terminated with
  | false =>
    rw [(finish_closed hl).waiting]
    exact List.nil_sublist _
  | true => rw [finish_of_terminated hl]

end Simulation

end BrokerSim
