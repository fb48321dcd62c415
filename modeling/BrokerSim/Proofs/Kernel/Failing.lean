/-
What becomes of errors. One that the run survives changes nothing but the tally, the log and, if a start failed, the
state of its entity; any other halts the run right after the entity that it came from.
- `Concludes`: the deeds of a part of a call, against what it comes to. `loop_concludes`, `step_concludes`: a run fails
  with the first error among its deeds that is fatal, and that is its last deed. `loop_halts`: then it is ended at once.
- `Action.perform_blind`: no action reads the tally, the registry or the journal.
- `Survives`: two simulations, the second of which has survived an error that the first one never met.
  `settle_survives`: enrolling those that wait comes to the same in both.
- `errors_halt_or_pass`: both, wherever calls may lead.
-/
import BrokerSim.Proofs.Kernel.Drivers
import BrokerSim.Proofs.Kernel.Lifecycle
import BrokerSim.Proofs.Kernel.Outcome

namespace BrokerSim

variable {ε μ W α β : Type}

/-! ## Errors among deeds -/

/-- every error among the deeds is one that a run survives -/
def Survived (deeds : List (Deed ε μ)) : Prop := ∀ err, .ended (.error err) ∈ deeds → err.isRecoverable = true

/-- the deeds of a part of a call end with the first error that is fatal, if that is what it comes to -/
def Concludes (deeds : List (Deed ε μ)) : Except SimError β → Prop
  | .ok _ => Survived deeds
  | .error err =>
    err.isRecoverable = false ∧ ∃ before, deeds = before ++ [.ended (.error err)] ∧ Survived before

theorem Survived.append {first rest : List (Deed ε μ)} (h : Survived first) (k : Survived rest) :
    Survived (first ++ rest) := fun err hmem => (List.mem_append.1 hmem).elim (h err) (k err)

theorem Survived.concludes {first rest : List (Deed ε μ)} {r : Except SimError β} (h : Survived first)
    (k : Concludes rest r) : Concludes (first ++ rest) r := by
  cases r with
  | ok b => exact h.append k
  | error err =>
    obtain ⟨hfatal, before, rfl, hbefore⟩ := k
    exact ⟨hfatal, first ++ before, (List.append_assoc ..).symm, h.append hbefore⟩

/-- the deeds of a call, against where it stands after them -/
def ConcludesAt (deeds : List (Deed ε μ)) : Phase → Prop
  | .failed err => Concludes (β := Unit) deeds (.error err)
  | _ => Survived deeds

theorem concludesAt_after {deeds : List (Deed ε μ)} {r : Except SimError Unit} (h : Concludes deeds r) :
    ConcludesAt deeds (.after r) := by
  cases r <;> exact h

theorem ConcludesAt.concludes {deeds : List (Deed ε μ)} {r : Except SimError β} (h : ConcludesAt deeds (.reached r)) :
    Concludes deeds r := by
  cases r <;> exact h

/-- a deed that is no end changes nothing -/
theorem Concludes.cons {deed : Deed ε μ} {rest : List (Deed ε μ)} {r : Except SimError β}
    (h : ∀ r, deed ≠ .ended r) (k : Concludes rest r) : Concludes (deed :: rest) r := by
  have hfirst : Survived [deed] := fun _ hmem => absurd (List.mem_singleton.1 hmem).symm (h _)
  exact hfirst.concludes k

theorem survived_nil : Survived ([] : List (Deed ε μ)) := fun _ h => absurd h List.not_mem_nil

/-- no action ends by itself -/
theorem survived_of_isAct {deeds : List (Deed ε μ)} (h : ∀ d ∈ deeds, d.isAct = true) : Survived deeds :=
  fun _ hmem => nomatch h _ hmem

namespace Simulation

variable {s t u v : Simulation ε μ W}

/-- an outcome is handed on if it is a fatal error, and survived otherwise -/
theorem absorbOutcome_concludes (id : EntityId) (r : Except SimError Unit) (s : Simulation ε μ W) :
    Concludes ([.ended r] : List (Deed ε μ)) (s.absorbOutcome id r).1 := by
  cases r with
  | ok =>
    intro err hmem
    cases List.mem_singleton.1 hmem
  | error err =>
    unfold absorbOutcome absorb
    dsimp only
    split_ifs with hk
    · intro err' hmem
      cases List.mem_singleton.1 hmem
      exact hk
    · exact ⟨by simpa using hk, [], rfl, survived_nil⟩

variable [Entity ε μ W]

theorem enrol_concludes (id : EntityId) (e : ε) (s : Simulation ε μ W) :
    Concludes (s.enrolDeeds id e) (s.enrol id e).1 := by
  unfold enrolDeeds startDeeds enrol
  dsimp only
  split
  · next hnone =>
    rw [start_astray hnone]
    exact survived_nil
  · next slot hslot =>
    rw [start_eq hslot]
    exact (survived_of_isAct (Action.isAct_of_mem _ _ _)).concludes (absorbOutcome_concludes ..)

theorem react_concludes (e : Event μ) (slot : Slot ε) (s : Simulation ε μ W) :
    Concludes (s.reactDeeds e slot) ((s.react e slot).2.absorbOutcome e.target (s.react e slot).1).1 := by
  refine Concludes.cons (by rintro r ⟨⟩) ?_
  exact (survived_of_isAct (Action.isAct_of_mem _ _ _)).concludes (absorbOutcome_concludes ..)

section

variable {admits : Call ε μ → Prop} {p q : Phase} {deeds new : List (Deed ε μ)}

/-- a leg ends with an error if that is fatal; after it the run ends, and nothing else is done -/
theorem Leg.concludes (h : Leg admits p s new q t) (hd : ConcludesAt deeds p) : ConcludesAt (deeds ++ new) q := by
  have entered : ∀ {d : Deed ε μ} {r : Except SimError Unit} {rest : List (Deed ε μ)}, (∀ r, d ≠ .ended r) →
      Survived deeds → Concludes rest r → ConcludesAt (deeds ++ d :: rest) (.after r) :=
    fun hne survived rest => concludesAt_after (survived.concludes (rest.cons hne))
  cases h with
  | schedule delay source target message => exact Survived.append hd (survived_of_isAct (s.isAct_scheduling _ _ _ _))
  | cancel handle => exact Survived.append hd (survived_of_isAct (s.isAct_cancelling _))
  | accept => exact entered nofun hd (enrol_concludes ..)
  | enlist => exact entered nofun hd (enrol_concludes ..)
  | settled | notice => exact Survived.append hd survived_nil
  | drop => exact Survived.append hd fun _ hmem => nomatch List.mem_singleton.1 hmem
  | react => exact concludesAt_after (Survived.concludes hd (react_concludes ..))
  | finish =>
    rw [List.append_nil]
    exact hd

theorem Legs.concludes (h : Legs admits .resting s deeds q t) : ConcludesAt deeds q :=
  h.keep (P := fun deeds q _ => ConcludesAt deeds q) survived_nil fun before leg => leg.concludes before

end

/-- **A run fails with its first fatal error,** and does nothing after it. -/
theorem loop_concludes {horizon : Option Time} {fuel : Nat} {r : Except SimError RunOutcome}
    (h : s.loop horizon fuel = some (r, t)) : Concludes (s.loopDeeds horizon fuel) r := by
  obtain ⟨q, u, legs, -, rest⟩ := loop_legs (fun _ => True) horizon fuel s
  obtain ⟨rfl, -⟩ := rest r t h
  exact legs.concludes.concludes

theorem step_concludes {fuel : Nat} {r : Except SimError Bool} (h : s.step fuel = some (r, t)) :
    Concludes (s.stepDeeds fuel) r := by
  cases hl : s.terminated with
  | true =>
    cases (step_over fuel hl).symm.trans h
    have none : s.stepDeeds fuel = [] := if_pos hl
    rw [none]
    exact survived_nil
  | false =>
    obtain ⟨q, u, legs, rest⟩ := step_legs (fun _ => True) fuel hl
    obtain ⟨rfl, -⟩ := rest r t h
    exact legs.concludes.concludes

/-! ## Halting -/

/-- a run that fails goes on until it meets the error, and ends there -/
theorem loop_halts {horizon : Option Time} {fuel : Nat} {err : SimError} (hs : Fair s)
    (h : s.loop horizon fuel = some (.error err, t)) :
    ∃ u, Unbroken s u ∧ u.terminated = false ∧ t = u.finish := by
  obtain ⟨q, u, legs, -, rest⟩ := loop_legs (fun _ => True) horizon fuel s
  cases (rest _ t h).2 with
  | failed _ live => exact ⟨u, (legs.unbroken hs).2 live, live, rfl⟩

theorem step_halts {fuel : Nat} {err : SimError} (hs : Fair s) (h : s.step fuel = some (.error err, t)) :
    ∃ u, Unbroken s u ∧ u.terminated = false ∧ t = u.finish := by
  cases hl : s.terminated with
  | true => cases (step_over fuel hl).symm.trans h
  | false =>
    obtain ⟨q, u, legs, rest⟩ := step_legs (fun _ => True) fuel hl
    cases (rest _ t h).2 with
    | failed _ live => exact ⟨u, (legs.unbroken hs).2 live, live, rfl⟩

/-! ## What actions do not read -/

/-- the simulation with another tally, registry and journal -/
def recast (tally : Tally) (entities : Array (Slot ε)) (journal : List (Entry ε μ)) (s : Simulation ε μ W) :
    Simulation ε μ W :=
  { s with recoverable := tally, entities, journal }

end Simulation

open Simulation in
/-- **No action reads the tally, the registry or the journal,** and all it does to them is to write entries. -/
theorem Action.perform_blind (self : EntityId) (x : Action ε μ W α) (s : Simulation ε μ W) :
    ∃ new, ∀ tally entities journal, x.perform self (s.recast tally entities journal) =
      ((x.perform self s).1, (x.perform self s).2.recast tally entities (new ++ journal)) := by
  induction x generalizing s with
  | done a => exact ⟨[], fun _ _ _ => rfl⟩
  | observe next ih =>
    obtain ⟨new, h⟩ := ih (s.view self) s
    exact ⟨new, h⟩
  | schedule target delay message next ih =>
    obtain ⟨new, h⟩ := ih (s.schedule delay self target message).1 (s.schedule delay self target message).2
    refine ⟨new, fun tally entities journal => ?_⟩
    have hs : (s.recast tally entities journal).schedule delay self target message =
        ((s.schedule delay self target message).1,
          (s.schedule delay self target message).2.recast tally entities journal) := by
      unfold Simulation.schedule Simulation.recast
      dsimp only
      cases s.agenda.schedule delay self target message <;> rfl
    rw [Action.perform, hs]
    exact h tally entities journal
  | cancel handle next ih =>
    obtain ⟨new, h⟩ := ih (s.cancel handle).1 (s.cancel handle).2
    exact ⟨new, h⟩
  | spawn e next ih =>
    obtain ⟨new, h⟩ := ih (s.reserve e).1 (s.reserve e).2
    refine ⟨new ++ [.reserved s.nextId e], fun tally entities journal => ?_⟩
    rw [List.append_assoc]
    exact h tally entities (.reserved s.nextId e :: journal)
  | stop next ih =>
    obtain ⟨new, h⟩ := ih s.requestStop
    exact ⟨new, h⟩
  | write world next ih =>
    obtain ⟨new, h⟩ := ih { s with world }
    exact ⟨new, h⟩
  | remark r next ih =>
    obtain ⟨new, h⟩ := ih (s.note (.remark r))
    refine ⟨new ++ [.remark r], fun tally entities journal => ?_⟩
    rw [List.append_assoc]
    exact h tally entities (.remark r :: journal)

/-- a tally is told by its counts -/
theorem Tally.eq_of_count {t u : Tally} (h : ∀ k, t.count k = u.count k) : t = u := by
  have hindex : ∀ i : Fin 7, ∃ k : ErrorKind, k.index = i := by
    intro i
    refine ⟨ErrorKind.all.get i, ?_⟩
    fin_cases i <;> rfl
  obtain ⟨counts⟩ := t
  obtain ⟨counts'⟩ := u
  congr 1
  refine Vector.ext fun i hi => ?_
  obtain ⟨k, hk⟩ := hindex ⟨i, hi⟩
  simpa [count, hk] using h k

/-- the order of errors does not matter to a tally -/
theorem Tally.add_comm (t : Tally) (j k : ErrorKind) : (t.add j).add k = (t.add k).add j := by
  refine eq_of_count fun i => ?_
  rw [count_add, count_add, count_add, count_add, Nat.add_right_comm]

namespace Simulation

/-! ## Surviving -/

/-- the second simulation has survived an error of entity `id` that the first one never met: it is tallied, the slot of
    the entity may bear a mark, and the journals, which stood at `plain` and `marked`, went on alike -/
structure Survives (id : EntityId) (err : SimError) (mark : Slot ε → Slot ε) (plain marked : List (Entry ε μ))
    (s t : Simulation ε μ W) : Prop where
  rest : t = s.recast (s.recoverable.add err.kind) t.entities t.journal
  size : t.entities.size = s.entities.size
  slots : ∀ k : EntityId, t.entities[k]? = if k = id then (s.entities[k]?).map mark else s.entities[k]?
  journal : ∃ new, s.journal = new ++ plain ∧ t.journal = new ++ marked

/-- an entity that nobody starts any more: it has its place, and does not wait -/
structure Seated (id : EntityId) (s : Simulation ε μ W) : Prop where
  place : id < s.entities.size
  given : id < s.nextId
  served : id ∉ s.waiting.map Prod.fst

variable {id : EntityId} {err : SimError} {mark : Slot ε → Slot ε} {plain marked : List (Entry ε μ)}
  {s t : Simulation ε μ W}

/-- the entities that are given ids later wait under others -/
theorem Seated.extend (spawned : List ε) (h : Seated id s) (hn : s.entities.size ≤ t.entities.size)
    (hi : t.nextId = s.nextId + spawned.length) (hw : t.waiting = s.waiting ++ numbered s.nextId spawned) :
    Seated id t where
  place := h.place.trans_le hn
  given := hi ▸ Nat.lt_add_right _ h.given
  served := by
    rw [hw, List.map_append, numbered_fst, List.mem_append, List.mem_range'_1]
    exact fun hmem => hmem.elim h.served fun hlater => absurd h.given (Nat.not_lt.2 hlater.1)

namespace Survives

/-- an outcome that both meet -/
theorem absorbOutcome (h : Survives id err mark plain marked s t) (k : EntityId) (r : Except SimError Unit) :
    (t.absorbOutcome k r).1 = (s.absorbOutcome k r).1 ∧
      Survives id err mark plain marked (s.absorbOutcome k r).2 (t.absorbOutcome k r).2 := by
  obtain ⟨rest, size, slots, new, hs, ht⟩ := h
  generalize t.entities = entities at *
  generalize t.journal = journal at *
  subst rest ht
  cases r with
  | ok => exact ⟨rfl, rfl, size, slots, new, hs, rfl⟩
  | error e =>
    unfold Simulation.absorbOutcome absorb
    dsimp only
    split_ifs
    · refine ⟨rfl, ?_, size, slots, .recovered s.now k e :: new, congrArg _ hs, rfl⟩
      change _ = Simulation.recast ((s.recoverable.add e.kind).add err.kind) _ _ _
      rw [Tally.add_comm]
      rfl
    · exact ⟨rfl, rfl, size, slots, .halted s.now k e :: new, congrArg _ hs, rfl⟩

/-- an entry that is written to both journals -/
theorem note (h : Survives id err mark plain marked s t) (entry : Entry ε μ) :
    Survives id err mark plain marked (s.note entry) (t.note entry) := by
  obtain ⟨new, hs, ht⟩ := h.journal
  exact ⟨congrArg (fun u : Simulation ε μ W => u.note entry) h.rest, h.size, h.slots, entry :: new, congrArg _ hs,
    congrArg _ ht⟩

/-- an action that is performed on both -/
theorem perform (h : Survives id err mark plain marked s t) (self : EntityId) (x : Action ε μ W α) :
    (x.perform self t).1 = (x.perform self s).1 ∧
      Survives id err mark plain marked (x.perform self s).2 (x.perform self t).2 := by
  obtain ⟨rest, size, slots, new, hs, ht⟩ := h
  generalize t.entities = entities at *
  generalize t.journal = journal at *
  subst rest ht
  obtain ⟨written, hblind⟩ := x.perform_blind self s
  -- what the action has left alone is what it was before
  have hx := congrArg Prod.snd (hblind s.recoverable s.entities s.journal)
  rw [hblind]
  change (x.perform self s).2 = _ at hx
  generalize (x.perform self s).2 = u at hx ⊢
  have hentities : u.entities = s.entities := by rw [hx]; rfl
  refine ⟨rfl, ?_, ?_, ?_, written ++ new, ?_, (List.append_assoc ..).symm⟩
  · rw [hx]
    rfl
  · rw [hentities]
    exact size
  · rw [hentities]
    exact slots
  · rw [hx, hs, List.append_assoc]
    rfl

/-- another entity is changed in both -/
theorem setSlot (h : Survives id err mark plain marked s t) {k : EntityId} (hk : k ≠ id) (slot : Slot ε) :
    Survives id err mark plain marked { s with entities := s.entities.setIfInBounds k slot }
      { t with entities := t.entities.setIfInBounds k slot } := by
  refine ⟨?_, ?_, ?_, h.journal⟩
  · exact congrArg (fun u : Simulation ε μ W => { u with entities := t.entities.setIfInBounds k slot }) h.rest
  · exact (Array.size_setIfInBounds ..).trans (h.size.trans (Array.size_setIfInBounds ..).symm)
  · intro j
    dsimp only
    rw [Array.getElem?_setIfInBounds, Array.getElem?_setIfInBounds, h.size, h.slots]
    by_cases hj : k = j
    · subst hj
      simp only [if_neg hk, ↓reduceIte]
    · rw [if_neg hj, if_neg hj]

variable [Entity ε μ W]

theorem insert (h : Survives id err mark plain marked s t) (hid : id < s.entities.size) (k : EntityId) (e : ε) :
    Survives id err mark plain marked (s.insert k e) (t.insert k e) := by
  obtain ⟨rest, size, slots, new, hs, ht⟩ := h
  generalize t.entities = entities at *
  generalize t.journal = journal at *
  subst rest ht
  refine ⟨rfl, ?_, ?_, .registered k (Named.name e) :: new, congrArg _ hs, rfl⟩
  · change (entities.push _).size = (s.entities.push _).size
    rw [Array.size_push, Array.size_push, size]
  · intro j
    change (entities.push _)[j]? = if j = id then ((s.entities.push _)[j]?).map mark else (s.entities.push _)[j]?
    rw [Array.getElem?_push, Array.getElem?_push, size, slots]
    -- the new place is not that of the entity that bears the mark
    by_cases hj : j = s.entities.size
    · rw [if_pos hj, if_pos hj, if_neg fun heq => hid.ne (heq.symm.trans hj)]
    · rw [if_neg hj, if_neg hj]

/-- another entity starts -/
theorem start (h : Survives id err mark plain marked s t) {k : EntityId} (hk : k ≠ id) :
    (t.start k).1 = (s.start k).1 ∧ Survives id err mark plain marked (s.start k).2 (t.start k).2 := by
  have hslot : t.entities[k]? = s.entities[k]? := by rw [h.slots, if_neg hk]
  cases hsome : s.entities[k]? with
  | none =>
    rw [start_astray hsome, start_astray (hslot.trans hsome)]
    exact ⟨rfl, h.note (.misplaced k)⟩
  | some slot =>
    obtain ⟨hresult, performed⟩ :=
      (h.note (.started k)).perform k ((Entity.start : Reaction ε ε μ W Unit).run.run slot.entity)
    rw [start_eq hsome, start_eq (hslot.trans hsome)]
    dsimp only
    rw [hresult]
    exact ⟨rfl, (performed.note _).setSlot hk _⟩

/-- another entity is enrolled -/
theorem enrol (h : Survives id err mark plain marked s t) (hid : id < s.entities.size) {k : EntityId} (hk : k ≠ id)
    (e : ε) :
    (t.enrol k e).1 = (s.enrol k e).1 ∧ Survives id err mark plain marked (s.enrol k e).2 (t.enrol k e).2 := by
  obtain ⟨hr, hstarted⟩ := (h.insert hid k e).start hk
  have habsorbed := hstarted.absorbOutcome k ((s.insert k e).start k).1
  unfold Simulation.enrol
  dsimp only
  rw [hr]
  exact habsorbed

end Survives

variable [Entity ε μ W]

/-- whoever is enrolled, those who spawn put others at the end of the line -/
theorem enrol_line (k : EntityId) (e : ε) (s : Simulation ε μ W) :
    s.entities.size ≤ (s.enrol k e).2.entities.size ∧ ∃ spawned : List ε,
      (s.enrol k e).2.nextId = s.nextId + spawned.length ∧
        (s.enrol k e).2.waiting = s.waiting ++ numbered s.nextId spawned := by
  have hsize : s.entities.size ≤ (s.insert k e).entities.size := (Array.size_push _).symm ▸ Nat.le_succ _
  have habsorbed := absorbOutcome_effect k ((s.insert k e).start k).1 ((s.insert k e).start k).2
  cases hslot : (s.insert k e).entities[k]? with
  | none =>
    unfold enrol
    dsimp only
    rw [start_astray hslot]
    exact ⟨hsize, [], rfl, (List.append_nil _).symm⟩
  | some slot =>
    obtain ⟨error?, entity, spawned, -, hc, he, hw⟩ := start_change hslot
    refine ⟨?_, spawned, ?_, ?_⟩
    · refine hsize.trans_eq ?_
      have hset := (congrArg Array.size he).trans Array.size_setIfInBounds
      exact (hset.symm.trans (congrArg Array.size habsorbed.entities).symm)
    · exact habsorbed.nextId.trans hc.nextId
    · exact habsorbed.waiting.trans ((List.append_nil _).trans hw)

/-- the first in line is enrolled, and then the others, unless that fails -/
theorem settle_enlist (fuel : Nat) {k : EntityId} {e : ε} {rest : List (EntityId × ε)}
    (hw : s.waiting = (k, e) :: rest) :
    s.settle (fuel + 1) =
      match ({ s with waiting := rest, spawned := s.spawned + 1 }).enrol k e with
      | (.ok (), t) => t.settle fuel
      | (.error err, t) => some (.error err, t) := by
  rewrite [settle, hw]
  rfl

/-- the first in line is another entity, and it is enrolled alike -/
theorem Survives.enlist (h : Survives id err mark plain marked s t) (hid : Seated id s) {k : EntityId} {e : ε}
    {rest : List (EntityId × ε)} {r : Except SimError Unit} (hw : s.waiting = (k, e) :: rest)
    (hu : ({ s with waiting := rest, spawned := s.spawned + 1 }).enrol k e = (r, u)) :
    ∃ v, ({ t with waiting := rest, spawned := t.spawned + 1 }).enrol k e = (r, v) ∧
      Survives id err mark plain marked u v ∧ Seated id u := by
  have hserved := hid.served
  rw [hw, List.map_cons, List.mem_cons, not_or] at hserved
  let b : Simulation ε μ W := { s with waiting := rest, spawned := s.spawned + 1 }
  have hb : Survives id err mark plain marked b { t with waiting := rest, spawned := t.spawned + 1 } :=
    ⟨congrArg (fun v : Simulation ε μ W => { v with waiting := rest, spawned := v.spawned + 1 }) h.rest, h.size,
      h.slots, h.journal⟩
  have hseated : Seated id b := ⟨hid.place, hid.given, hserved.2⟩
  obtain ⟨hsize, spawned, hnext, hline⟩ := enrol_line k e b
  obtain ⟨hr, hsame⟩ := hb.enrol hid.place (Ne.symm hserved.1) e
  have hseated := hseated.extend _ hsize hnext hline
  rw [hu] at hr hsame hseated
  generalize ({ t with waiting := rest, spawned := t.spawned + 1 }).enrol k e = y at hr hsame ⊢
  obtain ⟨q, v⟩ := y
  cases hr
  exact ⟨v, rfl, hsame, hseated⟩

/-- **An error that was survived does not matter to those that wait.** They are enrolled as if nothing had happened. -/
theorem settle_survives {fuel : Nat} (h : Survives id err mark plain marked s t) (hid : Seated id s) :
    Option.Rel (fun x y => y.1 = x.1 ∧ Survives id err mark plain marked x.2 y.2) (s.settle fuel) (t.settle fuel) := by
  fun_induction settle fuel s generalizing t with
  | case1 fuel s hw =>
    have hw' : t.waiting = [] := by rw [h.rest]; exact hw
    rw [settle_idle fuel hw']
    exact .some ⟨rfl, h⟩
  | case2 s k e rest hw =>
    have hw' : t.waiting = (k, e) :: rest := by rw [h.rest]; exact hw
    unfold settle
    rw [hw']
    exact .none
  | case3 s k e rest hw fuel u hu ih =>
    have hw' : t.waiting = (k, e) :: rest := by rw [h.rest]; exact hw
    obtain ⟨v, hv, hsame, hseated⟩ := h.enlist hid hw hu
    rw [settle_enlist fuel hw', hv]
    exact ih hsame hseated
  | case4 s k e rest hw fuel err' u hu =>
    have hw' : t.waiting = (k, e) :: rest := by rw [h.rest]; exact hw
    obtain ⟨v, hv, hsame, -⟩ := h.enlist hid hw hu
    rw [settle_enlist fuel hw', hv]
    exact .some ⟨rfl, hsame⟩

/-! ## As if nothing had happened -/

/-- what follows the start or the reaction of entity `id`, if it ends so -/
def resume (fuel : Nat) (id : EntityId) (r : Except SimError Unit) (s : Simulation ε μ W) :
    Option (Result ε μ W Unit) :=
  match s.absorbOutcome id r with
  | (.ok (), t) => t.settle fuel
  | (.error err, t) => some (.error err, t)

/-- the simulation after a start that does what it does, and then ends so -/
def startAs (r : Except SimError Unit) (id : EntityId) (s : Simulation ε μ W) : Simulation ε μ W :=
  match s.entities[id]? with
  | none => s.note (.misplaced id)
  | some slot =>
    let ((_, entity), t) := (Entity.start.run.run slot.entity).perform id (s.note (.started id))
    { t.note (.answered id (failure? r)) with
      entities := t.entities.setIfInBounds id { slot with state := stateAfter (failure? r), entity } }

theorem start_snd (id : EntityId) (s : Simulation ε μ W) : (s.start id).2 = s.startAs (s.start id).1 id := by
  unfold startAs
  cases hslot : s.entities[id]? with
  | none => rw [start_astray hslot]
  | some slot => rw [start_eq hslot]

theorem dispatch_eq_resume (fuel : Nat) {e : Event μ} {slot : Slot ε} (hslot : s.entities[e.target]? = some slot)
    (hrun : slot.state = .running) :
    s.dispatch fuel e = (s.react e slot).2.resume fuel e.target (s.react e slot).1 := by
  unfold dispatch resume
  rewrite [hslot, Option.filter_some_pos (by simpa using hrun)]
  rfl

/-- the simulation in which the first in line has its place -/
def seating (id : EntityId) (e : ε) (rest : List (EntityId × ε)) (s : Simulation ε μ W) : Simulation ε μ W :=
  { s with waiting := rest, spawned := s.spawned + 1 }.insert id e

theorem settle_eq_resume (fuel : Nat) {id : EntityId} {e : ε} {rest : List (EntityId × ε)}
    (hw : s.waiting = (id, e) :: rest) :
    s.settle (fuel + 1) =
      ((s.seating id e rest).start id).2.resume fuel id ((s.seating id e rest).start id).1 := by
  rw [settle_enlist fuel hw]
  rfl

/-- **A reaction that fails and is survived** takes effect as if it had not failed. -/
theorem react_survives {fuel : Nat} {e : Event μ} {slot : Slot ε} (hs : Fair s) (hl : s.terminated = false)
    (hslot : s.entities[e.target]? = some slot) (hrun : slot.state = .running) (herr : err.isRecoverable = true) :
    let u := (s.react e slot).2
    Option.Rel (fun x y => y.1 = x.1 ∧
        Survives e.target err (fun slot => slot) u.journal (.recovered s.now e.target err :: u.journal) x.2 y.2)
      (u.resume fuel e.target (.ok ())) (u.resume fuel e.target (.error err)) := by
  intro u
  obtain ⟨reacted, hf⟩ := react_unbroken hs hl hslot
  obtain ⟨slot', hslot', -, hrun'⟩ := reacted.slots e.target slot hslot
  obtain ⟨hgiven, hserved⟩ := hf.running e.target (runs_iff.2 ⟨slot', hslot', hrun' hrun⟩)
  have hseated : Seated e.target u := ⟨(Array.getElem?_eq_some_iff.1 hslot').1, hgiven, hserved⟩
  have hnow : u.now = s.now := by
    obtain ⟨entity, spawned, -, hc, -⟩ := react_change e slot s
    exact hc.now
  have habsorbed : u.absorbOutcome e.target (.error err) =
      (.ok (), { u.note (.recovered u.now e.target err) with recoverable := u.recoverable.add err.kind }) := if_pos herr
  unfold resume
  rw [habsorbed, ← hnow]
  refine settle_survives ⟨rfl, rfl, ?_, [], rfl, rfl⟩ hseated
  intro k
  split_ifs
  · exact Option.map_id'.symm
  · rfl

/-- **A spawned entity whose start fails and is survived** is left shut down, and all else is as if it had not failed. -/
theorem start_survives {fuel : Nat} {e : ε} {rest : List (EntityId × ε)} (hs : Fair s)
    (hw : s.waiting = (id, e) :: rest) {slot : Slot ε} (hslot : (s.seating id e rest).entities[id]? = some slot)
    (herr : err.isRecoverable = true) :
    ∃ old, Option.Rel (fun x y => y.1 = x.1 ∧ Survives id err (fun slot => { slot with state := .shutdown })
        (.answered id none :: old) (.recovered s.now id err :: .answered id (some err) :: old) x.2 y.2)
      (((s.seating id e rest).startAs (.ok ()) id).resume fuel id (.ok ()))
      (((s.seating id e rest).startAs (.error err) id).resume fuel id (.error err)) := by
  let b := s.seating id e rest
  let x := (Entity.start.run.run slot.entity : Action ε μ W (Except SimError Unit × ε)).perform id (b.note (.started id))
  have hstart : ∀ r, b.startAs r id = { x.2.note (.answered id (failure? r)) with
      entities := x.2.entities.setIfInBounds id { slot with state := stateAfter (failure? r), entity := x.1.2 } } := by
    intro r
    unfold startAs
    rw [hslot]
  obtain ⟨spawned, heffect⟩ := (Entity.start.run.run slot.entity).perform_effect id (b.note (.started id))
  have hplace : id < x.2.entities.size := heffect.entities ▸ (Array.getElem?_eq_some_iff.1 hslot).1
  have hdistinct := hs.distinct
  rw [hw, List.map_cons, List.nodup_cons] at hdistinct
  have hfirst : Seated id b :=
    ⟨(Array.getElem?_eq_some_iff.1 hslot).1, hs.given (id, e) (hw ▸ List.mem_cons_self), hdistinct.1⟩
  have hseated : Seated id (b.startAs (.ok ()) id) := by
    refine hfirst.extend spawned ?_ (t := b.startAs (.ok ()) id) ?_ ?_
    · rw [hstart]
      exact (congrArg Array.size heffect.entities).symm.le.trans_eq Array.size_setIfInBounds.symm
    · rw [hstart]
      exact heffect.nextId
    · rw [hstart]
      exact heffect.waiting
  have hnow : x.2.now = s.now := heffect.now
  have habsorbed : (b.startAs (.error err) id).absorbOutcome id (.error err) =
      (.ok (), { (b.startAs (.error err) id).note (.recovered (b.startAs (.error err) id).now id err) with
        recoverable := (b.startAs (.error err) id).recoverable.add err.kind }) := if_pos herr
  refine ⟨x.2.journal, ?_⟩
  unfold resume
  change Option.Rel _ ((b.startAs (.ok ()) id).settle fuel) (match (b.startAs (.error err) id).absorbOutcome id _ with
    | (.ok (), t) => t.settle fuel
    | (.error err, t) => some (.error err, t))
  rw [habsorbed]
  refine settle_survives ?_ hseated
  rw [hstart, hstart, ← hnow]
  refine ⟨rfl, ?_, ?_, [], rfl, rfl⟩
  · exact Array.size_setIfInBounds.trans Array.size_setIfInBounds.symm
  · intro k
    change (x.2.entities.setIfInBounds id _)[k]? = if k = id then ((x.2.entities.setIfInBounds id _)[k]?).map _
      else (x.2.entities.setIfInBounds id _)[k]?
    by_cases hk : k = id
    · subst hk
      rw [if_pos rfl, Array.getElem?_setIfInBounds_self_of_lt hplace, Array.getElem?_setIfInBounds_self_of_lt hplace]
      rfl
    · rw [if_neg hk, Array.getElem?_setIfInBounds_ne (Ne.symm hk), Array.getElem?_setIfInBounds_ne (Ne.symm hk)]

/-! ## Any calls -/

/-- the error that a run or a step is answered with -/
def Answer.error? : Answer → Option SimError
  | .ran (.error err) => some err
  | .stepped (.error err) => some err
  | _ => none

/-- a call that did `new` was halted by an error, after calls that did `deeds` and left `s` -/
structure Halted (deeds new : List (Deed ε μ)) (err : SimError) (s t : Simulation ε μ W) : Prop where
  fatal : err.isRecoverable = false
  /-- no entity failed so before, and none was called after -/
  first : ∃ before, new = before ++ [.ended (.error err)] ∧ Survived before
  terminated : t.terminated = true
  /-- until then the run went on; then those that ran were shut down, and nobody was registered any more -/
  closed : ∃ u, Unbroken s u ∧ t.visits = u.visits ++ u.running.map (.shutdown · t.now) ∧
    t.entities.size = u.entities.size
  nobody : t.waiting = [] ∧ ∀ id, t.runs id = false
  pending : ∀ e, t.agenda.Holds e ↔ .scheduled e ∈ deeds ++ new ∧ e.handle ∉ (deeds ++ new).filterMap Deed.gone?
  readable : ∀ (id : EntityId) (slot : Slot ε), s.entities[id]? = some slot →
    ∃ slot', t.entities[id]? = some slot' ∧ slot'.name = slot.name

theorem Recorded.halted {deeds : List (Deed ε μ)} (h : Recorded deeds s) {fuel : Nat} {c : Call ε μ} {a : Answer}
    (hc : s.call fuel c = some (a, t)) (herr : a.error? = some err) : Halted deeds (s.callDeeds fuel c) err s t := by
  -- a failed call went on to some point, and was ended there
  have hend : Concludes (β := Unit) (s.callDeeds fuel c) (.error err) ∧
      ∃ u, Unbroken s u ∧ u.terminated = false ∧ t = u.finish := by
    cases answered hc with
    | register | schedule | cancel | stop => cases herr
    | @run r u hu =>
      cases r with
      | ok => cases herr
      | error e =>
        cases herr
        obtain ⟨v, moved, hl, rfl⟩ := loop_halts h.fair hu
        exact ⟨loop_concludes hu, v, moved, hl, finish_of_terminated (terminated_finish v)⟩
    | @runUntil time r t hu =>
      cases r with
      | ok => cases herr
      | error e => cases herr; exact ⟨loop_concludes hu, loop_halts h.fair hu⟩
    | @step r t hu =>
      cases r with
      | ok => cases herr
      | error e => cases herr; exact ⟨step_concludes hu, step_halts h.fair hu⟩
  obtain ⟨⟨hfatal, hfirst⟩, u, moved, hl, rfl⟩ := hend
  have hclosed := finish_closed hl
  have ht := terminated_finish u
  refine ⟨hfatal, hfirst, ht, ⟨u, moved, ?_, size_finish u⟩, (h.call hc).fair.ended ht, fun e => (h.call hc).holds_iff, ?_⟩
  · rw [hclosed.change.visits, hclosed.change.now]
    rfl
  · intro id slot hslot
    obtain ⟨slot', hslot', hname, -⟩ := moved.slots id slot hslot
    have hlt : id < u.finish.entities.size := (size_finish u).symm ▸ (Array.getElem?_eq_some_iff.1 hslot').1
    have hget : u.finish.entities[id]? = some u.finish.entities[id] := Array.getElem?_eq_getElem hlt
    obtain ⟨old, hold, hsame, -⟩ := hclosed.slot le_rfl hget
    cases hold.symm.trans hslot'
    exact ⟨_, hget, hsame.trans hname⟩

/-- a run or a step that does not fail has survived every error that it met -/
theorem call_survives {fuel : Nat} {c : Call ε μ} {a : Answer} (hc : s.call fuel c = some (a, t))
    (hruns : c.Runs ∨ c = .step) (herr : a.error? = none) : Survived (s.callDeeds fuel c) := by
  cases answered hc with
  | register | schedule | cancel | stop =>
    rcases hruns with hfalse | heq
    · exact hfalse.elim
    · cases heq
  | @run r u hu =>
    cases r with
    | ok outcome => exact loop_concludes hu
    | error e => cases herr
  | @runUntil time r t hu =>
    cases r with
    | ok outcome => exact loop_concludes hu
    | error e => cases herr
  | @step r t hu =>
    cases r with
    | ok done => exact step_concludes hu
    | error e => cases herr

/-- **Errors halt a run, or pass.** A run or a step that is answered with an error was halted by it, and one that is
    answered otherwise has survived every error among its deeds. A reaction, or the start of an entity that waited,
    which fails with an error that the run survives, takes effect as if it had not failed, wherever calls may lead. -/
theorem errors_halt_or_pass :
    (∀ (deeds : List (Deed ε μ)) (s : Simulation ε μ W), Recorded deeds s →
      ∀ fuel c a t, s.call fuel c = some (a, t) → c.Runs ∨ c = .step →
        match a.error? with
        | some err => Halted deeds (s.callDeeds fuel c) err s t
        | none => Survived (s.callDeeds fuel c)) ∧
    ∀ s : Simulation ε μ W, Amid s → s.terminated = false → ∀ fuel err, err.isRecoverable = true →
      (∀ (e : Event μ) (slot : Slot ε), s.entities[e.target]? = some slot → slot.state = .running →
        (s.react e slot).1 = .error err →
        let u := (s.react e slot).2
        Option.Rel (fun x y => y.1 = x.1 ∧
            Survives e.target err (fun slot => slot) u.journal (.recovered s.now e.target err :: u.journal) x.2 y.2)
          (u.resume fuel e.target (.ok ())) (s.dispatch fuel e)) ∧
      ∀ (id : EntityId) (e : ε) (rest : List (EntityId × ε)), s.waiting = (id, e) :: rest →
        ((s.seating id e rest).start id).1 = .error err →
        ∃ old, Option.Rel (fun x y => y.1 = x.1 ∧ Survives id err (fun slot => { slot with state := .shutdown })
            (.answered id none :: old) (.recovered s.now id err :: .answered id (some err) :: old) x.2 y.2)
          (((s.seating id e rest).startAs (.ok ()) id).resume fuel id (.ok ())) (s.settle (fuel + 1)) := by
  refine ⟨?_, ?_⟩
  · intro deeds s h fuel c a t hc hruns
    split
    · next err herr => exact h.halted hc herr
    · next herr => exact call_survives hc hruns herr
  · intro s h hl fuel err herr
    refine ⟨?_, ?_⟩
    · intro e slot hslot hrun hfailed
      rw [dispatch_eq_resume fuel hslot hrun, hfailed]
      exact react_survives h.fair hl hslot hrun herr
    · intro id e rest hw hfailed
      cases hslot : (s.seating id e rest).entities[id]? with
      | none =>
        -- a start that goes astray does not fail
        rw [start_astray hslot] at hfailed
        cases hfailed
      | some slot =>
        rw [settle_eq_resume fuel hw, start_snd, hfailed]
        exact start_survives h.fair hw hslot herr

section Calamity

open Standin

/-- a player whose first reaction spawns an entity that cannot start, and fails; the second one ends the run -/
def hero : Player :=
  { name := "hero"
    opening := [.scheduleSelf 1 "try" [.scheduleSelf 5 "later" [] false, .spawn "extra" [.fail (.execution "no stage")],
        .fail (.entityCreation .missingWorkload)] false,
      .scheduleSelf 2 "end" [.scheduleSelf 3 "never" [] false, .spawn "ghost" [], .fail (.reaction 0 "collapse")] false] }

def calamity : Simulation Player Cue Stage := theatre.after 1 (.register hero)

/-- the first event has left the agenda -/
def trying : Simulation Player Cue Stage :=
  { calamity with agenda := (calamity.agenda.next?.get (by decide +kernel)).2 }

/-- the hero's first event -/
def trial : Event Cue := (calamity.agenda.next?.get (by decide +kernel)).1

/-- the hero's place -/
def heroSlot : Slot Player := trying.entities[0]?.get (by decide +kernel)

/-- the hero has tried, and failed -/
def tried : Simulation Player Cue Stage :=
  ((trying.react trial heroSlot).2.absorbOutcome trial.target (trying.react trial heroSlot).1).2

/-- the entity that the hero has spawned, with its id -/
def extra : EntityId × Player := tried.waiting.head (by decide +kernel)

/-- the run is halted by the collapse, while the failures of the trial and of the extra have passed -/
theorem errors_halt_or_pass_of_calamity :
    (∃ deeds, Halted deeds (calamity.callDeeds 5 .run) (.reaction 0 "collapse") calamity (calamity.after 5 .run)) ∧
    (calamity.after 5 .run).agenda.size = 2 ∧
    (calamity.after 5 .run).stats.recoverable.met = [(.entityCreation, 1), (.execution, 1)] ∧
    (∃ plain marked, Option.Rel (fun x y => y.1 = x.1 ∧ Survives trial.target (.entityCreation .missingWorkload)
        (fun slot => slot) plain marked x.2 y.2)
      ((trying.react trial heroSlot).2.resume 1 trial.target (.ok ())) (trying.dispatch 1 trial)) ∧
    ∃ plain marked, Option.Rel (fun x y => y.1 = x.1 ∧ Survives extra.1 (.execution "no stage")
        (fun slot => { slot with state := .shutdown }) plain marked x.2 y.2)
      (((tried.seating extra.1 extra.2 tried.waiting.tail).startAs (.ok ()) extra.1).resume 0 extra.1 (.ok ()))
      (tried.settle 1) := by
  obtain ⟨a, ha⟩ := call_after 1 theatre (.register hero) (by decide +kernel)
  have registered : Recorded _ calamity := Recorded.call (.fresh _ _) ha
  obtain ⟨b, hb, herr⟩ := call_answered Answer.error? 5 calamity .run (.reaction 0 "collapse") (by decide +kernel)
  have halted := errors_halt_or_pass.1 _ _ registered 5 .run b _ hb (.inl trivial)
  rw [herr] at halted
  have hnext : calamity.agenda.next? = some (trial, trying.agenda) := (Option.some_get _).symm
  have left : Amid trying := .left (.between registered) (by decide +kernel) hnext
  have hslot : trying.entities[trial.target]? = some heroSlot := by
    rw [show trial.target = 0 by decide +kernel]
    exact (Option.some_get _).symm
  have hrun : heroSlot.state = .running := by decide +kernel
  have reacted : Amid tried := .reacted left (by decide +kernel) hslot hrun
  have hwaiting : tried.waiting = (extra.1, extra.2) :: tried.waiting.tail := (List.cons_head_tail _).symm
  have first := (errors_halt_or_pass.2 trying left (by decide +kernel) 1 (.entityCreation .missingWorkload) rfl).1 trial
    heroSlot hslot hrun (by decide +kernel)
  obtain ⟨old, second⟩ := (errors_halt_or_pass.2 tried reacted (by decide +kernel) 0 (.execution "no stage") rfl).2
    extra.1 extra.2 tried.waiting.tail hwaiting (by decide +kernel)
  exact ⟨⟨_, halted⟩, by decide +kernel, by decide +kernel, ⟨_, _, first⟩, _, _, second⟩

end Calamity

end Simulation

end BrokerSim
