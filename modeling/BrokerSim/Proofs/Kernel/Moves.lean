/-
How a simulation moves. Whatever is asked of it, a simulation moves in five ways (`Move`): an entity or the caller acts,
an event leaves the agenda, the first of those that wait is enrolled, an event is delivered, the run ends. An invariant
has to be proved for the five only.
- `Tidy`, `Idle`: those that wait have the ids that follow the registry; nobody waits.
- `Leg.moves`: every leg of a call is a row of moves, if nobody waits where the call rests (`Poised`).
- `call_moves`: a call is a row of moves, and ends the run exactly if `Ends` says so.
- `idle_call`: after it nobody waits, unless it was the registration of an entity and failed.
- `call_of_terminated`: after the end no call changes anything that counts.
-/
import Mathlib.Tactic
import BrokerSim.Proofs.Kernel.Legs
import BrokerSim.Standin.Script

namespace BrokerSim

variable {ε μ W : Type}

namespace Simulation

/-! ## Those that wait -/

/-- as long as the run has not ended, those that wait have the ids that follow the registry, up to the next id -/
def Tidy (s : Simulation ε μ W) : Prop :=
  s.terminated = false →
    s.waiting.map Prod.fst = List.range' s.entities.size s.waiting.length ∧
      s.nextId = s.entities.size + s.waiting.length

/-- nobody waits, as long as the run has not ended -/
def Idle (s : Simulation ε μ W) : Prop := s.terminated = false → s.waiting = []

variable {s t : Simulation ε μ W}

theorem tidy_fresh (limits : Limits) (world : W) : Tidy (fresh limits world : Simulation ε μ W) := fun _ => ⟨rfl, rfl⟩

theorem tidy_reserved (hs : Tidy s) (hw : s.waiting = []) (hl : s.terminated = false) : s.nextId = s.entities.size := by
  have h := (hs hl).2
  rw [hw] at h
  exact h

/-- the first in line takes the next place of the registry -/
theorem tidy_first {id : EntityId} {e : ε} {rest : List (EntityId × ε)} (hs : Tidy s) (hl : s.terminated = false)
    (hw : s.waiting = (id, e) :: rest) : id = s.entities.size := by
  have h := (hs hl).1
  rw [hw, List.map_cons, List.length_cons, List.range'_succ, List.cons.injEq] at h
  exact h.1

theorem Effect.idle (h : Effect [] s t) (hi : Idle s) : Idle t := fun ht =>
  (h.waiting.trans (List.append_nil _)).trans (hi (h.terminated.symm.trans ht))

theorem Effect.live {spawned : List ε} (h : Effect spawned s t) (hl : s.terminated = false) :
    ¬ t.terminated = true := by
  rw [h.terminated, hl]
  exact Bool.false_ne_true

variable [Entity ε μ W]

/-! ## Moves -/

/-- one move of a simulation -/
inductive Move : Simulation ε μ W → Simulation ε μ W → Prop
  | act {s t : Simulation ε μ W} {spawned : List ε} (h : Effect spawned s t)
      (live : s.terminated = true → spawned = []) : Move s t
  | leave {s : Simulation ε μ W} (agenda : Agenda μ) (live : s.terminated = false) : Move s { s with agenda }
  | enrol {s t : Simulation ε μ W} {e entity : ε} {rest : List (EntityId × ε)} {error? : Option SimError}
      {spawned : List ε} (live : s.terminated = false) (line : s.waiting = (s.entities.size, e) :: rest)
      (turn : Turn μ W s.entities.size e entity)
      (change : Change [.start s.entities.size, .answered s.entities.size error?] spawned s t)
      (entities : t.entities = s.entities.push ⟨Named.name e, stateAfter error?, entity⟩)
      (waiting : t.waiting = rest ++ numbered s.nextId spawned) : Move s t
  | deliver {s t : Simulation ε μ W} {e : Event μ} {slot : Slot ε} {entity : ε} {spawned : List ε}
      (live : s.terminated = false) (target : s.entities[e.target]? = some slot) (running : slot.state = .running)
      (turn : Turn μ W e.target slot.entity entity) (change : Change [.react e] spawned s t)
      (entities : t.entities = s.entities.setIfInBounds e.target { slot with entity })
      (waiting : t.waiting = s.waiting ++ numbered s.nextId spawned) : Move s t
  | finish {s : Simulation ε μ W} (live : s.terminated = false) : Move s s.finish

/-- any number of moves -/
abbrev Moves : Simulation ε μ W → Simulation ε μ W → Prop := Relation.ReflTransGen Move

theorem Effect.move {s t : Simulation ε μ W} (h : Effect [] s t) : Moves s t := .single (.act h fun _ => rfl)

theorem Move.tidy (h : Move s t) (hs : Tidy s) : Tidy t := by
  intro ht
  cases h with
  | act h _ =>
    obtain ⟨hw, hi⟩ := hs (h.terminated.symm.trans ht)
    rw [h.waiting, h.entities, h.nextId, List.map_append, hw, numbered_fst, hi, List.length_append, numbered_length,
      List.range'_append_1]
    exact ⟨rfl, Nat.add_assoc ..⟩
  | leave agenda live => exact hs live
  | enrol live line turn change entities waiting =>
    obtain ⟨hw, hi⟩ := hs live
    rw [line, List.map_cons, List.length_cons, List.range'_succ, List.cons.injEq] at hw
    rw [line, List.length_cons, Nat.add_comm _ 1, ← Nat.add_assoc] at hi
    rw [waiting, entities, change.nextId, Array.size_push, List.map_append, hw.2, numbered_fst, hi, List.length_append,
      numbered_length, List.range'_append_1]
    exact ⟨rfl, Nat.add_assoc ..⟩
  | deliver live target running turn change entities waiting =>
    obtain ⟨hw, hi⟩ := hs live
    rw [waiting, entities, change.nextId, Array.size_setIfInBounds, List.map_append, hw, numbered_fst, hi,
      List.length_append, numbered_length, List.range'_append_1]
    exact ⟨rfl, Nat.add_assoc ..⟩
  | finish live => cases (finish_closed live).change.terminated.symm.trans ht

theorem Moves.tidy (h : Moves s t) (hs : Tidy s) : Tidy t := by
  induction h with
  | refl => exact hs
  | tail _ h ih => exact h.tidy ih

/-- ids are given out one after the other, and none is taken back -/
theorem Move.handouts (h : Move s t) : s.handouts <+: t.handouts ∧ s.nextId ≤ t.nextId := by
  have hc : ∀ {v : List (Visit μ)} {spawned : List ε} {s t : Simulation ε μ W}, Change v spawned s t →
      s.handouts <+: t.handouts ∧ s.nextId ≤ t.nextId := fun h =>
    ⟨⟨_, h.handouts.symm⟩, h.nextId ▸ Nat.le_add_right _ _⟩
  cases h with
  | act h _ => exact hc h.toChange
  | leave => exact ⟨List.prefix_rfl, le_rfl⟩
  | enrol _ _ _ change => exact hc change
  | deliver _ _ _ _ change => exact hc change
  | finish live => exact @hc _ _ { s with terminated := true, waiting := [] } _ (finish_closed live).change

theorem Moves.handouts (h : Moves s t) : s.handouts <+: t.handouts ∧ s.nextId ≤ t.nextId := by
  induction h with
  | refl => exact ⟨List.prefix_rfl, le_rfl⟩
  | tail _ h ih => exact ⟨ih.1.trans h.handouts.1, ih.2.trans h.handouts.2⟩

/-- no visit is taken back -/
theorem Move.visits (h : Move s t) : s.visits <+: t.visits := by
  have hc : ∀ {v : List (Visit μ)} {spawned : List ε} {s t : Simulation ε μ W}, Change v spawned s t →
      s.visits <+: t.visits := fun h => ⟨_, h.visits.symm⟩
  cases h with
  | act h _ => exact hc h.toChange
  | leave => exact List.prefix_rfl
  | enrol _ _ _ change => exact hc change
  | deliver _ _ _ _ change => exact hc change
  | finish live => exact @hc _ _ { s with terminated := true, waiting := [] } _ (finish_closed live).change

theorem Moves.visits (h : Moves s t) : s.visits <+: t.visits := by
  induction h with
  | refl => exact List.prefix_rfl
  | tail _ h ih => exact ih.trans h.visits

/-! ## Enrolling those that wait -/

/-- enrolling is one move, if the entity stood at the head of the line just before -/
theorem enrol_move {e : ε} {rest : List (EntityId × ε)} {b : Simulation ε μ W} (hl : b.terminated = false)
    (hw : b.waiting = (b.entities.size, e) :: rest) (hs : s.entities = b.entities)
    (hr : s.waiting = rest) (hc : Change [] [] b s) :
    Move b (s.enrol b.entities.size e).2 ∧ (s.enrol b.entities.size e).2.terminated = false := by
  obtain ⟨error?, entity, spawned, turn, change, entities, waiting⟩ := enrol_change e s
  rw [hs] at turn change entities waiting
  refine ⟨.enrol hl hw turn (hc.trans change) entities ?_, ?_⟩
  · rw [waiting, hr, hc.nextId]; rfl
  · exact (hc.trans change).terminated.trans hl

theorem reserve_move (e : ε) (hl : s.terminated = false) : Move s (s.reserve e).2 :=
  .act (reserve_effect e s) fun h => Bool.noConfusion (h.symm.trans hl)

/-- an entity that is registered is given the next id, and enrolled as if it had waited alone -/
theorem register_enrol_move (e : ε) (hs : Tidy s) (hl : s.terminated = false) (hw : s.waiting = []) :
    Move (s.reserve e).2 ((s.nameNext e).2.enrol s.nextId e).2 ∧
      ((s.nameNext e).2.enrol s.nextId e).2.terminated = false := by
  have hi := tidy_reserved hs hw hl
  have hr : Effect [e] s (s.reserve e).2 := reserve_effect e s
  have line : (s.reserve e).2.waiting = ((s.reserve e).2.entities.size, e) :: [] := by
    rw [hr.waiting, hw, hr.entities, ← hi]; rfl
  rw [hi]
  exact enrol_move (b := (s.reserve e).2) (s := (s.nameNext e).2) hl line rfl hw
    ⟨(List.append_nil _).symm, (List.append_nil _).symm, rfl, rfl, rfl⟩

theorem finish_moves (s : Simulation ε μ W) : Moves s s.finish := by
  cases hl : s.terminated with
  | false => exact .single (.finish hl)
  | true => rw [finish_of_terminated hl]

/-! ## Calls -/

/-- what an orderly call keeps to: nobody waits where it rests, and the run goes on while entities are enrolled -/
def Poised : Phase → Simulation ε μ W → Prop
  | .resting, s => Idle s
  | .enrolling, s => s.terminated = false
  | .failed _, _ => True

omit [Entity ε μ W] in
theorem Poised.after (hl : s.terminated = false) (r : Except SimError Unit) : Poised (.after r) s := by
  cases r with
  | ok => exact hl
  | error err => trivial

variable {admits : Call ε μ → Prop} {p q : Phase} {deeds new : List (Deed ε μ)}

/-- **Every leg is a row of moves.** -/
theorem Leg.moves (h : Leg admits p s new q t) (hs : Tidy s) (hp : Poised p s) : Moves s t ∧ Poised q t := by
  cases h with
  | schedule delay source target message =>
    have he := schedule_effect delay source target message s
    exact ⟨he.move, he.idle hp⟩
  | cancel handle =>
    have he := cancel_effect handle s
    exact ⟨he.move, he.idle hp⟩
  | accept _ live =>
    obtain ⟨move, hl⟩ := register_enrol_move _ hs live (hp live)
    exact ⟨.head (reserve_move _ live) (.single move), .after hl _⟩
  | @enlist _ _ e rest live line =>
    cases tidy_first hs live line
    obtain ⟨move, hl⟩ := enrol_move (b := s) (s := { s with waiting := rest, spawned := s.spawned + 1 }) live line rfl
      rfl ⟨(List.append_nil _).symm, (List.append_nil _).symm, rfl, rfl, rfl⟩
    exact ⟨.single move, .after hl _⟩
  | settled idle => exact ⟨.refl, fun _ => idle⟩
  | @drop _ e agenda live next nobody =>
    have he := drop_effect e { s with agenda }
    exact ⟨.head (.leave agenda live) he.move, he.idle hp⟩
  | @react _ e agenda slot live next target running =>
    obtain ⟨entity, spawned, turn, change, entities, waiting⟩ := react_change e slot { s with agenda }
    have hr : Move { s with agenda } (({ s with agenda } : Simulation ε μ W).react e slot).2 :=
      .deliver live target running turn change entities waiting
    have ha := absorbOutcome_effect e.target (({ s with agenda } : Simulation ε μ W).react e slot).1
      (({ s with agenda } : Simulation ε μ W).react e slot).2
    have goes := (terminated_react e slot ({ s with agenda } : Simulation ε μ W)).trans live
    exact ⟨.head (.leave agenda live) (.head hr ha.move), .after goes _⟩
  | notice h => exact ⟨(notice_effect h).move, hp⟩
  | finish _ h =>
    refine ⟨finish_moves s, ?_⟩
    cases p with
    | resting => exact fun hl => Bool.noConfusion (hl.symm.trans (terminated_finish s))
    | enrolling => exact absurd rfl h
    | failed => trivial

theorem Legs.moves (h : Legs admits p s deeds q t) (hs : Tidy s) (hp : Poised p s) : Moves s t ∧ Poised q t := by
  refine h.keep (P := fun _ q t => Moves s t ∧ Poised q t) ⟨.refl, hp⟩ ?_
  rintro _ _ _ _ _ _ ⟨moves, hp⟩ leg
  obtain ⟨more, hp⟩ := leg.moves (moves.tidy hs) hp
  exact ⟨moves.trans more, hp⟩

/-- an event leaves and is delivered without an error of the run: nobody waits any more -/
theorem dispatch_moves {fuel : Nat} {e : Event μ} {agenda : Agenda μ} (hs : Tidy s) (hl : s.terminated = false)
    (hw : s.waiting = []) (hn : s.agenda.next? = some (e, agenda))
    (h : ({ s with agenda } : Simulation ε μ W).dispatch fuel e = some (.ok (), t)) :
    Moves s t ∧ t.terminated = false ∧ t.waiting = [] := by
  have spans := dispatch_spans (fun _ => False) fuel hl hn
  rw [h] at spans
  obtain ⟨moves, hidle⟩ := spans.legs.1.moves hs fun _ => hw
  exact ⟨moves, spans.legs.2, hidle spans.legs.2⟩

/-! ## What calls come to -/

/-- what brings a run to rest ends it if somebody asked to stop, or if it had ended before -/
theorem terminated_rest? {horizon : Option Time} {outcome : RunOutcome} (h : s.rest? horizon = some (outcome, t)) :
    t.terminated = true ↔ outcome = .stopped := by
  unfold rest? at h
  split_ifs at h with hl hstop
  · cases h
    exact iff_of_true hl rfl
  · cases h
    exact iff_of_true (terminated_finish _) rfl
  · split at h
    · cases h
      exact iff_of_false hl (by decide)
    · split at h
      · cases h
        exact iff_of_false hl (by decide)
      · split_ifs at h
        cases h
        exact iff_of_false hl (by decide)

theorem Rests.ends {horizon : Option Time} {r : Except SimError RunOutcome} (h : Rests horizon s r t) :
    t.terminated = true ↔ r = .ok .stopped ∨ ∃ err, r = .error err := by
  cases h with
  | rest h => simpa using terminated_rest? h
  | empty rest => exact iff_of_false (by simp [live_of_rest? rest]) (by simp)
  | failed err => exact iff_of_true (terminated_finish s) (.inr ⟨err, rfl⟩)

theorem Stepped.ends {r : Except SimError Bool} (h : Stepped s r t) :
    t.terminated = true ↔ (r = .ok true ∧ t.stopRequested = true) ∨ ∃ err, r = .error err := by
  cases h with
  | idle live => exact iff_of_false (by simp [live]) (by simp)
  | stopped live asked => exact iff_of_true (terminated_finish s) (.inl ⟨rfl, (stopRequested_finish s).trans asked⟩)
  | delivered live unasked => exact iff_of_false (by simp [live]) (by simp [unasked])
  | failed err => exact iff_of_true (terminated_finish s) (.inr ⟨err, rfl⟩)

/-- does a call end the run, if it is answered so and leaves `t`? -/
def Ends (t : Simulation ε μ W) : Call ε μ → Answer → Prop
  | .run, _ => True
  | .stop, _ => True
  | .runUntil _, .ran r => r = .ok .stopped ∨ ∃ err, r = .error err
  | .step, .stepped r => (r = .ok true ∧ t.stopRequested = true) ∨ ∃ err, r = .error err
  | _, _ => False

/-- **A call ends the run in the cases of `Ends`** and no others. -/
theorem call_ends {fuel : Nat} {c : Call ε μ} {a : Answer} (hl : s.terminated = false)
    (h : s.call fuel c = some (a, t)) : t.terminated = true ↔ Ends t c a := by
  cases answered h with
  | @register e r _ hu =>
    have spans := register_spans (fun _ => True) (s := s) fuel (e := e) trivial hl
    rw [hu] at spans
    exact iff_of_false (by simp [spans.legs.2]) id
  | schedule delay source target message =>
    exact iff_of_false ((schedule_effect delay source target message s).live hl) id
  | cancel handle => exact iff_of_false ((cancel_effect handle s).live hl) id
  | @run r u => exact iff_of_true (terminated_finish u) trivial
  | @runUntil time r _ hu =>
    obtain ⟨q, v, -, -, rest⟩ := loop_legs (fun _ => True) (some time) fuel s
    exact (rest r t hu).2.ends
  | @step r _ hu =>
    obtain ⟨q, v, -, rest⟩ := step_legs (fun _ => True) fuel hl
    exact (rest r t hu).2.ends
  | stop => exact iff_of_true (terminated_finish s) trivial

/-- **Calls are moves.** While the run has not ended, a call that is answered is a row of moves; it ends the run in the
    cases of `Ends` and no others; and nobody waits after it, unless it was a registration that failed. -/
theorem call_moves {fuel : Nat} {c : Call ε μ} {a : Answer} (hs : Tidy s) (hi : Idle s) (hl : s.terminated = false)
    (h : s.call fuel c = some (a, t)) :
    Moves s t ∧ (t.terminated = true ↔ Ends t c a) ∧ ((∀ err, a ≠ .registered (.error err)) → Idle t) := by
  obtain ⟨q, legs, hq⟩ := call_legs (fun _ => True) trivial h
  obtain ⟨moves, poised⟩ := legs.moves hs hi
  rw [hq hl] at poised
  have ends := call_ends hl h
  refine ⟨moves, ends, fun ha => ?_⟩
  have ended : Ends t c a → Idle t := fun he ht => Bool.noConfusion (ht.symm.trans (ends.2 he))
  cases answered h with
  | @register e r =>
    cases r with
    | error err => exact absurd rfl (ha err)
    | ok id => exact poised
  | schedule | cancel | stop => exact poised
  | run => exact ended trivial
  | @runUntil _ r =>
    cases r with
    | error err => exact ended (.inr ⟨err, rfl⟩)
    | ok outcome => exact poised
  | @step r =>
    cases r with
    | error err => exact ended (.inr ⟨err, rfl⟩)
    | ok done => exact poised

theorem loop_of_terminated (hs : s.terminated = true) (horizon : Option Time) (fuel : Nat) :
    s.loop horizon fuel = some (.ok .stopped, s) := by
  have hr : s.rest? horizon = some (.stopped, s) := if_pos hs
  unfold loop
  rw [hr]

/-- **After the end.** No call changes anything that counts. -/
theorem call_of_terminated {fuel : Nat} {c : Call ε μ} {a : Answer} (hs : s.terminated = true)
    (h : s.call fuel c = some (a, t)) : Effect [] s t := by
  cases answered h with
  | register hu =>
    cases (if_pos hs : s.register fuel _ = _).symm.trans hu
    exact .refl s
  | schedule delay source target message => exact schedule_effect delay source target message s
  | cancel handle => exact cancel_effect handle s
  | run hu =>
    cases (loop_of_terminated hs _ fuel).symm.trans hu
    rw [finish_of_terminated hs]
    exact .refl s
  | runUntil hu =>
    cases (loop_of_terminated hs _ fuel).symm.trans hu
    exact .refl s
  | step hu =>
    cases (if_pos hs : s.step fuel = _).symm.trans hu
    exact .refl s
  | stop =>
    rw [finish_of_terminated hs]
    exact .refl s

/-! ## Any calls -/

/-- a failed registration left nobody waiting -/
def Orderly (s : Simulation ε μ W) (_ : Call ε μ) (a : Answer) (t : Simulation ε μ W) : Prop :=
  s.terminated = false → (∃ err, a = .registered (.error err)) → t.waiting = []

/-- no registration failed, but those that came after the end -/
def Loyal (s : Simulation ε μ W) (_ : Call ε μ) (a : Answer) (_ : Simulation ε μ W) : Prop :=
  s.terminated = false → ∀ err, a ≠ .registered (.error err)

theorem idle_call {fuel : Nat} {c : Call ε μ} {a : Answer} (hs : Tidy s) (hi : Idle s)
    (h : s.call fuel c = some (a, t)) (ha : Orderly s c a t) : Moves s t ∧ Idle t := by
  cases hl : s.terminated with
  | true =>
    have he := call_of_terminated hl h
    exact ⟨he.move, fun ht => Bool.noConfusion (ht.symm.trans (he.terminated.trans hl))⟩
  | false =>
    obtain ⟨moves, -, hidle⟩ := call_moves hs hi hl h
    refine ⟨moves, ?_⟩
    by_cases hf : ∃ err, a = .registered (.error err)
    · exact fun _ => ha hl hf
    · exact hidle fun err he => hf ⟨err, he⟩

/-- what holds at first and is kept by every move holds after any orderly calls -/
theorem Reached.invariant {P : Simulation ε μ W → Prop} (fresh : ∀ limits world, P (Simulation.fresh limits world))
    (move : ∀ s t, Tidy s → Move s t → P s → P t) (h : Reached Orderly s) : P s ∧ Tidy s ∧ Idle s := by
  have moves : ∀ s t : Simulation ε μ W, Moves s t → Tidy s → P s → P t := by
    intro s t h hs hp
    induction h with
    | refl => exact hp
    | tail before last ih => exact move _ _ (Moves.tidy before hs) last ih
  induction h with
  | fresh limits world => exact ⟨fresh limits world, tidy_fresh limits world, fun _ => rfl⟩
  | call before h ha ih =>
    obtain ⟨hp, hs, hi⟩ := ih
    obtain ⟨hm, hi'⟩ := idle_call hs hi h ha
    exact ⟨moves _ _ hm hs hp, hm.tidy hs, hi'⟩

theorem Reached.orderly (h : Reached Loyal s) : Reached Orderly s := by
  induction h with
  | fresh limits world => exact .fresh limits world
  | call before h ha ih => exact .call ih h fun hl ⟨err, he⟩ => absurd he (ha hl err)

section Play

open Standin

/-- a simulation of players in which nothing has happened -/
def theatre : Simulation Player Cue Stage := fresh {} {}

/-- a player that asks for a child, which asks for a grandchild, and that asks for a latecomer when it hears its own
    word -/
def lead : Player :=
  { name := "lead"
    opening := [.spawn "child" [.spawn "grandchild" []], .scheduleSelf 1 "cue" [.spawn "latecomer" []] false] }

/-- the lead and its family have come -/
def gathered : Simulation Player Cue Stage := theatre.after 3 (.register lead)

/-- the word was heard, the latecomer has come, and the run is over -/
def performed : Simulation Player Cue Stage := gathered.after 2 .run

theorem gathered_loyal : Reached Loyal gathered := by
  obtain ⟨a, ha⟩ := call_after 3 theatre (.register lead) (by decide +kernel)
  have answer : (theatre.call 3 (.register lead)).any (fun x => !x.1.isFailure) = true := by decide +kernel
  have fresh : Reached Loyal theatre := .fresh _ _
  refine .call fresh ha ?_
  rintro - err rfl
  rw [ha] at answer
  cases answer

theorem performed_loyal : Reached Loyal performed := by
  obtain ⟨a, ha⟩ := call_after 2 gathered .run (by decide +kernel)
  refine .call gathered_loyal ha ?_
  rintro - err rfl
  obtain ⟨e, he, -⟩ := register_of_call ha
  cases he

end Play

end Simulation

end BrokerSim
