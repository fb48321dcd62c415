/-
Pausing. A run that is brought to rest at some time and then goes on is the same run as one that never paused.
- `loop_mono`: more fuel never changes an answer.
- `loop_pause`: a run that is answered is answered too when it pauses on the way, and `loop_resume`: the other way
  round, a run that paused and then came to its end does so without the pause.
- `pause_invisible`: both, for a pause before a run up to a later time or before a run to the end. Nothing tells the two
  simulations apart but a second notice in the log where the event limit is met twice.
-/
import Mathlib.Tactic
import BrokerSim.Proofs.Clock
import BrokerSim.Proofs.Kernel.Moves
import BrokerSim.Proofs.Kernel.Reaction

namespace BrokerSim

variable {ε μ W α : Type}

/-- a notice that no more events may be delivered: it says why a run came to rest, and that nothing happened -/
def Entry.isNotice : Entry ε μ → Bool
  | .limitReached _ _ => true
  | _ => false

namespace Simulation

/-! ## Simulations up to notices -/

/-- the same simulation in all that is not its journal, and the same journal up to notices of the event limit -/
structure Alike (s t : Simulation ε μ W) : Prop where
  state : { t with journal := s.journal } = s
  journal : t.journal.filter (!·.isNotice) = s.journal.filter (!·.isNotice)

theorem Alike.refl (s : Simulation ε μ W) : Alike s s := ⟨rfl, rfl⟩

theorem alike_notice (limit : Nat) (time : Time) (s : Simulation ε μ W) : Alike s (s.note (.limitReached limit time)) :=
  ⟨rfl, rfl⟩

theorem Alike.exists_journal {s t : Simulation ε μ W} (h : Alike s t) :
    ∃ j, t = { s with journal := j } ∧ j.filter (!·.isNotice) = s.journal.filter (!·.isNotice) :=
  ⟨t.journal, congrArg (fun u : Simulation ε μ W => { u with journal := t.journal }) h.state, h.journal⟩

/-- a reading of the journal that passes over notices is the same -/
theorem Alike.told {β : Type} {s t : Simulation ε μ W} (h : Alike s t) {read : Entry ε μ → Option β}
    (hr : ∀ e, e.isNotice = true → read e = none) : t.told read = s.told read := by
  have hf : ∀ j : List (Entry ε μ), (j.filter (!·.isNotice)).filterMap read = j.filterMap read := by
    intro j
    rw [List.filterMap_filter]
    refine List.filterMap_congr fun e _ => ?_
    cases he : e.isNotice with
    | false => rfl
    | true => exact (hr e he).symm
  rw [Simulation.told, Simulation.told, ← hf t.journal, h.journal, hf]

theorem Alike.visits {s t : Simulation ε μ W} (h : Alike s t) : t.visits = s.visits := by
  refine h.told ?_
  intro e he
  cases e with
  | limitReached limit time => rfl
  | _ => cases he

theorem Alike.note {s t : Simulation ε μ W} (h : Alike s t) (e : Entry ε μ) : Alike (s.note e) (t.note e) := by
  obtain ⟨j, rfl, hj⟩ := h.exists_journal
  exact ⟨rfl, by simp only [Simulation.note, List.filter_cons, hj]⟩

theorem Alike.exchange {s t : Simulation ε μ W} (h : Alike s t) (x : Exchange W α) :
    (t.exchange x).1 = (s.exchange x).1 ∧ Alike (s.exchange x).2 (t.exchange x).2 := by
  obtain ⟨j, rfl, hj⟩ := h.exists_journal
  refine ⟨rfl, rfl, ?_⟩
  have hr : ∀ (remarks : List Remark) (j k : List (Entry ε μ)),
      j.filter (!·.isNotice) = k.filter (!·.isNotice) →
      (remarks.foldl (fun j r => .remark r :: j) j).filter (!·.isNotice) =
        (remarks.foldl (fun j r => .remark r :: j) k).filter (!·.isNotice) := by
    intro remarks
    induction remarks with
    | nil => exact fun _ _ h => h
    | cons r rest ih =>
      intro j k h
      exact ih _ _ (by simp only [List.filter_cons, h])
  exact hr _ _ _ hj

variable [Entity ε μ W]

theorem Alike.close {s t : Simulation ε μ W} (h : Alike s t) (id : EntityId) : Alike (s.close id) (t.close id) := by
  have he : t.entities = s.entities := (congrArg Simulation.entities h.state :)
  have hn : t.now = s.now := (congrArg Simulation.now h.state :)
  unfold Simulation.close
  rw [he, hn]
  cases s.entities[id]? with
  | none => exact h
  | some slot =>
    dsimp only
    split_ifs
    · obtain ⟨hx, hs⟩ := (h.note (.closed s.now id)).exchange (Entity.shutdown μ s.now slot.entity)
      obtain ⟨j, hj, hf⟩ := hs.exists_journal
      rw [hx, hj]
      exact ⟨rfl, hf⟩
    · exact h

theorem Alike.finish {s t : Simulation ε μ W} (h : Alike s t) : Alike s.finish t.finish := by
  have hclose : ∀ (ids : List EntityId) (s t : Simulation ε μ W), Alike s t →
      Alike (ids.foldl Simulation.close s) (ids.foldl Simulation.close t) := by
    intro ids
    induction ids with
    | nil => exact fun _ _ h => h
    | cons id ids ih => exact fun s t h => ih _ _ (h.close id)
  obtain ⟨j, rfl, hj⟩ := h.exists_journal
  unfold Simulation.finish
  dsimp only
  split_ifs
  · exact ⟨rfl, hj⟩
  · obtain ⟨k, hk, hf⟩ := (hclose (List.range s.entities.size) { s with terminated := true, waiting := [] }
      { s with terminated := true, waiting := [], journal := j } ⟨rfl, hj⟩).exists_journal
    rw [hk]
    exact Alike.note ⟨rfl, hf⟩ _

/-! ## Fuel -/

variable {s t u : Simulation ε μ W}

/-- more fuel does not change what enrolling comes to -/
theorem settle_mono {fuel more : Nat} {x : Result ε μ W Unit} (h : s.settle fuel = some x) (hle : fuel ≤ more) :
    s.settle more = some x := by
  fun_induction settle fuel s generalizing more with
  | case1 fuel s hw => rw [← h]; exact settle_idle more hw
  | case2 s id e rest hw => cases h
  | case3 s id e rest hw fuel u hu ih =>
    obtain ⟨more, rfl⟩ : ∃ k, more = k + 1 := ⟨more - 1, by omega⟩
    unfold settle
    rw [hw]
    dsimp only
    rw [hu]
    exact ih h (by omega)
  | case4 s id e rest hw fuel err u hu =>
    obtain ⟨more, rfl⟩ : ∃ k, more = k + 1 := ⟨more - 1, by omega⟩
    unfold settle
    rw [hw]
    dsimp only
    rw [hu]
    exact h

theorem dispatch_mono {fuel more : Nat} {e : Event μ} {x : Result ε μ W Unit} (h : s.dispatch fuel e = some x)
    (hle : fuel ≤ more) : s.dispatch more e = some x := by
  unfold dispatch at h ⊢
  split
  · next hn => rw [hn] at h; exact h
  · next slot hslot =>
    rw [hslot] at h
    dsimp only at h ⊢
    split at h
    · exact settle_mono h hle
    · exact h

theorem register_mono {fuel more : Nat} {e : ε} {x : Result ε μ W EntityId} (h : s.register fuel e = some x)
    (hle : fuel ≤ more) : s.register more e = some x := by
  unfold register at h ⊢
  split_ifs at h ⊢
  · exact h
  · dsimp only at h ⊢
    split
    · next hp =>
      rw [hp] at h
      exact h
    · next hp =>
      rw [hp] at h
      obtain ⟨y, hy, rfl⟩ := Option.map_eq_some_iff.1 h
      rw [settle_mono hy hle]
      rfl

/-- one event of a run that is answered, and what comes after it -/
theorem loop_deliver {horizon : Option Time} {e : Event μ} {agenda : Agenda μ} (hr : s.rest? horizon = none)
    (hn : s.agenda.next? = some (e, agenda)) (fuel : Nat) :
    s.loop horizon (fuel + 1) =
      match ({ s with agenda }).dispatch fuel e with
      | none => none
      | some (.ok (), t) => t.loop horizon fuel
      | some (.error err, t) => some (.error err, t.finish) := by
  rw [loop.eq_def, hr]
  dsimp only
  rewrite [hn]
  rfl

theorem loop_rest {horizon : Option Time} {outcome : RunOutcome} (hr : s.rest? horizon = some (outcome, t))
    (fuel : Nat) : s.loop horizon fuel = some (.ok outcome, t) := by
  rw [loop.eq_def, hr]

theorem loop_empty {horizon : Option Time} (hr : s.rest? horizon = none) (hn : s.agenda.next? = none) (fuel : Nat) :
    s.loop horizon fuel = some (.ok .drained, s) := by
  rw [loop.eq_def, hr]
  dsimp only
  rw [hn]

/-- **Fuel.** More of it does not change an answer. -/
theorem loop_mono {horizon : Option Time} {fuel more : Nat} {x : Result ε μ W RunOutcome}
    (h : s.loop horizon fuel = some x) (hle : fuel ≤ more) : s.loop horizon more = some x := by
  fun_induction loop horizon fuel s generalizing more with
  | case1 fuel s outcome t hrest => rw [← h]; exact loop_rest hrest more
  | case2 fuel s hrest hnext => rw [← h]; exact loop_empty hrest hnext more
  | case3 s hrest e agenda hnext => cases h
  | case4 s hrest e agenda hnext fuel hnone => cases h
  | case5 s hrest e agenda hnext fuel t ht ih =>
    obtain ⟨more, rfl⟩ : ∃ k, more = k + 1 := ⟨more - 1, by omega⟩
    rw [loop_deliver hrest hnext, dispatch_mono ht (by omega)]
    exact ih h (by omega)
  | case6 s hrest e agenda hnext fuel err t ht =>
    obtain ⟨more, rfl⟩ : ∃ k, more = k + 1 := ⟨more - 1, by omega⟩
    rw [loop_deliver hrest hnext, dispatch_mono ht (by omega)]
    exact h

/-! ## Limits -/

omit [Entity ε μ W] in
theorem limits_perform (self : EntityId) (x : Action ε μ W α) (s : Simulation ε μ W) :
    (x.perform self s).2.limits = s.limits := by
  induction x generalizing s with
  | done a => rfl
  | observe next ih => exact ih _ s
  | schedule target delay message next ih =>
    have hs : (s.schedule delay self target message).2.limits = s.limits := by
      unfold Simulation.schedule
      split <;> rfl
    exact (ih _ _).trans hs
  | cancel handle next ih => exact ih _ _
  | spawn e next ih => exact ih _ _
  | stop next ih => exact ih _
  | write world next ih => exact ih _
  | remark r next ih => exact ih _

omit [Entity ε μ W] in
theorem limits_absorbOutcome (id : EntityId) (r : Except SimError Unit) (s : Simulation ε μ W) :
    (s.absorbOutcome id r).2.limits = s.limits := by
  unfold absorbOutcome absorb
  split
  · rfl
  · split_ifs <;> rfl

theorem limits_enrol (id : EntityId) (e : ε) (s : Simulation ε μ W) : (s.enrol id e).2.limits = s.limits := by
  unfold enrol start
  refine (limits_absorbOutcome ..).trans ?_
  split
  · rfl
  · exact limits_perform id _ _

section

variable {admits : Call ε μ → Prop} {p q : Phase} {deeds new : List (Deed ε μ)}

theorem Leg.limits (h : Leg admits p s new q t) : t.limits = s.limits := by
  cases h with
  | schedule =>
    unfold Simulation.schedule
    split <;> rfl
  | cancel | settled | notice => rfl
  | @accept _ e => exact limits_enrol s.nextId e (s.nameNext e).2
  | @enlist _ id e rest => exact limits_enrol id e { s with waiting := rest, spawned := s.spawned + 1 }
  | @drop _ e => exact limits_absorbOutcome e.target (.error (.unknownTarget e.target)) _
  | @react _ e => exact (limits_absorbOutcome e.target _ _).trans (limits_perform e.target _ _)
  | finish => exact limits_finish s

theorem Legs.limits (h : Legs admits p s deeds q t) : t.limits = s.limits :=
  h.keep (P := fun _ _ t => t.limits = s.limits) rfl fun before leg => leg.limits.trans before

end

/-- **No call changes the limits.** -/
theorem limits_call {fuel : Nat} {c : Call ε μ} {a : Answer} (h : s.call fuel c = some (a, t)) :
    t.limits = s.limits := by
  obtain ⟨q, legs, -⟩ := call_legs (fun _ => True) trivial h
  exact legs.limits

theorem limits_dispatch {fuel : Nat} {e : Event μ} {agenda : Agenda μ} {r : Except SimError Unit}
    (hl : s.terminated = false) (hn : s.agenda.next? = some (e, agenda))
    (h : ({ s with agenda } : Simulation ε μ W).dispatch fuel e = some (r, t)) : t.limits = s.limits := by
  have spans := dispatch_spans (fun _ => True) fuel hl hn
  rw [h] at spans
  exact spans.legs.1.limits

/-! ## Pausing on the way -/

/-- what the two parts of a run come to, if the whole comes to `whole` -/
def Resumed (first second whole : Except SimError RunOutcome) : Prop :=
  match first with
  | .ok _ => second = whole
  | .error _ => whole = first ∧ second = .ok .stopped

theorem rest?_limit (hl : ¬ s.terminated = true) (hstop : ¬ s.stopRequested = true) {limit : Nat}
    (h : s.limitReached? = some limit) (horizon : Option Time) :
    s.rest? horizon = some (.eventLimit, s.note (.limitReached limit s.now)) := by
  unfold rest?
  rw [if_neg hl, if_neg hstop, h]

/-- while events may be delivered, the next one alone decides whether the run comes to rest -/
theorem rest?_next (hl : ¬ s.terminated = true) (hstop : ¬ s.stopRequested = true) (h : s.limitReached? = none)
    (horizon : Option Time) :
    s.rest? horizon =
      match s.agenda.nextTime? with
      | none => some (.drained, s)
      | some t => if isBeyond horizon t then some (.horizon, s) else none := by
  unfold rest?
  rewrite [if_neg hl, if_neg hstop, h]
  rfl

/-- what brings a run to rest brings it to rest at any earlier horizon as well, in the same state; and there it rests -/
theorem rest?_of_rest? {first second : Option Time} (hh : ∀ t, isBeyond second t = true → isBeyond first t = true)
    {outcome : RunOutcome} (h : s.rest? second = some (outcome, t)) :
    (∃ o, s.rest? first = some (o, t)) ∧ ∃ v, t.rest? second = some (outcome, v) ∧ Alike t v := by
  by_cases hl : s.terminated = true
  · have hrest : ∀ horizon, s.rest? horizon = some (.stopped, s) := fun _ => if_pos hl
    cases (hrest second).symm.trans h
    exact ⟨⟨_, hrest first⟩, _, hrest second, .refl _⟩
  by_cases hstop : s.stopRequested = true
  · have hrest : ∀ horizon, s.rest? horizon = some (.stopped, (s.note (.stopping s.now)).finish) := by
      intro horizon
      unfold rest?
      rw [if_neg hl, if_pos hstop]
    cases (hrest second).symm.trans h
    exact ⟨⟨_, hrest first⟩, _, if_pos (terminated_finish _), .refl _⟩
  cases hlimit : s.limitReached? with
  | some limit =>
    cases (rest?_limit hl hstop hlimit second).symm.trans h
    exact ⟨⟨_, rest?_limit hl hstop hlimit first⟩, _,
      rest?_limit (s := s.note (.limitReached limit s.now)) hl hstop hlimit second, alike_notice ..⟩
  | none =>
    have hrest := rest?_next hl hstop hlimit
    have h₀ := h
    rw [hrest second] at h
    split at h
    · next htime =>
      cases h
      exact ⟨⟨.drained, by rw [hrest, htime]⟩, _, h₀, .refl _⟩
    · next time htime =>
      split_ifs at h with hb
      cases h
      refine ⟨⟨.horizon, ?_⟩, _, h₀, .refl _⟩
      rw [hrest, htime]
      exact if_pos (hh time hb)

/-- a run that has not come to rest yet goes on at an earlier horizon too, or rests there as it is -/
theorem rest?_of_none (first : Option Time) {second : Option Time} (h : s.rest? second = none) :
    s.rest? first = none ∨ s.rest? first = some (.horizon, s) := by
  unfold rest? at h ⊢
  split_ifs at h ⊢ with hl hstop
  split at h
  · cases h
  · split at h
    · cases h
    · next time htime =>
      by_cases hb : isBeyond first time = true
      · exact .inr (if_pos hb)
      · exact .inl (if_neg hb)

/-- **A run may pause.** A run that is answered comes to rest at any earlier horizon too, and from there it goes on to
    the same answer. -/
theorem loop_pause {first second : Option Time} (hh : ∀ t, isBeyond second t = true → isBeyond first t = true)
    {fuel : Nat} {r : Except SimError RunOutcome} (h : s.loop second fuel = some (r, t)) :
    ∃ r₁ u r₂ v, s.loop first fuel = some (r₁, u) ∧ u.loop second fuel = some (r₂, v) ∧ Alike t v ∧
      Resumed r₁ r₂ r := by
  fun_induction loop second fuel s with
  | case1 fuel s outcome u hrest =>
    cases h
    obtain ⟨⟨o, ho⟩, v, hv, hsame⟩ := rest?_of_rest? hh hrest
    exact ⟨_, _, _, _, loop_rest ho fuel, loop_rest hv fuel, hsame, rfl⟩
  | case2 fuel s hrest hnext =>
    cases h
    have whole := loop_empty hrest hnext fuel
    rcases rest?_of_none first hrest with hn | hn
    · exact ⟨_, _, _, _, loop_empty hn hnext fuel, whole, .refl _, rfl⟩
    · exact ⟨_, _, _, _, loop_rest hn fuel, whole, .refl _, rfl⟩
  | case3 s hrest e agenda hnext => cases h
  | case4 s hrest e agenda hnext fuel hnone => cases h
  | case5 s hrest e agenda hnext fuel u hu ih =>
    rcases rest?_of_none first hrest with hn | hn
    · obtain ⟨r₁, v, r₂, w, h₁, h₂, hsame, hr⟩ := ih h
      refine ⟨r₁, v, r₂, w, ?_, loop_mono h₂ (Nat.le_succ fuel), hsame, hr⟩
      rw [loop_deliver hn hnext, hu]
      exact h₁
    · have whole : s.loop second (fuel + 1) = some (r, t) := by
        rw [loop_deliver hrest hnext, hu]
        exact h
      exact ⟨_, _, _, _, loop_rest hn _, whole, .refl _, rfl⟩
  | case6 s hrest e agenda hnext fuel err u hu =>
    cases h
    rcases rest?_of_none first hrest with hn | hn
    · refine ⟨.error err, u.finish, _, _, ?_, loop_of_terminated (terminated_finish u) second _, .refl _, rfl, rfl⟩
      rw [loop_deliver hn hnext, hu]
    · have whole : s.loop second (fuel + 1) = some (.error err, u.finish) := by
        rw [loop_deliver hrest hnext, hu]
      exact ⟨_, _, _, _, loop_rest hn _, whole, .refl _, rfl⟩

/-- a run that paused and then was answered is answered without the pause -/
theorem exists_loop {first second : Option Time} {fuel more : Nat} {r₁ r₂ : Except SimError RunOutcome}
    {v : Simulation ε μ W} (h₁ : s.loop first fuel = some (r₁, u)) (h₂ : u.loop second more = some (r₂, v)) :
    ∃ r t, s.loop second (fuel + more) = some (r, t) := by
  fun_induction loop first fuel s with
  | case1 fuel s outcome u hrest =>
    cases h₁
    cases hsecond : s.rest? second with
    | some x => exact ⟨_, _, loop_rest hsecond _⟩
    | none =>
      rcases rest?_of_none first hsecond with hn | hn
      · cases hrest.symm.trans hn
      · cases hrest.symm.trans hn
        exact ⟨_, _, loop_mono h₂ (Nat.le_add_left more fuel)⟩
  | case2 fuel s hrest hnext =>
    cases hsecond : s.rest? second with
    | some x => exact ⟨_, _, loop_rest hsecond _⟩
    | none => exact ⟨_, _, loop_empty hsecond hnext _⟩
  | case3 s hrest e agenda hnext => cases h₁
  | case4 s hrest e agenda hnext fuel hnone => cases h₁
  | case5 s hrest e agenda hnext fuel t ht ih =>
    cases hsecond : s.rest? second with
    | some x => exact ⟨_, _, loop_rest hsecond _⟩
    | none =>
      obtain ⟨r, w, hw⟩ := ih h₁
      refine ⟨r, w, ?_⟩
      rw [Nat.succ_add, loop_deliver hsecond hnext, dispatch_mono ht (Nat.le_add_right fuel more)]
      exact hw
  | case6 s hrest e agenda hnext fuel err t ht =>
    cases hsecond : s.rest? second with
    | some x => exact ⟨_, _, loop_rest hsecond _⟩
    | none =>
      refine ⟨.error err, t.finish, ?_⟩
      rw [Nat.succ_add, loop_deliver hsecond hnext, dispatch_mono ht (Nat.le_add_right fuel more)]

/-- **A run may go on.** A run that paused and then was answered comes to the same answer without the pause. -/
theorem loop_resume {first second : Option Time} (hh : ∀ t, isBeyond second t = true → isBeyond first t = true)
    {fuel more : Nat} {r₁ r₂ : Except SimError RunOutcome} {v : Simulation ε μ W}
    (h₁ : s.loop first fuel = some (r₁, u)) (h₂ : u.loop second more = some (r₂, v)) :
    ∃ r t, s.loop second (fuel + more) = some (r, t) ∧ Alike t v ∧ Resumed r₁ r₂ r := by
  obtain ⟨r, t, ht⟩ := exists_loop h₁ h₂
  obtain ⟨r₁', u', r₂', v', hu', hv', hsame, hr⟩ := loop_pause hh ht
  have hu := loop_mono h₁ (Nat.le_add_right fuel more)
  have hv := loop_mono h₂ (Nat.le_add_left more fuel)
  cases hu'.symm.trans hu
  cases hv'.symm.trans hv
  exact ⟨r, t, ht, hsame, hr⟩

/-! ## Runs with a pause -/

/-- a run that does not come to rest before a time: one up to a later time, or to the end if that is not earlier -/
def Outlasts (s : Simulation ε μ W) (time : Time) : Call ε μ → Prop
  | .runUntil later => time ≤ later
  | .run => ∀ horizon, s.limits.until? = some horizon → time ≤ horizon
  | _ => False

theorem isBeyond_of_outlasts {time : Time} (horizon : Option Time) (h : ∀ later, horizon = some later → time ≤ later)
    (t : Time) (ht : isBeyond horizon t = true) : isBeyond (some time) t = true := by
  cases horizon with
  | none => cases ht
  | some later =>
    simp only [isBeyond, decide_eq_true_eq] at ht ⊢
    exact Time.lt_of_le_of_lt (h later rfl) ht

theorem call_runUntil_iff {fuel : Nat} {time : Time} {r : Except SimError RunOutcome} :
    s.call fuel (.runUntil time) = some (.ran r, t) ↔ s.loop (some time) fuel = some (r, t) := by
  unfold call runUntil
  simp [Option.map_eq_some_iff]

theorem call_run_iff {fuel : Nat} {r : Except SimError RunOutcome} :
    s.call fuel .run = some (.ran r, t) ↔ ∃ u, s.loop s.limits.until? fuel = some (r, u) ∧ t = u.finish := by
  unfold call run
  simp [eq_comm]

/-- **Pausing is invisible.** A run that does not come to rest before a time may pause at that time: it is answered with
    the pause if and only if it is answered without. The simulation is then the same, its journal apart, and the same
    starts, reactions and shutdowns were made in the same order; the second part answers what the whole run does, unless
    the first part ended with the error of the whole run. -/
theorem pause_invisible {s : Simulation ε μ W} {time : Time} {c : Call ε μ} (hc : s.Outlasts time c) :
    (∀ fuel r t, s.call fuel c = some (.ran r, t) →
      ∃ r₁ u r₂ v, s.call fuel (.runUntil time) = some (.ran r₁, u) ∧ u.call fuel c = some (.ran r₂, v) ∧
        Alike t v ∧ v.visits = t.visits ∧ Resumed r₁ r₂ r) ∧
    ∀ fuel more r₁ u r₂ v, s.call fuel (.runUntil time) = some (.ran r₁, u) → u.call more c = some (.ran r₂, v) →
      ∃ r t, s.call (fuel + more) c = some (.ran r, t) ∧ Alike t v ∧ v.visits = t.visits ∧ Resumed r₁ r₂ r := by
  cases c with
  | runUntil later =>
    have hh := isBeyond_of_outlasts (some later) fun _ h => by cases h; exact hc
    simp only [call_runUntil_iff]
    constructor
    · intro fuel r t h
      obtain ⟨r₁, u, r₂, v, h₁, h₂, hsame, hr⟩ := loop_pause hh h
      exact ⟨r₁, u, r₂, v, h₁, h₂, hsame, hsame.visits, hr⟩
    · intro fuel more r₁ u r₂ v h₁ h₂
      obtain ⟨r, t, h, hsame, hr⟩ := loop_resume hh h₁ h₂
      exact ⟨r, t, h, hsame, hsame.visits, hr⟩
  | run =>
    have hh := isBeyond_of_outlasts _ hc
    simp only [call_runUntil_iff, call_run_iff]
    constructor
    · rintro fuel r _ ⟨t, h, rfl⟩
      obtain ⟨r₁, u, r₂, v, h₁, h₂, hsame, hr⟩ := loop_pause hh h
      refine ⟨r₁, u, r₂, _, h₁, ⟨v, ?_, rfl⟩, hsame.finish, hsame.finish.visits, hr⟩
      rw [limits_call (call_runUntil_iff.2 h₁)]
      exact h₂
    · rintro fuel more r₁ u r₂ _ h₁ ⟨v, h₂, rfl⟩
      rw [limits_call (call_runUntil_iff.2 h₁)] at h₂
      obtain ⟨r, t, h, hsame, hr⟩ := loop_resume hh h₁ h₂
      exact ⟨r, _, ⟨t, h, rfl⟩, hsame.finish, hsame.finish.visits, hr⟩
  | _ => exact hc.elim

/-- a simulation with a player that has planned events at times one and three -/
def rehearsal : Simulation Standin.Player Standin.Cue Standin.Stage :=
  theatre.after 1 (.register ⟨"player", [.scheduleSelf 1 "early" [] false, .scheduleSelf 3 "late" [] false], 0⟩)

theorem pause_invisible_of_rehearsal :
    rehearsal.Outlasts 2 (.runUntil 4) ∧ (rehearsal.after 5 (.runUntil 2)).dispatched = 1 ∧
      (rehearsal.after 5 (.runUntil 4)).dispatched = 2 ∧
      Alike (rehearsal.after 5 (.runUntil 4)) ((rehearsal.after 5 (.runUntil 2)).after 5 (.runUntil 4)) := by
  have hc : rehearsal.Outlasts 2 (.runUntil 4) := by
    change (2 : Float) ≤ 4
    decide +kernel
  refine ⟨hc, by decide +kernel, by decide +kernel, ?_⟩
  obtain ⟨a, ha⟩ := call_after 5 rehearsal (.runUntil 4) (by decide +kernel)
  obtain ⟨⟨r, t⟩, -, heq⟩ := Option.map_eq_some_iff.1 ha
  cases heq
  obtain ⟨r₁, u, r₂, v, h₁, h₂, hsame, -⟩ := (pause_invisible hc).1 5 _ _ ha
  have hu : rehearsal.after 5 (.runUntil 2) = u := by rw [after, h₁]; rfl
  have hv : u.after 5 (.runUntil 4) = v := by rw [after, h₂]; rfl
  rw [hu, hv]
  exact hsame

end Simulation

end BrokerSim
