/-
Step after step. A run delivers its events in a loop; a caller can deliver them one by one instead, until a step finds
nothing to deliver or fails, and then end the run. The two look at a request to stop and at the agenda in a different
order, and yet they come to the same.
- `walk`: what the caller does.
- `finish_blind`: the end of a run reads nothing from the journal, so it does not matter what was logged before.
- `walk_of_loop`: a run that is answered is answered on foot too, and `loop_of_walk`: the other way round.
- `walk_agrees_with_run`: both, for any simulation that calls can lead to, with no bounds and no request to stop. The
  simulations they leave differ in one line of the log at most: only a run gives notice that it was asked to stop.
-/
import Mathlib.Tactic
import BrokerSim.Proofs.Kernel.Chronicle
import BrokerSim.Proofs.Kernel.Discretion
import BrokerSim.Proofs.Kernel.Pause

namespace BrokerSim

variable {ε μ W : Type}

/-- an agenda that has no next event shows no time for it, and the other way round -/
theorem Agenda.IsQueue.next?_eq_none {a : Agenda μ} (ha : a.IsQueue) : a.next? = none ↔ a.nextTime? = none := by
  obtain ⟨p, hr, hp⟩ := ha
  have hplain : p.next? = none ↔ a.nextTime? = none := by
    rw [nextTime?, hr.top_eq hp, Plain.next?]
    cases earliest? p.live <;> simp
  have hnext := hr.next hp
  rw [← hplain]
  cases ha : a.next? <;> cases hq : p.next?
  case none.none => exact iff_of_true rfl rfl
  case some.some => exact iff_of_false (Option.some_ne_none _) (Option.some_ne_none _)
  all_goals
    rw [ha, hq] at hnext
    exact hnext.elim

namespace Simulation

/-! ## What the journal is not asked -/

/-- the simulation with another journal -/
def logged (journal : List (Entry ε μ)) (s : Simulation ε μ W) : Simulation ε μ W := { s with journal }

/-- what is done does not depend on the journal, and adds the same to it whatever stands there -/
def Blind (f : Simulation ε μ W → Simulation ε μ W) : Prop :=
  ∀ s, ∃ new, ∀ journal, f (s.logged journal) = (f s).logged (new ++ journal)

theorem Blind.note (entry : Simulation ε μ W → Entry ε μ) (h : ∀ s journal, entry (s.logged journal) = entry s) :
    Blind fun s => s.note (entry s) :=
  fun s => ⟨[entry s], fun journal => congrArg (fun e => (s.logged journal).note e) (h s journal)⟩

theorem Blind.comp {f g : Simulation ε μ W → Simulation ε μ W} (hf : Blind f) (hg : Blind g) :
    Blind fun s => g (f s) := by
  intro s
  obtain ⟨first, hfirst⟩ := hf s
  obtain ⟨rest, hrest⟩ := hg (f s)
  refine ⟨rest ++ first, fun journal => ?_⟩
  change g (f (s.logged journal)) = (g (f s)).logged _
  rw [hfirst, hrest, List.append_assoc]

theorem Blind.foldl {β : Type} {f : Simulation ε μ W → β → Simulation ε μ W} (hf : ∀ b, Blind fun s => f s b)
    (l : List β) : Blind fun s => l.foldl f s := by
  induction l with
  | nil => exact fun s => ⟨[], fun _ => rfl⟩
  | cons b l ih => exact (hf b).comp ih

section

variable [Entity ε μ W]

theorem close_blind (id : EntityId) : Blind fun s : Simulation ε μ W => s.close id := by
  intro s
  dsimp only
  cases hr : s.runs id with
  | false =>
    refine ⟨[], fun journal => ?_⟩
    rw [close_idle hr]
    exact close_idle hr
  | true =>
    obtain ⟨slot, hs, hx⟩ := (Option.any_eq_true _ _).1 hr
    have hx : slot.state = .running := by simpa using hx
    let last : Exchange W ε := Entity.shutdown μ s.now slot.entity
    refine ⟨(last s.world).2.2.reverse.map Entry.remark ++ [.closed s.now id], fun journal => ?_⟩
    rw [close_running hs hx, close_running (t := s.logged journal) hs hx, List.append_assoc]
    -- the two differ in their journals alone
    exact congrArg (fun j => logged j
        { (s.exchange last).2 with
          entities := s.entities.setIfInBounds id { slot with state := .shutdown, entity := (s.exchange last).1 } })
      (exchange_journal last ((s.logged journal).note (.closed s.now id)))

/-- **The end of a run does not ask the journal.** -/
theorem finish_blind : Blind (finish (ε := ε) (μ := μ) (W := W)) := by
  intro s
  cases hl : s.terminated with
  | true =>
    refine ⟨[], fun journal => ?_⟩
    rw [finish_of_terminated hl]
    exact finish_of_terminated hl
  | false =>
    have closing := (Blind.foldl close_blind (List.range s.entities.size)).comp
      (Blind.note (fun t : Simulation ε μ W => .finished t.now t.dispatched t.entities.size) fun _ _ => rfl)
    obtain ⟨new, hnew⟩ := closing { s with terminated := true, waiting := [] }
    refine ⟨new, fun journal => ?_⟩
    have hlive : ¬ s.terminated = true := by simp [hl]
    have hlive' : ¬ (s.logged journal).terminated = true := hlive
    unfold finish
    rw [if_neg hlive, if_neg hlive']
    exact hnew journal

end

/-! ## The log of a stop -/

/-- the second simulation is the first, whose journal may hold one notice more that the run was asked to stop -/
inductive Unnoticed : Simulation ε μ W → Simulation ε μ W → Prop
  | same (t : Simulation ε μ W) : Unnoticed t t
  | notice {t : Simulation ε μ W} {new old : List (Entry ε μ)} {time : Time}
      (h : t.journal = new ++ .stopping time :: old) : Unnoticed t (t.logged (new ++ old))

variable {s t u v : Simulation ε μ W}

/-- a notice is no visit -/
theorem Unnoticed.visits (h : Unnoticed t v) : v.visits = t.visits := by
  cases h with
  | same => rfl
  | notice h =>
    unfold Simulation.visits told
    rw [h, List.filterMap_append, logged, List.filterMap_append]
    rfl

variable [Entity ε μ W]

/-- asked to stop and ended at once, a simulation is the same as if it had been ended without being asked -/
theorem unnoticed_finish (u : Simulation ε μ W) : Unnoticed (u.note (.stopping u.now)).finish u.finish := by
  obtain ⟨new, hnew⟩ := finish_blind u
  have asked : (u.note (.stopping u.now)).finish = u.finish.logged (new ++ .stopping u.now :: u.journal) := hnew _
  have plain : u.finish = u.finish.logged (new ++ u.journal) := hnew _
  rw [asked]
  nth_rewrite 2 [plain]
  exact .notice rfl

/-! ## On foot -/

/-- one step after another, until there is nothing to deliver or a step fails; then the run is ended from outside -/
def walk (fuel : Nat) (s : Simulation ε μ W) : Option (Result ε μ W Unit) :=
  match fuel with
  | 0 => none
  | fuel + 1 =>
    match s.step fuel with
    | none => none
    | some (.error err, t) => some (.error err, t.stop)
    | some (.ok false, t) => some (.ok (), t.stop)
    | some (.ok true, t) => t.walk fuel

/-- somebody walks: calls have led here, the run goes on, nobody asked to stop, and any number of events may come -/
structure Afoot (s : Simulation ε μ W) : Prop where
  reached : Reached (fun _ _ _ _ => True) s
  live : s.terminated = false
  unstopped : s.stopRequested = false
  unlimited : s.limits.maxEvents? = none

theorem step_over (fuel : Nat) (hs : s.terminated = true) : s.step fuel = some (.ok false, s) := if_pos hs

theorem step_empty (fuel : Nat) (hl : s.terminated = false) (hn : s.agenda.next? = none) :
    s.step fuel = some (.ok false, s) := by
  unfold step
  rw [if_neg (by simp [hl]), hn]

/-- a step that has an event to deliver -/
theorem step_deliver (fuel : Nat) (hl : s.terminated = false) {e : Event μ} {agenda : Agenda μ}
    (hn : s.agenda.next? = some (e, agenda)) :
    s.step fuel =
      match ({ s with agenda } : Simulation ε μ W).dispatch fuel e with
      | none => none
      | some (.error err, t) => some (.error err, t.finish)
      | some (.ok (), t) => some (.ok true, if t.stopRequested then t.finish else t) := by
  unfold step
  rewrite [if_neg (by simp [hl]), hn]
  rfl

namespace Afoot

/-- nothing but the end of the agenda brings a run to rest -/
theorem rest?_eq (h : Afoot s) :
    s.rest? none = if s.agenda.next? = none then some (.drained, s) else none := by
  have hlimit : s.limitReached? = none := by
    unfold limitReached?
    rw [h.unlimited]
    rfl
  rw [rest?_next (by simp [h.live]) (by simp [h.unstopped]) hlimit none]
  by_cases hn : s.agenda.next? = none
  · rw [if_pos hn, h.reached.isQueue.next?_eq_none.1 hn]
  · rw [if_neg hn]
    cases htime : s.agenda.nextTime? with
    | none => exact absurd (h.reached.isQueue.next?_eq_none.2 htime) hn
    | some time => rfl

/-- who walks and was not asked to stop walks on -/
theorem onward (h : Afoot s) {fuel : Nat} {e : Event μ} {agenda : Agenda μ} (hn : s.agenda.next? = some (e, agenda))
    (hu : ({ s with agenda } : Simulation ε μ W).dispatch fuel e = some (.ok (), u)) (hl : u.terminated = false)
    (hstop : u.stopRequested = false) : Afoot u := by
  have stepped : s.call fuel .step = some (.stepped (.ok true), u) := by
    unfold call
    dsimp only
    rw [step_deliver fuel h.live hn, hu]
    dsimp only
    rw [if_neg (by simp [hstop])]
    rfl
  exact ⟨h.reached.call stepped trivial, hl, hstop,
    (congrArg Limits.maxEvents? (limits_dispatch h.live hn hu)).trans h.unlimited⟩

end Afoot

/-- a run that has ended or was asked to stop comes to rest where a step that finds it so has left it -/
theorem stopped_eq (fuel : Nat) (hu : u.terminated = true ∨ u.stopRequested = true) :
    ∃ w, u.loop none fuel = some (.ok .stopped, w) ∧ Unnoticed w.finish (if u.stopRequested then u.finish else u) ∧
      (if u.stopRequested then u.finish else u).terminated = true := by
  by_cases hl : u.terminated = true
  · refine ⟨u, loop_of_terminated hl none fuel, ?_⟩
    rw [finish_of_terminated hl, ite_self]
    exact ⟨.same u, hl⟩
  · have hstop := hu.resolve_left hl
    have hrest : u.rest? none = some (.stopped, (u.note (.stopping u.now)).finish) := by
      unfold rest?
      rw [if_neg hl, if_pos hstop]
    refine ⟨_, loop_rest hrest fuel, ?_⟩
    rw [finish_of_terminated (terminated_finish _), if_pos hstop]
    exact ⟨unnoticed_finish u, terminated_finish u⟩

theorem walk_over (fuel : Nat) (hs : s.terminated = true) : s.walk (fuel + 1) = some (.ok (), s) := by
  rw [walk, step_over fuel hs]
  dsimp only
  rw [stop, finish_of_terminated hs]

theorem walk_empty (fuel : Nat) (hl : s.terminated = false) (hn : s.agenda.next? = none) :
    s.walk (fuel + 1) = some (.ok (), s.finish) := by
  rw [walk, step_empty fuel hl hn]
  rfl

/-- one event of a walk, and what comes after it -/
theorem walk_deliver (fuel : Nat) (hl : s.terminated = false) {e : Event μ} {agenda : Agenda μ}
    (hn : s.agenda.next? = some (e, agenda)) :
    s.walk (fuel + 1) =
      match ({ s with agenda } : Simulation ε μ W).dispatch fuel e with
      | none => none
      | some (.error err, t) => some (.error err, t.finish)
      | some (.ok (), t) => (if t.stopRequested then t.finish else t).walk fuel := by
  rw [walk, step_deliver fuel hl hn]
  cases hd : ({ s with agenda } : Simulation ε μ W).dispatch fuel e with
  | none => rfl
  | some x =>
    obtain ⟨_ | _, t⟩ := x
    · dsimp only
      rw [stop, finish_of_terminated (terminated_finish t)]
    · rfl

/-! ## Walks and runs -/

/-- **A run on foot.** A run that is answered is answered too if its steps are taken one by one. -/
theorem walk_of_loop (h : Afoot s) {fuel : Nat} {r : Except SimError RunOutcome} (hr : s.loop none fuel = some (r, t)) :
    ∃ v, s.walk (fuel + 1) = some (r.map fun _ => (), v) ∧ Unnoticed t.finish v := by
  have empty : ∀ {fuel : Nat} {s : Simulation ε μ W}, Afoot s → s.agenda.next? = none →
      ∃ v, s.walk (fuel + 1) = some (.ok (), v) ∧ Unnoticed s.finish v :=
    fun h hn => ⟨_, walk_empty _ h.live hn, .same _⟩
  fun_induction loop none fuel s with
  | case1 fuel s outcome u hrest =>
    cases hr
    rw [h.rest?_eq] at hrest
    split_ifs at hrest with hn
    cases hrest
    exact empty h hn
  | case2 fuel s hrest hnext => cases hr; exact empty h hnext
  | case3 s hrest e agenda hnext => cases hr
  | case4 s hrest e agenda hnext fuel hnone => cases hr
  | case5 s hrest e agenda hnext fuel u hu ih =>
    rw [walk_deliver _ h.live hnext, dispatch_mono hu (Nat.le_succ fuel)]
    dsimp only
    by_cases hstopped : u.terminated = true ∨ u.stopRequested = true
    · obtain ⟨w, hw, hsame, hend⟩ := stopped_eq fuel hstopped
      cases hw.symm.trans hr
      exact ⟨_, walk_over _ hend, hsame⟩
    · obtain ⟨hl, hstop⟩ := not_or.1 hstopped
      rw [if_neg hstop]
      exact ih (h.onward hnext hu (by simpa using hl) (by simpa using hstop)) hr
  | case6 s hrest e agenda hnext fuel err u hu =>
    cases hr
    rw [walk_deliver _ h.live hnext, dispatch_mono hu (Nat.le_succ fuel), finish_of_terminated (terminated_finish u)]
    exact ⟨_, rfl, .same _⟩

/-- **Steps that run.** If the steps taken one by one come to an end, the run is answered too. -/
theorem loop_of_walk (h : Afoot s) {fuel : Nat} {q : Except SimError Unit} (hq : s.walk fuel = some (q, v)) :
    ∃ r t, s.loop none fuel = some (r, t) ∧ q = r.map (fun _ => ()) ∧ Unnoticed t.finish v := by
  induction fuel generalizing s with
  | zero => cases hq
  | succ fuel ih =>
    have hrest := h.rest?_eq
    cases hn : s.agenda.next? with
    | none =>
      rw [if_pos hn] at hrest
      cases (walk_empty fuel h.live hn).symm.trans hq
      exact ⟨_, s, loop_rest hrest _, rfl, .same _⟩
    | some x =>
      obtain ⟨e, agenda⟩ := x
      rw [if_neg (by simp [hn])] at hrest
      rw [walk_deliver fuel h.live hn] at hq
      rw [loop_deliver hrest hn]
      cases hd : ({ s with agenda } : Simulation ε μ W).dispatch fuel e with
      | none =>
        rw [hd] at hq
        cases hq
      | some x =>
        obtain ⟨err | _, u⟩ := x
        · rw [hd] at hq
          cases hq
          exact ⟨_, _, rfl, rfl, by rw [finish_of_terminated (terminated_finish u)]; exact .same _⟩
        rw [hd] at hq
        dsimp only at hq ⊢
        by_cases hstopped : u.terminated = true ∨ u.stopRequested = true
        · obtain ⟨w, hw, hsame, hend⟩ := stopped_eq fuel hstopped
          obtain ⟨fuel, rfl⟩ : ∃ n, fuel = n + 1 := by
            cases fuel with
            | zero => cases hq
            | succ n => exact ⟨n, rfl⟩
          cases (walk_over fuel hend).symm.trans hq
          exact ⟨_, w, hw, rfl, hsame⟩
        · obtain ⟨hl, hstop⟩ := not_or.1 hstopped
          rw [if_neg hstop] at hq
          exact ih (h.onward hn hd (by simpa using hl) (by simpa using hstop)) hq

/-- **Stepping agrees with running.** Take any simulation that calls can lead to, which has not ended, was not asked to
    stop and has no bounds. A run of it is answered if and only if the steps taken one by one come to an end. They fail
    with the error with which the run fails, or neither fails; the simulation is the same in the end, a notice in the
    log apart, and the same starts, reactions and shutdowns were made in the same order. -/
theorem walk_agrees_with_run (hs : Reached (fun _ _ _ _ => True) s) (hl : s.terminated = false)
    (hstop : s.stopRequested = false) (hu : s.limits.until? = none) (hm : s.limits.maxEvents? = none) :
    (∀ fuel r t, s.run fuel = some (r, t) →
      ∃ v, s.walk (fuel + 1) = some (r.map fun _ => (), v) ∧ Unnoticed t v ∧ v.visits = t.visits) ∧
    ∀ fuel q v, s.walk fuel = some (q, v) →
      ∃ r t, s.run fuel = some (r, t) ∧ q = r.map (fun _ => ()) ∧ Unnoticed t v ∧ v.visits = t.visits := by
  have h : Afoot s := ⟨hs, hl, hstop, hm⟩
  unfold run
  rw [hu]
  constructor
  · intro fuel r t hr
    obtain ⟨⟨r, u⟩, hloop, heq⟩ := Option.map_eq_some_iff.1 hr
    cases heq
    obtain ⟨v, hv, hsame⟩ := walk_of_loop h hloop
    exact ⟨v, hv, hsame, hsame.visits⟩
  · intro fuel q v hq
    obtain ⟨r, t, hloop, rfl, hsame⟩ := loop_of_walk h hq
    exact ⟨r, t.finish, by rw [hloop]; rfl, rfl, hsame, hsame.visits⟩

open Standin in
/-- a player whose first event brings in a guest that asks to stop as soon as it starts, and who has plans for later -/
def excursion : Simulation Player Cue Stage :=
  theatre.after 1 (.register ⟨"player",
    [.scheduleSelf 1 "early" [.spawn "guest" [.stop]] false, .scheduleSelf 3 "late" [] false], 0⟩)

theorem walk_agrees_with_run_of_excursion :
    Reached (fun _ _ _ _ => True) excursion ∧ ∃ t v, excursion.run 5 = some (.ok .stopped, t) ∧ t.dispatched = 1 ∧
      t.agenda.size = 1 ∧ excursion.walk 6 = some (.ok (), v) ∧ Unnoticed t v ∧ v.visits = t.visits := by
  obtain ⟨a, ha⟩ := call_after 1 theatre (.register ⟨"player",
    [.scheduleSelf 1 "early" [.spawn "guest" [.stop]] false, .scheduleSelf 3 "late" [] false], 0⟩) (by decide +kernel)
  have reached : Reached (fun _ _ _ _ => True) excursion := .call (.fresh _ _) ha trivial
  have answered : (excursion.run 5).map (fun x => (x.1.toOption, x.2.dispatched, x.2.agenda.size)) =
      some (some .stopped, 1, 1) := by decide +kernel
  obtain ⟨⟨_ | outcome, t⟩, hrun, heq⟩ := Option.map_eq_some_iff.1 answered
  · cases (Prod.mk.inj heq).1
  obtain ⟨houtcome, hcounts⟩ := Prod.mk.inj heq
  obtain ⟨hdispatched, hsize⟩ := Prod.mk.inj hcounts
  cases houtcome
  obtain ⟨walks, -⟩ := walk_agrees_with_run reached (by decide +kernel) (by decide +kernel) (by decide +kernel)
    (by decide +kernel)
  obtain ⟨v, hv, hsame, hvisits⟩ := walks 5 _ t hrun
  exact ⟨reached, t, v, hrun, hdispatched, hsize, hv, hsame, hvisits⟩

end Simulation

end BrokerSim
