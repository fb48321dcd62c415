/-
Subordinates that share a timetable from which nothing is drawn, and do not notice each other.
- `Timetable.Shares`: two timetables without draws that hold the same of one subordinate, whatever they hold of others.
- `Shares.serve`, `Shares.serve_other`: the subordinate's own requests do the same on both and are answered alike, and a
  request of anybody else need only be made on one of them.
- `Timetable.seclusion`: so what a subordinate is told depends on its own requests alone, however others' come between.
-/
import BrokerSim.Proofs.Quiet

namespace BrokerSim

namespace Timetable

variable {id : EntityId} {t u v : Timetable}

/-! ## What one subordinate can tell apart -/

/-- two timetables that draw nothing, and hold the same of one subordinate -/
structure Shares (id : EntityId) (t u : Timetable) : Prop where
  quiet : t.settings.Quiet
  settings : u.settings = t.settings
  account? : u.account? id = t.account? id

theorem Shares.account (h : Shares id t u) : u.account id = t.account id := by
  rw [Timetable.account, h.account?, Timetable.account]

theorem Shares.setAccount (h : Shares id t u) (a : Account) : Shares id (t.setAccount id a) (u.setAccount id a) := by
  refine ⟨h.quiet, h.settings, ?_⟩
  rw [account?_setAccount, account?_setAccount, if_pos rfl, if_pos rfl]

/-- a task comes to the same: its fate is no draw, and its machine is one of the account -/
theorem Shares.execute (h : Shares id t u) (task : Task) : Shares id (t.execute id task) (u.execute id task) := by
  have quiet : u.settings.Quiet := h.settings ▸ h.quiet
  unfold Timetable.execute
  rw [drawFate_quiet h.quiet, drawFate_quiet quiet, h.account, h.settings]
  have same : Shares id t { u with settings := t.settings } := ⟨h.quiet, rfl, h.account?⟩
  exact same.setAccount (.record ((t.account id).place t.settings.datacenterCount.toNat task ⟨false, 1⟩))

theorem Shares.foldl_execute (h : Shares id t u) (tasks : List Task) :
    Shares id (tasks.foldl (Timetable.execute id) t) (tasks.foldl (Timetable.execute id) u) := by
  induction tasks generalizing t u with
  | nil => exact h
  | cons task tasks ih => exact ih (h.execute task)

/-- **A request of its own** is answered alike and does the same. -/
theorem Shares.serve (h : Shares id t u) {r : Request} (hr : r.id = id) :
    (r.call u).1 = (r.call t).1 ∧ Shares id (t.serve r) (u.serve r) := by
  subst hr
  cases r with
  | submitVms owner vms =>
    refine ⟨rfl, ?_⟩
    change Shares owner (t.setAccount owner _) (u.setAccount owner _)
    rw [show u.account owner = t.account owner from h.account]
    exact h.setAccount _
  | submitTasks owner tasks =>
    refine ⟨rfl, ?_⟩
    change Shares owner (tasks.foldl _ (t.setAccount owner _)) (tasks.foldl _ (u.setAccount owner _))
    rw [show u.account owner = t.account owner from h.account]
    exact (h.setAccount _).foldl_execute tasks
  | applyStrategy owner strategy =>
    have same : u.account? owner = t.account? owner := h.account?
    unfold Timetable.serve
    cases ht : t.account? owner with
    | none =>
      rw [call_applyStrategy_unknown ht, call_applyStrategy_unknown (same.trans ht)]
      exact ⟨rfl, h⟩
    | some a =>
      rw [call_applyStrategy_known ht, call_applyStrategy_known (same.trans ht)]
      exact ⟨rfl, h.setAccount _⟩

/-- **A request of somebody else** is nothing to it. -/
theorem Shares.serve_other (h : Shares id t u) {r : Request} (hr : r.id ≠ id) : Shares id (t.serve r) u := by
  have apart := apart_serve t r
  refine ⟨apart.settings ▸ h.quiet, h.settings.trans apart.settings.symm, ?_⟩
  exact h.account?.trans (apart.others id hr.symm).symm

/-! ## Requests of many -/

/-- what a subordinate is answered to its requests, among those of others -/
def answers (id : EntityId) : List Request → Timetable → List (Except SimError Unit)
  | [], _ => []
  | r :: requests, t =>
    if r.id = id then (r.call t).1 :: answers id requests (t.serve r) else answers id requests (t.serve r)

/-- requests of others can be left out -/
theorem Shares.after (h : Shares id t u) (requests : List Request) :
    Shares id (t.after requests) (u.after (requests.filter fun r => r.id = id)) ∧
      answers id (requests.filter fun r => r.id = id) u = answers id requests t := by
  induction requests generalizing t u with
  | nil => exact ⟨h, rfl⟩
  | cons r requests ih =>
    by_cases hr : r.id = id
    · obtain ⟨answer, shares⟩ := h.serve hr
      obtain ⟨after, answers⟩ := ih shares
      rw [List.filter_cons_of_pos (by simpa using hr)]
      refine ⟨after, ?_⟩
      simp only [Timetable.answers, if_pos hr, answer, answers]
    · obtain ⟨after, answers⟩ := ih (h.serve_other hr)
      rw [List.filter_cons_of_neg (by simpa using hr)]
      refine ⟨after, ?_⟩
      simp only [Timetable.answers, if_neg hr, answers]

/-- **Seclusion.** Where no task fails and there is no noise: if the requests for one subordinate are the same in two
    rows of requests, then it is answered the same in both, and its results, machines and strategies are the same at the
    end, whatever is asked for others before, between and after. -/
theorem seclusion (hfails : (t.settings.failureRate == 0) = true) (hjitter : ¬ 0 < t.settings.jitter)
    {requests others : List Request}
    (h : (requests.filter fun r => r.id = id) = others.filter fun r => r.id = id) :
    (t.after requests).completedTasks id = (t.after others).completedTasks id ∧
      (t.after requests).vmCount id = (t.after others).vmCount id ∧
      (t.after requests).strategiesApplied id = (t.after others).strategiesApplied id ∧
      answers id requests t = answers id others t := by
  have start : Shares id t t := ⟨t.settings.quiet hfails hjitter, rfl, rfl⟩
  -- both rows come to what the subordinate's own requests come to
  obtain ⟨left, leftAnswers⟩ := start.after requests
  obtain ⟨right, rightAnswers⟩ := start.after others
  rw [h] at left leftAnswers
  have same : (t.after requests).account? id = (t.after others).account? id := left.account?.symm.trans right.account?
  refine ⟨?_, ?_, ?_, leftAnswers.symm.trans rightAnswers⟩
  · rw [completedTasks, same, completedTasks]
  · rw [vmCount, account, same, vmCount, account]
  · rw [strategiesApplied, account, same, strategiesApplied, account]

/-- the requests of one subordinate, with a strategy for another one in front and a task for it behind -/
def nightShift : List Request :=
  .applyStrategy 8 .roundRobin :: (shift.filter fun r => r.id = 7) ++ [.submitTasks 8 [⟨0, 10, 1, 300, 300⟩]]

theorem seclusion_of_shift :
    ∃ t, Scenario.stillSettings.executor.timetable = .ok t ∧
      (t.after shift).completedTasks 7 = (t.after nightShift).completedTasks 7 ∧
      answers 7 shift t = answers 7 nightShift t ∧ (answers 7 shift t).length = 5 ∧
      (t.after shift).vmCount 8 = 1 ∧ (t.after nightShift).vmCount 8 = 0 := by
  let t : Timetable := { settings := Scenario.stillSettings.executor, stream := .ofSeed 42 }
  have own : (shift.filter fun r => r.id = 7) = nightShift.filter fun r => r.id = 7 := rfl
  obtain ⟨results, -, -, answered⟩ := seclusion (t := t) (by decide) (by decide) own
  exact ⟨t, rfl, results, answered, rfl, by decide +kernel, by decide +kernel⟩

/-- where tasks may fail, a task of somebody else takes a draw, and one of the first subordinate's succeeds that would
    have failed -/
theorem draws_are_shared :
    ∃ t, fickle.timetable = .ok t ∧
      ((t.after shift).account 7).results.map (fun r => r.status.isSuccess) = [false, true, true, false, false, true] ∧
      ((t.after (shift.filter fun r => r.id = 7)).account 7).results.map (fun r => r.status.isSuccess) =
        [false, true, true, false, false, false] :=
  ⟨{ settings := fickle, stream := .ofSeed 42 }, rfl, by decide +kernel, by decide +kernel⟩

end Timetable

end BrokerSim
