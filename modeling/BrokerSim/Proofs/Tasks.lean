/-
No task is lost. A run reports on its manager's records when it ends (`Scenario.tasks_reported`): there is an entry for
each record, every task of the record is in it, as a success or as a failure, and so it is for all of them together.
- `Manager.gathered_eq`: a report is made of what the accounts hold.
- `Scenario.reported`: whoever reports has come to rest with everybody in place (`OnTrack`), alone with its subordinates
  (`Solo`), and with the accounts in order (`Provided`), wherever the run was cut off.
-/
import BrokerSim.Proofs.Kernel.Pause
import BrokerSim.Proofs.Provided
import BrokerSim.Proofs.Verdict

namespace BrokerSim

/-! ## Figures and results -/

theorem total_eq_zero {α : Type} {count : α → Nat} {l : List α} (h : ∀ x ∈ l, count x = 0) : total count l = 0 := by
  induction l with
  | nil => rfl
  | cons x l ih =>
    change count x + total count l = 0
    rw [h x List.mem_cons_self, ih fun y hy => h y (List.mem_cons_of_mem _ hy)]

/-- every result is a success or a failure -/
theorem SubordinateStats.successful_add_failed (id : EntityId) (name : String) (results : List TaskResult) :
    (ofResults id name results).successful + (ofResults id name results).failed = results.length :=
  (List.length_eq_length_filter_add fun r : TaskResult => r.status.isSuccess).symm

/-- an entry is about a record: it has a figure for each task, and the record has its time -/
structure ManagedRecord.Reported (r : ManagedRecord) (stats : SubordinateStats) : Prop where
  id : stats.id = r.subordinateId
  name : stats.name = r.name
  tasks : stats.successful + stats.failed = r.tasks.length
  metric : r.cumulativeMetric = stats.executionTime

/-- all tasks of all records -/
theorem total_reported {records : List ManagedRecord} {entries : List SubordinateStats}
    (h : List.Forall₂ ManagedRecord.Reported records entries) :
    total SubordinateStats.successful entries + total SubordinateStats.failed entries =
      total (fun r => r.tasks.length) records := by
  induction h with
  | nil => rfl
  | @cons r stats records entries first _ ih =>
    have htasks := first.tasks
    change (stats.successful + total _ entries) + (stats.failed + total _ entries) =
      r.tasks.length + total (fun r => r.tasks.length) records
    omega

namespace Manager

/-- a report is made of what the accounts hold -/
theorem gathered_eq (t : Timetable) (m : Manager) :
    m.gathered t = m.records.map fun r => .ofResults r.subordinateId r.name (t.account r.subordinateId).results := by
  have quiet : ∀ r, Exchange.Within Eq (statsOf r : Exchange Timetable SubordinateStats) :=
    statsOf_within fun _ => .read _
  refine (Exchange.mapM_fst quiet m.records t).trans (List.map_congr_left fun r _ => ?_)
  have asked : (ExecutionService.completedTasks r.subordinateId : Call Timetable (List TaskResult)) t =
      (t.completedTasks r.subordinateId, t, []) := rfl
  unfold statsOf
  simp only [bind, asked]
  unfold Timetable.completedTasks Timetable.account
  cases t.account? r.subordinateId <;> rfl

end Manager

/-- a timetable begins without accounts -/
theorem ExecutorSettings.timetable_ok {x : ExecutorSettings} {t : Timetable} (h : x.timetable = .ok t) :
    t.settings = x ∧ ∀ id, t.account? id = none := by
  unfold timetable at h
  split at h
  · cases h
  · cases h
    exact ⟨rfl, fun _ => Std.ExtTreeMap.getElem?_empty⟩

namespace Scenario

variable {settings : RunSettings} {fuel : Nat} {summary : RunSummary} {s : Run} {report : PerformanceReport}

/-- whatever the loop of a run comes to, the manager is alone with its subordinates, and the accounts are in order -/
theorem provided_loop {world : Timetable} {u v : Run} {id : EntityId} {remark : Remark} {horizon : Option Time}
    {r : Except SimError RunOutcome} (ht : settings.executor.timetable = .ok world)
    (begun : ((Simulation.fresh settings.limits world : Run).note (.remark remark)).register fuel
      (.manager (.ofSettings settings.manager)) = some (.ok id, u))
    (h : u.loop horizon fuel = some (r, v)) :
    ∃ m, Solo settings.manager m v ∧ Provided settings.executor m v := by
  obtain ⟨hsettings, empty⟩ := ExecutorSettings.timetable_ok ht
  obtain ⟨solo, settled, hworld, hsize, -⟩ := Solo.registered ((Simulation.Vacant.fresh _ _).remark remark) begun
  have hworld : u.world = world := hworld
  obtain ⟨_, w, legs, -, rest⟩ := Simulation.loop_legs (fun _ => False) horizon fuel u
  obtain ⟨rfl, rests⟩ := rest r v h
  have beats : Simulation.Beats (fun _ => False) u v :=
    (legs.quiet rests.legs).beats (fun _ => False.elim) settled.tidy settled.idle
  refine beats.keep (P := fun s => ∃ m, Solo settings.manager m s ∧ Provided settings.executor m s) ?_ settled.tidy
    settled.placed ⟨_, solo, .start (hworld ▸ hsettings) (hworld ▸ empty) hsize⟩
  rintro s t tidy placed beat ⟨m, solo, provided⟩
  obtain ⟨m', solo', taken⟩ := solo.step tidy placed beat
  exact ⟨m', solo', provided.step solo taken⟩

/-- whoever reports has come to rest with everybody in place and all accounts in order, and reports on that -/
theorem reported (h : run settings fuel = some (.ok (summary, s))) (hr : summary.report? = some report) :
    ∃ (m : Manager) (t : Run), Solo settings.manager m t ∧ Provided settings.executor m t ∧
      t.nextId = t.entities.size ∧ report = .ofStats t.now (m.gathered t.world) ∧
      summary.records = List.zipWith Manager.refresh m.records (m.gathered t.world) := by
  cases ht : settings.executor.timetable with
  | error e => cases (run_refused ht fuel).symm.trans h
  | ok world =>
    by_cases hd : ∃ a ∈ settings.manager.schedule, Agenda.accepts a.delay = false
    · -- a manager that cannot start makes no report
      obtain ⟨reason, u, hrun, hmanager, -⟩ := run_misplaced ht hd fuel
      cases hrun.symm.trans h
      rw [summarize, hmanager] at hr
      cases hr
    have hd : ∀ a ∈ settings.manager.schedule, Agenda.accepts a.delay = true := by
      intro a ha
      by_contra hn
      exact hd ⟨a, ha, Bool.eq_false_iff.2 hn⟩
    obtain ⟨u, todo, hsorted, hperm, hon, -, ⟨id, r, begun⟩, hrun⟩ := run_started ht hd fuel
    have hunder : UnderWay settings _ u := ⟨todo, _, _, hsorted, hon, rfl⟩
    obtain ⟨⟨r', v⟩, hloop, heq⟩ := Option.map_eq_some_iff.1 (hrun.symm.trans h)
    cases heq
    -- the run would come to rest with more fuel, and so it has
    obtain ⟨outcome, -, w, v', hrests, ⟨_, _, _, -, hon', -⟩, hrest⟩ :=
      Simulation.loop_rests (fun k s h hr => UnderWay.step h hr) hunder (Nat.lt_succ_of_le (le_max_right fuel _))
    cases (Simulation.loop_mono hloop (Nat.le_succ_of_le (le_max_left fuel _))).symm.trans hrests
    obtain ⟨-, hon'⟩ := hon'.of_rest? hrest
    obtain ⟨m, solo, provided⟩ := provided_loop ht begun hloop
    obtain ⟨name, n, hslot, -, -⟩ := hon'.staffed.manager
    obtain ⟨slot, hslot', hm⟩ := solo.manager
    cases hslot.symm.trans hslot'
    cases hm
    have hmanager := manager?_first (Simulation.finish_first hon'.live hslot rfl) rfl
    rw [summarize, hmanager] at hr ⊢
    cases hr
    exact ⟨_, v, solo, provided, hon'.placed, rfl, rfl⟩

/-- **No task is lost between its assignment and the report.** Whenever a run ends with a report, wherever it was cut
    off, the report has one entry for each record, in the order of creation, with its id and its name. Each task of a
    record is in its entry, as a success or as a failure, and the record has the entry's time; together that is every
    task that was assigned. Where tasks always fail, none is a success, and where they never do, none is a failure. -/
theorem tasks_reported (h : run settings fuel = some (.ok (summary, s))) (hr : summary.report? = some report) :
    List.Forall₂ ManagedRecord.Reported summary.records report.subordinates ∧
      report.totalSuccessful + report.totalFailed = total (fun r => r.tasks.length) summary.records ∧
      ((settings.executor.failureRate == 1) = true → report.totalSuccessful = 0) ∧
      ((settings.executor.failureRate == 0) = true → report.totalFailed = 0) := by
  obtain ⟨m, t, solo, provided, full, rfl, hrecords⟩ := reported h hr
  let results (r : ManagedRecord) : List TaskResult := (t.world.account r.subordinateId).results
  let entry (r : ManagedRecord) : SubordinateStats := .ofResults r.subordinateId r.name (results r)
  have gathered : m.gathered t.world = m.records.map entry := m.gathered_eq t.world
  have executed : ∀ r ∈ m.records, (results r).length = r.tasks.length ∧
      ∀ result ∈ results r, result.Befits settings.executor := by
    intro r hr
    obtain ⟨a, ha⟩ := provided.account solo full (List.mem_map_of_mem hr)
    obtain ⟨hids, befits⟩ := provided.results _ (List.mem_map_of_mem hr) a ha
    have heq : results r = a.results := congrArg Account.results (Timetable.account_eq ha)
    have hlength := congrArg List.length hids
    rw [List.length_map, List.length_map] at hlength
    exact ⟨heq ▸ hlength, heq ▸ befits⟩
  have matched : List.Forall₂ ManagedRecord.Reported summary.records (m.gathered t.world) := by
    rw [hrecords, gathered, List.zipWith_map_right, List.zipWith_self]
    refine List.forall₂_map_left_iff.2 (List.forall₂_map_right_iff.2 (List.forall₂_same.2 fun r hr => ?_))
    exact ⟨rfl, rfl, (SubordinateStats.successful_add_failed _ _ _).trans (executed r hr).1, rfl⟩
  -- figures that count results of which there are none
  have none : ∀ (count : SubordinateStats → Nat) (such : TaskResult → Bool),
      (∀ r, count (entry r) = ((results r).filter such).length) →
      (∀ r ∈ m.records, ∀ result ∈ results r, such result = false) → total count (m.gathered t.world) = 0 := by
    intro count such hcount hsuch
    refine total_eq_zero fun stats hstats => ?_
    rw [gathered] at hstats
    obtain ⟨r, hr, rfl⟩ := List.mem_map.1 hstats
    rw [hcount, List.filter_eq_nil_iff.2 fun result hresult => Bool.eq_false_iff.1 (hsuch r hr result hresult)]
    rfl
  refine ⟨matched, total_reported matched, fun hone => ?_, fun hzero => ?_⟩
  · exact none _ (fun result => result.status.isSuccess) (fun _ => rfl) fun r hr result hresult =>
      ((executed r hr).2 result hresult).fails hone
  · refine none _ (fun result => !result.status.isSuccess) (fun _ => rfl) fun r hr result hresult => ?_
    rw [((executed r hr).2 result hresult).succeeds hzero]
    rfl

/-- every task fails, and the run is cut off when the second subordinate has just started -/
def doomedSettings : RunSettings where
  limits := { until? := some 5 }
  manager := {
    schedule := [⟨0, .createSubordinate (some "light")⟩, ⟨5, .createSubordinate (some "late")⟩,
      ⟨9, .analyzePerformance⟩] }
  executor := { failureRate := 1 }

theorem tasks_reported_of_doomed :
    ∃ summary s report, run doomedSettings 20 = some (.ok (summary, s)) ∧ summary.report? = some report ∧
      List.Forall₂ ManagedRecord.Reported summary.records report.subordinates ∧
      report.totalSuccessful = 0 ∧ report.totalFailed = 7 := by
  have assigned : (run doomedSettings 20).map (fun r => r.map fun (summary, _) =>
      (summary.report?.isSome, total (fun r => r.tasks.length) summary.records)) = some (.ok (true, 7)) := by
    decide +kernel
  obtain ⟨_ | ⟨summary, s⟩, hrun, heq⟩ := Option.map_eq_some_iff.1 assigned
  · cases heq
  obtain ⟨hsome, htasks⟩ := Prod.mk.inj (Except.ok.inj heq)
  obtain ⟨report, hr⟩ := Option.isSome_iff_exists.1 hsome
  obtain ⟨matched, all, failed, -⟩ := tasks_reported hrun hr
  have hzero := failed (by decide)
  rw [hzero, htasks, Nat.zero_add] at all
  exact ⟨summary, s, report, hrun, hr, matched, hzero, all⟩

end Scenario

end BrokerSim
