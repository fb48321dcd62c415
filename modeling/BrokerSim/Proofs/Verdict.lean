/-
How a run can end, for any settings.
- `Scenario.run_verdict`: settings that the timetable refuses give no run. A delay that is negative, infinite or not a
  number halts the run at once, before anything has happened. Nothing else halts a run: no label, policy, limit, horizon
  or setting of the timetable. Every other run comes to rest, and its manager makes a last report.

A run that has begun is `UnderWay`: it is on track, and each event makes the measure smaller that bounds what can still
happen. So no error ends it, whatever the bounds of the run are.
-/
import BrokerSim.Proofs.Scenario

namespace BrokerSim

/-! ## Settings that are refused -/

/-- settings that no timetable takes: a failure rate that is no probability, no datacenter, or infinite noise -/
def ExecutorSettings.IsRefused (x : ExecutorSettings) : Prop :=
  (x.failureRate < 0 ∨ 1 < x.failureRate ∨ x.failureRate.isNaN = true) ∨ x.datacenterCount = 0 ∨
    (0 < x.jitter ∧ x.jitter.isInf = true)

instance (x : ExecutorSettings) : Decidable x.IsRefused :=
  inferInstanceAs (Decidable ((x.failureRate < 0 ∨ 1 < x.failureRate ∨ x.failureRate.isNaN = true) ∨
    x.datacenterCount = 0 ∨ (0 < x.jitter ∧ x.jitter.isInf = true)))

/-- a delay for which nothing can be scheduled -/
def ScheduledAction.IsMisplaced (a : ScheduledAction) : Prop :=
  a.delay < 0 ∨ a.delay.isNaN = true ∨ a.delay.isInf = true

instance (a : ScheduledAction) : Decidable a.IsMisplaced :=
  inferInstanceAs (Decidable (a.delay < 0 ∨ a.delay.isNaN = true ∨ a.delay.isInf = true))

theorem ScheduledAction.isMisplaced_iff (a : ScheduledAction) :
    a.IsMisplaced ↔ Agenda.accepts a.delay = false := by
  rw [IsMisplaced, Time.accepts_eq]
  simp only [Bool.not_eq_false', Bool.or_eq_true, decide_eq_true_eq]
  tauto

theorem ExecutorSettings.isRefused_iff (x : ExecutorSettings) : x.IsRefused ↔ ∃ e, x.timetable = .error e := by
  have hrate : (!(decide (0 ≤ x.failureRate) && decide (x.failureRate ≤ 1))) = true ↔
      (x.failureRate < 0 ∨ 1 < x.failureRate ∨ x.failureRate.isNaN = true) := by
    rw [Bool.not_eq_true', ← Bool.not_eq_true, Bool.and_eq_true, decide_eq_true_eq, decide_eq_true_eq,
      Time.within_unit_iff, not_not]
  have hnoise : (x.isNoisy && !x.jitter.isFinite) = true ↔ 0 < x.jitter ∧ x.jitter.isInf = true := by
    rw [isNoisy, Bool.and_eq_true, decide_eq_true_eq, Bool.not_eq_true']
    refine and_congr_right fun h => ?_
    rw [Time.isFinite_of_pos h, Bool.not_eq_false']
  unfold IsRefused timetable fault?
  rw [← hnoise, ← hrate]
  split_ifs with h1 h2 h3 <;> simp_all

/-! ## A start that fails -/

/-- a manager with a misplaced action does not start -/
theorem Manager.play_start_misplaced {ε W : Type} [ExecutionService W] (self : EntityId) (m : Manager)
    (s : Simulation ε Signal W) (hm : ∃ a ∈ m.settings.schedule, Agenda.accepts a.delay = false) :
    ∃ reason t, (start : Reaction Manager ε Signal W Unit).play self m s =
      ((.error (.invalidSchedule reason), m), t) := by
  have h : ∀ (l : List ScheduledAction) (s : Simulation ε Signal W),
      (∃ a ∈ l, Agenda.accepts a.delay = false) →
      ∃ reason t, (l.forM fun scheduled => do
          let _ ← Reaction.scheduleSelf scheduled.delay scheduled.action.signal : Reaction Manager ε Signal W Unit).play
            self m s = ((.error (.invalidSchedule reason), m), t) := by
    intro l
    induction l with
    | nil => exact fun _ h => absurd h (by simp)
    | cons a l ih =>
      intro s hl
      simp only [List.forM, Reaction.play_bind, Reaction.play_scheduleSelf]
      cases ha : Agenda.accepts a.delay with
      | false =>
        obtain ⟨reason, hs⟩ := s.schedule_refused ha self self a.action.signal
        rw [hs]
        exact ⟨reason, s, rfl⟩
      | true =>
        obtain ⟨handle, agenda, hs⟩ := s.schedule_accepted ha self self a.action.signal
        rw [hs]
        refine ih { s with agenda } ?_
        obtain ⟨b, hb, hr⟩ := hl
        rcases List.mem_cons.1 hb with rfl | hb
        · exact absurd (ha.symm.trans hr) (by decide)
        · exact ⟨b, hb, hr⟩
  unfold start
  simp only [Reaction.play_bind, Reaction.play_get, Reaction.play_view, Reaction.play_remark]
  exact h m.settings.schedule _ hm

namespace Scenario

variable {settings : RunSettings} {todo : List (ScheduledAction × Handle)} {l : Ledger} {s t : Run} {p : Plain Signal}
  {horizon : Option Time} {world : Timetable}

/-- a misplaced action halts the run before anything has happened -/
theorem run_misplaced (ht : settings.executor.timetable = .ok world)
    (hm : ∃ a ∈ settings.manager.schedule, Agenda.accepts a.delay = false) (fuel : Nat) :
    ∃ reason u, run settings fuel = some (.ok (summarize settings (.error (.invalidSchedule reason)) u,
        logHalt settings (.error (.invalidSchedule reason)) u)) ∧
      manager? u = some (.ofSettings settings.manager) ∧ u.dispatched = 0 := by
  let s : Run := (Simulation.fresh settings.limits world : Run).note
    (.remark ⟨.info, s!"Running {settings.manager.name} until the queue drains"⟩)
  let m := Manager.ofSettings settings.manager
  let start := (s.nameNext (.manager m)).2.starting 0 (.manager m)
  obtain ⟨reason, t, hplay⟩ := Manager.play_start_misplaced 0 m start hm
  have hagent := Agent.play_start_manager 0 start m
  rw [hplay] at hagent
  obtain ⟨u, hu, hcore, hcounters⟩ := Simulation.register_failed fuel (s := s) rfl rfl hagent rfl
  have hentities : u.entities = #[⟨settings.manager.name, .shutdown, .manager m⟩] :=
    (congrArg Simulation.entities hcore :)
  refine ⟨reason, u, ?_, ?_, congrArg Simulation.Counters.dispatched hcounters⟩
  · unfold run play
    have hu : s.register fuel (.manager (.ofSettings settings.manager)) =
      some (.error (.invalidSchedule reason), u) := hu
    simp only [ht, s, hu, bind, Option.bind]
    rfl
  · rw [manager?, hentities]
    rfl

/-! ## Runs under way -/

/-- a run on track in which no more than `k` events are still delivered -/
def UnderWay (settings : RunSettings) (k : Nat) (s : Run) : Prop :=
  ∃ todo l p, todo.Pairwise (fun x y => (Manager.planned 0 0 x).key ≤ (Manager.planned 0 0 y).key) ∧
    OnTrack settings todo l s p ∧ 2 * todo.length + p.live.length = k

/-- a run that is not at rest has a next event -/
theorem OnTrack.next (h : OnTrack settings todo l s p) (hr : s.rest? horizon = none) :
    ∃ e agenda q, s.agenda.next? = some (e, agenda) ∧ p.next? = some (e, q) ∧ Refines agenda q := by
  have htime : s.agenda.nextTime? = p.nextTime? := congrArg Display.nextTime? (h.refines.display h.sound)
  have hnext := h.refines.next h.sound
  cases hp : p.next? with
  | none =>
    rw [Plain.nextTime?, hp] at htime
    unfold Simulation.rest? at hr
    rw [htime] at hr
    split_ifs at hr
    split at hr <;> cases hr
  | some x =>
    obtain ⟨e, q⟩ := x
    rw [hp] at hnext
    cases ha : s.agenda.next? with
    | none =>
      rw [ha] at hnext
      exact hnext.elim
    | some y =>
      obtain ⟨f, agenda⟩ := y
      rw [ha] at hnext
      obtain ⟨rfl, hr⟩ := hnext
      exact ⟨f, agenda, q, rfl, rfl, hr⟩

/-- one event of a run under way: no error ends it -/
theorem UnderWay.step {k : Nat} (h : UnderWay settings k s) (hr : s.rest? horizon = none) :
    ∃ e agenda, s.agenda.next? = some (e, agenda) ∧ ∀ fuel, ∃ j u,
      ({ s with agenda } : Run).dispatch (fuel + 1) e = some (.ok (), u) ∧ j < k ∧ UnderWay settings j u := by
  obtain ⟨todo, l, p, hs, hon, rfl⟩ := h
  obtain ⟨e, agenda, q, hnext, hp, hq⟩ := hon.next hr
  refine ⟨e, agenda, hnext, ?_⟩
  intro fuel
  obtain ⟨u, q', todo', hu, hlt, hcases⟩ := hon.step hs hq hp fuel
  refine ⟨_, u, hu, hlt, ?_⟩
  rcases hcases with ⟨rfl, hon', -⟩ | ⟨x, rfl, -, hon', -⟩
  · exact ⟨todo', l, q', hs, hon', rfl⟩
  · exact ⟨todo', _, q', (List.pairwise_cons.1 hs).2, hon', rfl⟩

/-- a run on track comes to rest for lack of events or at one of its bounds; nobody asked to stop -/
theorem OnTrack.of_rest? (h : OnTrack settings todo l s p) {outcome : RunOutcome}
    (hr : s.rest? horizon = some (outcome, t)) : outcome ≠ .stopped ∧ OnTrack settings todo l t p := by
  unfold Simulation.rest? at hr
  rw [h.live, h.going, if_neg Bool.false_ne_true, if_neg Bool.false_ne_true] at hr
  split at hr
  · cases hr
    exact ⟨by decide, h.of_core rfl⟩
  · split at hr
    · cases hr
      exact ⟨by decide, h⟩
    · split_ifs at hr
      cases hr
      exact ⟨by decide, h⟩

/-- once the manager is registered, with a delay for every action that is accepted, the rest is the loop of the run -/
theorem run_started (ht : settings.executor.timetable = .ok world)
    (hd : ∀ a ∈ settings.manager.schedule, Agenda.accepts a.delay = true) (fuel : Nat) :
    ∃ u todo, todo.Pairwise (fun x y => (Manager.planned 0 0 x).key ≤ (Manager.planned 0 0 y).key) ∧
      todo.Perm settings.manager.schedule.zipIdx ∧
      OnTrack settings todo { strategy := settings.manager.initialStrategy } u
        (({} : Plain Signal).extend (settings.manager.schedule.zipIdx.map (Manager.planned 0 0))) ∧
      u.counters = { dispatched := 0, registered := 1, spawned := 0, recoverable := {} } ∧
      (∃ id r, ((Simulation.fresh settings.limits world : Run).note (.remark r)).register fuel
        (.manager (.ofSettings settings.manager)) = some (.ok id, u)) ∧
      run settings fuel = (u.loop settings.limits.until? fuel).map fun (r, v) =>
        .ok (summarize settings r v.finish, logHalt settings r v.finish) := by
  obtain ⟨todo, hperm, hsorted, -⟩ := exists_sorted hd
  obtain ⟨id, u, hregister, hon, hcounters⟩ := manager_registered fuel world hperm hd
    (.remark ⟨.info, s!"Running {settings.manager.name} until the queue drains"⟩)
  refine ⟨u, todo, hsorted, hperm, hon, hcounters, ⟨id, _, hregister⟩, ?_⟩
  unfold run play Simulation.run
  simp only [ht, hregister, hon.limits, bind, Option.bind]
  cases u.loop settings.limits.until? fuel <;> rfl

/-! ## The whole run -/

theorem run_refused {e : SimError} (ht : settings.executor.timetable = .error e) (fuel : Nat) :
    run settings fuel = some (.error e) := by
  unfold run
  rw [ht]
  rfl

/-- a run whose actions can all be scheduled comes to rest, with a last report and without an error -/
theorem run_rests (ht : settings.executor.timetable = .ok world)
    (hd : ∀ a ∈ settings.manager.schedule, Agenda.accepts a.delay = true) {fuel : Nat}
    (hf : 3 * settings.manager.schedule.length < fuel) :
    ∃ outcome summary s, run settings fuel = some (.ok (summary, s)) ∧ summary.error? = none ∧
      summary.outcome? = some outcome ∧ outcome ≠ .stopped ∧ ∃ report, summary.report? = some report := by
  obtain ⟨u, todo, hsorted, hperm, hon, -, -, hrun⟩ := run_started ht hd fuel
  have hunder : UnderWay settings (3 * settings.manager.schedule.length) u := by
    refine ⟨todo, _, _, hsorted, hon, ?_⟩
    rw [hperm.length_eq]
    simp only [Plain.extend, List.nil_append, List.length_map, List.length_zipIdx]
    omega
  obtain ⟨outcome, j, v, w, hloop, ⟨todo', l, q, -, hon', -⟩, hrest⟩ :=
    Simulation.loop_rests (fun k s h hr => UnderWay.step h hr) hunder hf
  obtain ⟨houtcome, hon'⟩ := hon'.of_rest? hrest
  obtain ⟨m, world, hmanager, -⟩ := hon'.manager?_finish
  rw [hloop] at hrun
  refine ⟨outcome, _, _, hrun, rfl, rfl, houtcome, ?_⟩
  rw [summarize, hmanager]
  exact ⟨_, rfl⟩

/-- **How a run ends.** The run is refused if and only if the timetable refuses its settings. Else it is halted if and
    only if some action is misplaced, and then nothing has happened. A run that is not halted has an outcome, which is
    never a stop, and a last report. -/
theorem run_verdict (settings : RunSettings) {fuel : Nat} (hf : 3 * settings.manager.schedule.length < fuel) :
    ((∃ e, run settings fuel = some (.error e)) ↔ settings.executor.IsRefused) ∧
    (¬ settings.executor.IsRefused → ∃ summary s, run settings fuel = some (.ok (summary, s)) ∧
      (summary.halted = true ↔ ∃ a ∈ settings.manager.schedule, a.IsMisplaced) ∧
      (summary.halted = true → summary.outcome? = none ∧ (∃ e, summary.error? = some e) ∧
        summary.stats.dispatched = 0 ∧ summary.records = [] ∧ summary.creationFailures = [] ∧
        summary.finalStrategy = settings.manager.initialStrategy ∧ summary.report? = none) ∧
      (summary.halted = false → summary.error? = none ∧
        (summary.outcome? = some .drained ∨ summary.outcome? = some .horizon ∨ summary.outcome? = some .eventLimit) ∧
        ∃ report, summary.report? = some report)) := by
  have hrefused := settings.executor.isRefused_iff
  cases ht : settings.executor.timetable with
  | error e =>
    have hr := hrefused.2 ⟨e, ht⟩
    exact ⟨iff_of_true ⟨e, run_refused ht fuel⟩ hr, fun h => absurd hr h⟩
  | ok world =>
    have hr : ¬ settings.executor.IsRefused := by
      rw [hrefused, ht]
      simp
    have answered : ∀ {summary s}, run settings fuel = some (.ok (summary, s)) →
        ¬ ∃ e, run settings fuel = some (.error e) := by
      rintro summary s hrun ⟨e, he⟩
      cases hrun.symm.trans he
    by_cases hm : ∃ a ∈ settings.manager.schedule, a.IsMisplaced
    · have hm' := hm
      simp only [ScheduledAction.isMisplaced_iff] at hm'
      obtain ⟨reason, u, hrun, hmanager, hdispatched⟩ := run_misplaced ht hm' fuel
      refine ⟨iff_of_false (answered hrun) hr, fun _ => ⟨_, _, hrun, iff_of_true rfl hm, ?_, fun h => ?_⟩⟩
      · intro _
        rw [summarize, hmanager]
        exact ⟨rfl, ⟨_, rfl⟩, hdispatched, rfl, rfl, rfl, rfl⟩
      · cases h
    · have hd : ∀ a ∈ settings.manager.schedule, Agenda.accepts a.delay = true := by
        intro a ha
        by_contra hn
        exact hm ⟨a, ha, a.isMisplaced_iff.2 (by simpa using hn)⟩
      obtain ⟨outcome, summary, s, hrun, herror, houtcome, hstopped, hreport⟩ := run_rests ht hd hf
      have hgood : ¬ summary.halted = true := by
        rw [RunSummary.halted, herror]
        exact Bool.false_ne_true
      refine ⟨iff_of_false (answered hrun) hr, fun _ => ⟨_, _, hrun, iff_of_false hgood hm, fun h => absurd h hgood, ?_⟩⟩
      refine fun _ => ⟨herror, ?_, hreport⟩
      rw [houtcome]
      cases outcome with
      | stopped => exact absurd rfl hstopped
      | drained => exact .inl rfl
      | horizon => exact .inr (.inl rfl)
      | eventLimit => exact .inr (.inr rfl)

/-- one action can be scheduled, the next one cannot -/
def hastySettings : RunSettings where
  manager := { schedule := [⟨0, .createSubordinate (some "Peak")⟩, ⟨-1, .monitorResources⟩] }

/-- every bound is out of order, but the schedule is not -/
def carelessSettings : RunSettings where
  limits := { until? := some (0 / 0), maxEvents? := some 1 }
  manager := {
    maxSubordinates := 0, collectionInterval := 1 / 0, resultsTimeout := -1
    schedule := [⟨3, .createSubordinate (some "\n")⟩, ⟨0, .createSubordinate none⟩] }

theorem run_verdict_of_hasty_and_careless :
    (∃ summary s, run hastySettings 7 = some (.ok (summary, s)) ∧ summary.halted = true ∧ summary.records = []) ∧
      ∃ summary s, run carelessSettings 7 = some (.ok (summary, s)) ∧ summary.error? = none := by
  have haccepted : ¬ ({} : ExecutorSettings).IsRefused := by decide +kernel
  obtain ⟨-, h⟩ := run_verdict hastySettings (by decide : 3 * 2 < 7)
  obtain ⟨summary, s, hrun, hhalted, hnothing, -⟩ := h haccepted
  have hhalted := hhalted.2 ⟨⟨-1, .monitorResources⟩, by simp [hastySettings], by decide +kernel⟩
  refine ⟨⟨summary, s, hrun, hhalted, (hnothing hhalted).2.2.2.1⟩, ?_⟩
  obtain ⟨-, h⟩ := run_verdict carelessSettings (by decide : 3 * 2 < 7)
  obtain ⟨summary, s, hrun, hhalted, -, hrested⟩ := h haccepted
  refine ⟨summary, s, hrun, (hrested ?_).1⟩
  rw [← Bool.not_eq_true, hhalted]
  decide +kernel

end Scenario

end BrokerSim
