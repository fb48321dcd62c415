/-
The timeline of a run, as its settings tell it.
- `timeline` is the schedule in order of time, cut at the horizon; actions for one time stand as in the schedule.
- `Ledger.act` says what one action leaves behind: a create is refused for the first reason that holds or appends the
  next record, a change of strategy goes one strategy further, and the other two leave nothing.
- `Manager.play_action`: a manager that reacts to an action does just that, and nothing that ends the run.
- `exists_sorted`: the events of the schedule leave the agenda in the order of the timeline.
-/
import BrokerSim.Proofs.Broker
import BrokerSim.Scenario

namespace BrokerSim

/-! ## What actions leave behind -/

/-- what a manager has to show for its actions -/
structure Ledger where
  numbering : Numbering := {}
  records : List ManagedRecord := []
  failures : List CreationFailure := []
  strategy : Strategy

namespace Ledger

def refuse (failure : CreationFailure) (l : Ledger) : Ledger := { l with failures := l.failures ++ [failure] }

/-- record number `k` is that of subordinate `k`, counted from one -/
def hire (time : Time) (label : String) (c : WorkloadClass) (l : Ledger) : Ledger :=
  let k := l.records.length + 1
  let (bundle, numbering) := l.numbering.allocate c
  { l with
    numbering
    records := l.records ++ [{
      subordinateId := k, name := s!"GlobalManagedBroker_{k}_{Text.trim label}", workload := c, vms := bundle.vms
      tasks := bundle.tasks, createdAt := time }] }

/-- a request at a time: the label is looked at first, then the policy, then how many subordinates there are -/
def create (settings : ManagerSettings) (time : Time) : Option String → Ledger → Ledger
  | none, l => l.refuse .missingWorkload
  | some label, l =>
    match WorkloadClass.ofRequest label, settings.policy.fault? with
    | .error failure, _ => l.refuse failure
    | .ok _, some failure => l.refuse failure
    | .ok c, none =>
      let limit := settings.maxSubordinates.toNat
      if limit ≤ l.records.length then l.refuse (.capacityExceeded limit) else l.hire time label c

/-- one scheduled action -/
def act (settings : ManagerSettings) (l : Ledger) (a : ScheduledAction) : Ledger :=
  match a.action with
  | .createSubordinate workload => l.create settings (0 + a.delay) workload
  | .redistributeWorkload => { l with strategy := l.strategy.next }
  | .monitorResources => l
  | .analyzePerformance => l

/-- an action ended well, or in a refusal that the ledger keeps -/
def Told (l l' : Ledger) (r : Except SimError Unit) : Prop :=
  (r = .ok () ∧ l'.failures = l.failures) ∨
    ∃ failure, r = .error (.entityCreation failure) ∧ l'.failures = l.failures ++ [failure]

/-- no action ends the run -/
theorem Told.recoverable {l l' : Ledger} {r : Except SimError Unit} (h : l.Told l' r) :
    ∀ err, r = .error err → err.isRecoverable = true := by
  rintro err rfl
  rcases h with ⟨h, -⟩ | ⟨failure, h, -⟩ <;> cases h
  rfl

/-- an action adds one record at most, numbered in turn and made at the time of the action -/
theorem records_act (settings : ManagerSettings) (l : Ledger) (a : ScheduledAction) :
    (l.act settings a).records = l.records ∨
      ∃ r, (l.act settings a).records = l.records ++ [r] ∧ r.subordinateId = l.records.length + 1 ∧
        r.createdAt = 0 + a.delay := by
  unfold act
  cases a.action with
  | createSubordinate workload =>
    cases workload with
    | none => exact .inl rfl
    | some label =>
      simp only [create]
      split
      · exact .inl rfl
      · exact .inl rfl
      · split_ifs
        · exact .inl rfl
        · exact .inr ⟨_, rfl, rfl, rfl⟩
  | monitorResources => exact .inl rfl
  | redistributeWorkload => exact .inl rfl
  | analyzePerformance => exact .inl rfl

end Ledger

/-- a subordinate that has not started -/
structure Subordinate.IsNew (policy : CollectionPolicy) (sub : Subordinate) : Prop where
  policy : sub.policy = policy
  collected : sub.collected = false
  timedOut : sub.timedOut = false

/-- a record without the figure that reports refresh -/
def ManagedRecord.unmeasured (r : ManagedRecord) : ManagedRecord := { r with cumulativeMetric := 0 }

/-- what the manager has to show, figures of reports aside -/
def Manager.ledger (m : Manager) : Ledger :=
  { numbering := m.numbering, records := m.records.map ManagedRecord.unmeasured, failures := m.creationFailures
    strategy := m.cycle.current }

/-- is the action within the horizon? -/
def RunSettings.covers (settings : RunSettings) (a : ScheduledAction) : Bool :=
  settings.limits.until?.all fun horizon => a.delay ≤ horizon

/-- the actions within the horizon in order of time; at equal times, in the order of the schedule -/
def timeline (settings : RunSettings) : List ScheduledAction :=
  (settings.manager.schedule.mergeSort fun a b => a.delay ≤ b.delay).filter settings.covers

/-- what the timeline leaves behind -/
def timelineLedger (settings : RunSettings) : Ledger :=
  (timeline settings).foldl (Ledger.act settings.manager) { strategy := settings.manager.initialStrategy }

/-! ## One action -/

namespace Manager

theorem ledger_keep (label : String) (c : WorkloadClass) (time : Time) (m : Manager) :
    (m.keep (m.nextRecord (some label) c (m.records.length + 1) time).1).ledger = m.ledger.hire time label c := by
  have hl : m.ledger.records.length = m.records.length := List.length_map _
  unfold Ledger.hire
  rw [hl]
  unfold ledger keep
  rw [List.map_append]
  rfl

/-- a request is refused with the failure that the ledger gets; if it is granted, the ledger gets the record -/
theorem ledger_grant (workload : Option String) (time : Time) (m : Manager) :
    match m.grant workload with
    | .error failure =>
      ({ m with creationFailures := m.creationFailures ++ [failure] } : Manager).ledger =
        m.ledger.create m.settings time workload
    | .ok c =>
      m.settings.policy.fault? = none ∧
        (m.keep (m.nextRecord workload c (m.records.length + 1) time).1).ledger =
          m.ledger.create m.settings time workload := by
  cases workload with
  | none => rfl
  | some label =>
    simp only [grant, Ledger.create]
    cases WorkloadClass.ofRequest label with
    | error failure => rfl
    | ok c =>
      cases hf : m.settings.policy.fault? with
      | some failure => rfl
      | none =>
        have hl : m.ledger.records.length = m.records.length := List.length_map _
        by_cases h : m.settings.maxSubordinates.toNat ≤ m.records.length
        · simp only [hl, h, if_true, bind, Except.bind, throw, throwThe, MonadExceptOf.throw]
          rfl
        · simp only [hl, h, if_false, bind, Except.bind, pure, Except.pure]
          exact ⟨trivial, ledger_keep label c time m⟩

theorem length_ledger (m : Manager) : m.ledger.records.length = m.records.length := List.length_map _

theorem unmeasured_refresh (records : List ManagedRecord) (stats : List SubordinateStats)
    (hl : stats.length = records.length) :
    (List.zipWith refresh records stats).map ManagedRecord.unmeasured = records.map ManagedRecord.unmeasured := by
  induction records generalizing stats with
  | nil => rfl
  | cons r records ih =>
    cases stats with
    | nil => cases hl
    | cons x stats =>
      simp only [List.zipWith_cons_cons, List.map_cons, ih stats (Nat.succ.inj hl)]
      rfl

variable {e : Event Signal} {a : ScheduledAction}

/-- **One action.** The manager meets no error but a refusal, and its ledger is what the action leaves behind. The
    action may replace the world, by one that keeps every result, or reserve one subordinate. -/
theorem play_action (self : EntityId) (m : Manager) (s : Simulation (Agent Empty) Signal Timetable)
    (he : e.message = a.action.signal) (hn : s.now = 0 + a.delay) (hi : s.nextId = m.records.length + 1) :
    ∃ r m' t, (react Agent.subordinate e : Reaction Manager (Agent Empty) Signal Timetable Unit).play self m s =
        ((r, m'), t) ∧
      m.ledger.Told m'.ledger r ∧ m'.settings = m.settings ∧ m'.ledger = m.ledger.act m.settings a ∧
      ((m'.records.length = m.records.length ∧
          ∃ world, Timetable.Keeps s.world world ∧ t.core = { s.core with world }) ∨
        (m'.records.length = m.records.length + 1 ∧ m.settings.policy.fault? = none ∧
          ∃ sub, sub.IsNew m.settings.policy ∧ t.core = (s.reserve (.subordinate sub)).2.core)) := by
  cases ha : a.action with
  | monitorResources =>
    obtain ⟨t, world, ht, hk, hc⟩ := play_monitor self m Agent.subordinate (he.trans (congrArg _ ha)) s
    refine ⟨_, m, t, ht, .inl ⟨rfl, rfl⟩, rfl, ?_, .inl ⟨rfl, world, hk, hc⟩⟩
    simp [Ledger.act, ha]
  | redistributeWorkload =>
    obtain ⟨t, world, plans, ht, hk, hc⟩ :=
      play_redistribute self m Agent.subordinate (he.trans (congrArg _ ha)) s
    refine ⟨_, _, t, ht, .inl ⟨rfl, rfl⟩, rfl, ?_, .inl ⟨rfl, world, hk, hc⟩⟩
    simp only [Ledger.act, ha]
    rfl
  | analyzePerformance =>
    obtain ⟨t, world, stats, reports, hl, ht, hk, hc⟩ :=
      play_analyze self m Agent.subordinate (he.trans (congrArg _ ha)) s
    refine ⟨_, _, t, ht, .inl ⟨rfl, rfl⟩, rfl, ?_, .inl ⟨by simp [hl], world, hk, hc⟩⟩
    simp [Ledger.act, ha, ledger, unmeasured_refresh m.records stats hl]
  | createSubordinate workload =>
    have hplay := play_request self m Agent.subordinate (he.trans (congrArg _ ha)) s
    have hg := ledger_grant workload (0 + a.delay) m
    simp only [Ledger.act, ha]
    cases hw : m.grant workload with
    | error failure =>
      rw [hw] at hg
      exact ⟨_, _, _, hplay.trans (play_refused self m Agent.subordinate hw s), .inr ⟨failure, rfl, rfl⟩, rfl, hg,
        .inl ⟨rfl, s.world, refl _, rfl⟩⟩
    | ok c =>
      rw [hw] at hg
      obtain ⟨t, ht, hc⟩ := play_granted self m Agent.subordinate hw s
      rw [hn, hi] at ht hc
      have hl : (m.keep (m.nextRecord workload c (m.records.length + 1) (0 + a.delay)).1).records.length =
          m.records.length + 1 := List.length_append
      exact ⟨_, _, t, hplay.trans ht, .inl ⟨rfl, rfl⟩, rfl, hg.2,
        .inr ⟨hl, hg.1, m.recruit workload c (m.records.length + 1) (0 + a.delay), ⟨rfl, rfl, rfl⟩, hc⟩⟩

end Manager

/-! ## The order of the timeline -/

/-- the horizon of the settings is the horizon of the run -/
theorem RunSettings.covers_eq {settings : RunSettings} (hu : ∀ horizon, settings.limits.until? = some horizon →
    horizon.isNaN = false) {a : ScheduledAction} (ha : Agenda.accepts a.delay = true) :
    settings.covers a = !Simulation.isBeyond settings.limits.until? (0 + a.delay) := by
  unfold covers
  cases h : settings.limits.until? with
  | none => rfl
  | some horizon =>
    simp only [Option.all_some, Simulation.isBeyond, ← decide_not, decide_eq_decide]
    exact (Time.not_lt_zero_add_iff (hu horizon h) ha).symm

theorem Simulation.isBeyond_of_le {horizon : Option Time} {t u : Time} (h : isBeyond horizon t = true) (hle : t ≤ u) :
    isBeyond horizon u = true := by
  cases horizon with
  | none => cases h
  | some limit =>
    simp only [isBeyond, decide_eq_true_eq] at h ⊢
    exact Time.lt_of_lt_of_le h hle

/-- the schedule with its handles, in the order in which the events leave the agenda, is the schedule sorted by time -/
theorem exists_sorted {schedule : List ScheduledAction} (hd : ∀ a ∈ schedule, Agenda.accepts a.delay = true) :
    ∃ todo : List (ScheduledAction × Handle), todo.Perm schedule.zipIdx ∧
      todo.Pairwise (fun x y => (Manager.planned 0 0 x).key ≤ (Manager.planned 0 0 y).key) ∧
      todo.map Prod.fst = schedule.mergeSort fun a b => a.delay ≤ b.delay := by
  -- floats are not linearly ordered by `≤`; ranks are, and on the delays of the schedule both orders agree
  let le (a b : ScheduledAction) : Bool := (0 + a.delay : Time).rank ≤ (0 + b.delay : Time).rank
  have trans : ∀ a b c, le a b → le b c → le a c := by
    intro a b c hab hbc
    simp only [le, decide_eq_true_eq] at hab hbc ⊢
    exact hab.trans hbc
  have total : ∀ a b, le a b || le b a := by
    intro a b
    simp only [le, Bool.or_eq_true, decide_eq_true_eq]
    exact le_total _ _
  refine ⟨schedule.zipIdx.mergeSort (List.zipIdxLE le), List.mergeSort_perm _ _, ?_, ?_⟩
  · have h := List.pairwise_mergeSort (List.zipIdxLE_trans trans) (List.zipIdxLE_total total) schedule.zipIdx
    refine h.imp ?_
    intro x y hxy
    simp only [List.zipIdxLE, le, decide_eq_true_eq] at hxy
    rw [Event.key, Event.key, Prod.Lex.toLex_le_toLex]
    split_ifs at hxy with hle hge
    · exact .inr ⟨le_antisymm hle hge, of_decide_eq_true hxy⟩
    · exact .inl (not_le.1 hge)
  · have hmem : ∀ a ∈ schedule, ∀ b ∈ schedule, le a b = decide (a.delay ≤ b.delay) := by
      intro a ha b hb
      simp only [le, decide_eq_decide]
      rw [Time.rank_le_iff (Time.onClock_add Time.onClock_zero (hd a ha))
        (Time.onClock_add Time.onClock_zero (hd b hb))]
      exact Time.zero_add_le_zero_add_iff (hd a ha) (hd b hb)
    rw [List.mergeSort_zipIdx]
    simpa using List.map_mergeSort (f := id) hmem

end BrokerSim
