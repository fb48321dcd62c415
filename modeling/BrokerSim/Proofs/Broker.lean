/-
What managers and subordinates do when they react, with a timetable as their service.
- The timetable never loses a result (`Timetable.Keeps`), and has one for every task as soon as it was submitted
  (`Timetable.submitTasks_results`).
- A manager puts its schedule on the agenda (`Manager.play_start`). Reacting to it, it meets no error but a refusal, and
  changes its records, refusals and strategy only as told (`Manager.play_granted`, `Manager.play_refused`,
  `Manager.play_monitor`, `Manager.play_redistribute`, `Manager.play_analyze`).
- A subordinate plans one request and its deadline when it starts (`Subordinate.play_start`). Its first request finds
  every result, so it strikes off its deadline and plans nothing more (`Subordinate.play_react`).
-/
import Mathlib.Tactic
import BrokerSim.Broker.Agent
import BrokerSim.Proofs.Kernel.Queue
import BrokerSim.Proofs.Kernel.Reaction

namespace BrokerSim

/-! ## The timetable -/

namespace Timetable

/-- every account of the first timetable is in the second, with no fewer results -/
def Keeps (t u : Timetable) : Prop :=
  ∀ id a, t.account? id = some a → ∃ b, u.account? id = some b ∧ a.results.length ≤ b.results.length

instance : IsPreorder Timetable Keeps where
  refl := fun _ _ a h => ⟨a, h, le_rfl⟩
  trans := by
    intro _ _ _ h k id a ha
    obtain ⟨b, hb, hab⟩ := h id a ha
    obtain ⟨c, hc, hbc⟩ := k id b hb
    exact ⟨c, hc, hab.trans hbc⟩

theorem account?_setAccount (id key : EntityId) (a : Account) (t : Timetable) :
    (t.setAccount id a).account? key = if id = key then some a else t.account? key := by
  unfold setAccount account?
  rw [Std.ExtTreeMap.getElem?_insert]
  simp only [Nat.compare_eq_eq]

theorem account_eq {id : EntityId} {t : Timetable} {a : Account} (h : t.account? id = some a) : t.account id = a := by
  rw [account, h]
  rfl

theorem keeps_setAccount {id : EntityId} {a : Account} {t : Timetable}
    (h : (t.account id).results.length ≤ a.results.length) : Keeps t (t.setAccount id a) := by
  intro key b hb
  rw [account?_setAccount]
  split_ifs with hid
  · subst hid
    rw [account_eq hb] at h
    exact ⟨a, rfl, h⟩
  · exact ⟨b, hb, le_rfl⟩

theorem results_place (datacenters : Nat) (task : Task) (fate : Fate) (a : Account) :
    (a.place datacenters task fate).2.results = a.results := by
  unfold Account.place
  dsimp only
  split
  · rfl
  · split_ifs <;> rfl

/-- each task that is executed leaves one result -/
theorem execute_results (id : EntityId) (t : Timetable) (task : Task) :
    Keeps t (t.execute id task) ∧
      ((t.execute id task).account id).results.length = (t.account id).results.length + 1 := by
  have hr : ∀ fate : Fate, ((t.account id).place t.settings.datacenterCount.toNat task fate).2.results =
      (t.account id).results := fun fate => results_place _ _ _ _
  unfold execute
  dsimp only
  constructor
  · refine keeps_setAccount (t := { t with stream := _ }) ?_
    rw [List.length_append, hr]
    exact Nat.le_add_right _ _
  · rw [account_eq ((account?_setAccount id id _ _).trans (if_pos rfl)), List.length_append, hr]
    rfl

theorem submitVms_keeps (id : EntityId) (vms : List Vm) (t : Timetable) : Keeps t (t.submitVms id vms) :=
  keeps_setAccount le_rfl

/-- there is a result for every task that was submitted -/
theorem submitTasks_results (id : EntityId) (tasks : List Task) (t : Timetable) :
    Keeps t (t.submitTasks id tasks) ∧
      ∃ a, (t.submitTasks id tasks).account? id = some a ∧ tasks.length ≤ a.results.length := by
  have h : ∀ (tasks : List Task) (u : Timetable) (a : Account), u.account? id = some a →
      Keeps u (tasks.foldl (execute id) u) ∧
        ∃ b, (tasks.foldl (execute id) u).account? id = some b ∧
          a.results.length + tasks.length ≤ b.results.length := by
    intro tasks
    induction tasks with
    | nil => exact fun u a ha => ⟨refl u, a, ha, le_rfl⟩
    | cons task tasks ih =>
      intro u a ha
      obtain ⟨hk, hlen⟩ := execute_results id u task
      obtain ⟨b, hb, -⟩ := hk id a ha
      rw [account_eq hb, account_eq ha] at hlen
      obtain ⟨hk', c, hc, hbc⟩ := ih (u.execute id task) b hb
      refine ⟨IsTrans.trans _ _ _ hk hk', c, hc, ?_⟩
      rw [List.length_cons]
      omega
  have ha : (t.setAccount id (t.account id)).account? id = some (t.account id) :=
    (account?_setAccount ..).trans (if_pos rfl)
  obtain ⟨hk, b, hb, hlen⟩ := h tasks _ _ ha
  exact ⟨IsTrans.trans _ _ _ (keeps_setAccount le_rfl) hk, b, hb, (Nat.le_add_left _ _).trans hlen⟩

theorem completedTasks_eq {id : EntityId} {t : Timetable} {a : Account} (h : t.account? id = some a) :
    t.completedTasks id = .ok a.results := by
  unfold completedTasks
  rw [h]

/-- a strategy is put down in the account, if there is one -/
theorem call_applyStrategy (id : EntityId) (strategy : Strategy) (t : Timetable) :
    ((ExecutionService.applyStrategy id strategy : Call Timetable Unit) t).2.1 =
      ((t.account? id).map fun a => t.setAccount id { a with strategies := a.strategies ++ [strategy] }).getD t := by
  have called : ∀ r, t.applyStrategy id strategy = r →
      ((ExecutionService.applyStrategy id strategy : Call Timetable Unit) t).2.1 = r.toOption.getD t := by
    rintro (_ | u) h
    all_goals
      change (Exchange.update _ t : Except SimError Unit × Timetable × List Remark).2.1 = _
      unfold Exchange.update
      dsimp only
      rw [h]
      rfl
  rw [called _ rfl]
  unfold applyStrategy
  cases t.account? id with
  | none => rfl
  | some a => rfl

theorem keeps_applyStrategy (id : EntityId) (strategy : Strategy) :
    Exchange.Within Keeps (ExecutionService.applyStrategy id strategy : Call Timetable Unit) := by
  intro t
  rw [call_applyStrategy]
  cases h : t.account? id with
  | none => exact refl t
  | some a => exact keeps_setAccount (by rw [account_eq h])

end Timetable

/-! ## The manager -/

namespace Manager

open Exchange Reaction

section

variable {W : Type} [ExecutionService W] {R : W → W → Prop} [IsPreorder W R]

omit [ExecutionService W] in
theorem monitor_within (now : Time) (m : Manager) : Within R (monitor now m : Exchange W Unit) :=
  .bind (.remark _ _) fun _ => .bind (.forM (fun _ => .remark _ _) _) fun _ => .remark _ _

theorem statsOf_within (hx : ∀ id, Within R (ExecutionService.completedTasks id : Call W (List TaskResult)))
    (r : ManagedRecord) : Within R (statsOf r : Exchange W SubordinateStats) := by
  refine .bind (hx _) ?_
  intro outcome
  cases outcome with
  | ok results => exact .pure _
  | error e => exact .bind (.remark _ _) fun _ => .pure _

theorem analyze_within (hx : ∀ id, Within R (ExecutionService.completedTasks id : Call W (List TaskResult)))
    (now : Time) (m : Manager) : Within R (analyze now m : Exchange W (PerformanceReport × Manager)) := by
  have hlog : ∀ report, Within R (logReport now report : Exchange W Unit) := fun report =>
    .bind (.forM (fun _ => .remark _ _) _) fun _ => .remark _ _
  exact .bind (.mapM (statsOf_within hx) _) fun stats => .bind (hlog _) fun _ => .pure _

theorem applyTo_within {strategy : Strategy}
    (hx : ∀ id, Within R (ExecutionService.applyStrategy id strategy : Call W Unit)) (id : EntityId) :
    Within R (applyTo strategy id : Exchange W Unit) := by
  refine .bind (hx id) ?_
  intro outcome
  cases outcome with
  | ok => exact .remark _ _
  | error e => exact .remark _ _

theorem redistribute_within
    (hx : ∀ id strategy, Within R (ExecutionService.applyStrategy id strategy : Call W Unit)) (now : Time)
    (m : Manager) : Within R (redistribute now m : Exchange W Manager) :=
  .bind (.remark _ _) fun _ => .bind (.forM (applyTo_within fun id => hx id _) _) fun _ => .pure _

end

/-- a report refreshes the figures of the records and nothing else of the manager -/
theorem analyze_eq (now : Time) (m : Manager) (t : Timetable) :
    ∃ report stats, stats.length = m.records.length ∧
      (analyze now m t).1 = (report, { m with records := List.zipWith refresh m.records stats }) :=
  ⟨_, _, length_mapM statsOf m.records t, rfl⟩

section

variable {ε W : Type} (self : EntityId) (m : Manager)

/-- the subordinate of a granted request -/
def recruit (workload : Option String) (c : WorkloadClass) (id : EntityId) (now : Time) (m : Manager) : Subordinate :=
  let (r, bundle) := m.nextRecord workload c id now
  { name := r.name, bundle, policy := m.settings.policy }

theorem play_create (enlist : Subordinate → ε) (workload : Option String) (c : WorkloadClass)
    (s : Simulation ε Signal W) :
    ∃ t, (create enlist workload c).play self m s =
        ((.ok (), m.keep (m.nextRecord workload c s.nextId s.now).1), t) ∧
      t.core = (s.reserve (enlist (m.recruit workload c s.nextId s.now))).2.core := by
  unfold create
  simp only [play_bind, play_get, play_view]
  split_ifs
  · simp only [play_bind, play_remark, play_spawn, play_set]
    exact ⟨_, rfl, rfl⟩
  · simp only [play_bind, play_remark, play_spawn, play_set]
    exact ⟨_, rfl, rfl⟩

/-- a request that is granted -/
theorem play_granted (enlist : Subordinate → ε) {workload : Option String} {c : WorkloadClass}
    (hg : m.grant workload = .ok c) (s : Simulation ε Signal W) :
    ∃ t, (request enlist workload).play self m s =
        ((.ok (), m.keep (m.nextRecord workload c s.nextId s.now).1), t) ∧
      t.core = (s.reserve (enlist (m.recruit workload c s.nextId s.now))).2.core := by
  unfold request
  simp only [play_bind, play_get, hg]
  exact play_create self m enlist workload c s

/-- a request that is refused -/
theorem play_refused (enlist : Subordinate → ε) {workload : Option String} {failure : CreationFailure}
    (hg : m.grant workload = .error failure) (s : Simulation ε Signal W) :
    (request enlist workload).play self m s =
      ((.error (.entityCreation failure), { m with creationFailures := m.creationFailures ++ [failure] }), s) := by
  unfold request
  simp only [play_bind, play_get, hg, play_set, play_throw]

end

section

variable {ε : Type} (self : EntityId) (m : Manager) (enlist : Subordinate → ε)

theorem play_monitor {e : Event Signal} (he : e.message = .monitorResources) (s : Simulation ε Signal Timetable) :
    ∃ t world, (react enlist e).play self m s = ((.ok (), m), t) ∧
      Timetable.Keeps s.world world ∧ t.core = { s.core with world } := by
  unfold react
  simp only [play_bind, play_get, play_view, he, play_exchange]
  exact ⟨_, _, rfl, monitor_within s.now m s.world, Simulation.core_exchange ..⟩

theorem play_redistribute {e : Event Signal} (he : e.message = .redistributeWorkload)
    (s : Simulation ε Signal Timetable) :
    ∃ t world plans, (react enlist e).play self m s =
        ((.ok (), { m with cycle := (m.cycle.redistribute m.subordinateIds).2, plans }), t) ∧
      Timetable.Keeps s.world world ∧ t.core = { s.core with world } := by
  unfold react
  simp only [play_bind, play_get, play_view, he, play_exchange, play_set]
  exact ⟨_, _, _, rfl, redistribute_within Timetable.keeps_applyStrategy s.now m s.world, Simulation.core_exchange ..⟩

theorem play_analyze {e : Event Signal} (he : e.message = .analyzePerformance) (s : Simulation ε Signal Timetable) :
    ∃ t world stats reports, stats.length = m.records.length ∧ (react enlist e).play self m s =
        ((.ok (), { m with records := List.zipWith refresh m.records stats, reports }), t) ∧
      Timetable.Keeps s.world world ∧ t.core = { s.core with world } := by
  obtain ⟨report, stats, hl, ha⟩ := analyze_eq s.now m s.world
  have ha : (s.exchange (analyze (s.view self).now m)).1 = _ := ha
  unfold react
  simp only [play_bind, play_get, play_view, he, play_exchange, play_set, ha]
  exact ⟨_, _, _, _, hl, rfl, analyze_within (fun _ => .read _) s.now m s.world, Simulation.core_exchange ..⟩

/-- the events of scheduled actions, numbered by their handles -/
def planned (self : EntityId) (now : Time) (x : ScheduledAction × Handle) : Event Signal :=
  { time := now + x.1.delay, source := self, target := self, handle := x.2, message := x.1.action.signal }

/-- a manager that starts puts its schedule on the agenda, in the order of the settings -/
theorem play_start {W : Type} [ExecutionService W] {s : Simulation ε Signal W} {p : Plain Signal}
    (hr : Refines s.agenda p) (hp : p.Sound) (hd : ∀ a ∈ m.settings.schedule, Agenda.accepts a.delay = true) :
    let q := p.extend ((m.settings.schedule.zipIdx p.issued).map (planned self p.now))
    ∃ t agenda, (start : Reaction Manager ε Signal W Unit).play self m s = ((.ok (), m), t) ∧
      t.core = { s.core with agenda } ∧ Refines agenda q ∧ q.Sound := by
  have h : ∀ (l : List ScheduledAction) (s : Simulation ε Signal W) (p : Plain Signal), Refines s.agenda p → p.Sound →
      (∀ a ∈ l, Agenda.accepts a.delay = true) →
      ∃ agenda, (l.forM fun scheduled => do
          let _ ← Reaction.scheduleSelf scheduled.delay scheduled.action.signal : Reaction Manager ε Signal W Unit).play
            self m s = ((.ok (), m), { s with agenda }) ∧
        Refines agenda (p.extend ((l.zipIdx p.issued).map (planned self p.now))) ∧
        (p.extend ((l.zipIdx p.issued).map (planned self p.now))).Sound := by
    intro l
    induction l with
    | nil =>
      intro s p hr hp _
      refine ⟨s.agenda, rfl, ?_⟩
      simpa [Plain.extend] using And.intro hr hp
    | cons a l ih =>
      intro s p hr hp hd
      obtain ⟨agenda, hs, hr, hp⟩ := s.schedule_eq hr hp (hd a List.mem_cons_self) self self a.action.signal
      obtain ⟨agenda, hl, hr, hp⟩ := ih { s with agenda } _ hr hp fun b hb => hd b (List.mem_cons_of_mem a hb)
      rw [Plain.extend_extend] at hr hp
      refine ⟨agenda, ?_, hr, hp⟩
      simp only [List.forM, play_bind, play_scheduleSelf, hs, play_pure]
      exact hl
  unfold start
  simp only [play_bind, play_get, play_view, play_remark]
  generalize hu : s.note _ = u
  have hr : Refines u.agenda p := hu ▸ hr
  obtain ⟨agenda, hl, hr⟩ := h m.settings.schedule u p hr hp hd
  exact ⟨_, agenda, hl, hu ▸ rfl, hr⟩

theorem play_request {e : Event Signal} {workload : Option String} (he : e.message = .createSubordinate workload)
    (s : Simulation ε Signal Timetable) :
    (react enlist e).play self m s = (request enlist workload).play self m s := by
  unfold react
  simp only [play_bind, play_get, play_view, he]

end

end Manager

/-! ## Subordinates -/

/-- delays of a policy without a fault are accepted -/
theorem CollectionPolicy.accepts {policy : CollectionPolicy} (h : policy.fault? = none) :
    Agenda.accepts policy.interval = true ∧ Agenda.accepts policy.timeout = true := by
  unfold fault? at h
  split_ifs at h with hi ht
  simp only [Bool.not_eq_true', Bool.not_eq_false, Bool.and_eq_true, decide_eq_true_eq] at hi ht
  exact ⟨Time.accepts_of_le hi.1 (Time.le_of_lt hi.2), Time.accepts_of_le ht.1 ht.2⟩

namespace Subordinate

open Reaction

variable {ε : Type} (self : EntityId) (sub : Subordinate)

/-- what a subordinate puts on the agenda when it starts: a request and, right behind it, its deadline -/
def planned (now : Time) (first : Handle) : List (Event Signal) :=
  [{ time := now + sub.policy.interval, source := self, target := self, handle := first
     message := .collectResults },
   { time := now + sub.policy.timeout, source := self, target := self, handle := first + 1
     message := .resultsDeadline }]

theorem mem_planned {now : Time} {first : Handle} {e : Event Signal} (he : e ∈ sub.planned self now first) :
    first ≤ e.handle ∧ e.target = self ∧ (e.message = .collectResults ∨ e.message = .resultsDeadline) := by
  simp only [planned, List.mem_cons, List.not_mem_nil, or_false] at he
  rcases he with rfl | rfl
  · exact ⟨le_rfl, rfl, .inl rfl⟩
  · exact ⟨Nat.le_succ first, rfl, .inr rfl⟩

/-- a subordinate that starts has submitted every task and knows its deadline -/
theorem play_start {s : Simulation ε Signal Timetable} {p : Plain Signal} (hr : Refines s.agenda p) (hp : p.Sound)
    (hf : sub.policy.fault? = none) :
    let q := p.extend (sub.planned self p.now p.issued)
    ∃ t agenda world, (start : Reaction Subordinate ε Signal Timetable Unit).play self sub s =
        ((.ok (), { sub with deadline? := some (p.issued + 1) }), t) ∧
      t.core = { s.core with agenda, world } ∧ Refines agenda q ∧ q.Sound ∧
      Timetable.Keeps s.world world ∧
      ∃ a, world.account? self = some a ∧ sub.bundle.tasks.length ≤ a.results.length := by
  obtain ⟨hi, hd⟩ := CollectionPolicy.accepts hf
  have hk := Timetable.submitVms_keeps self sub.bundle.vms s.world
  obtain ⟨hk', ha⟩ := Timetable.submitTasks_results self sub.bundle.tasks (s.world.submitVms self sub.bundle.vms)
  unfold start
  simp only [play_bind, play_get, play_view]
  have hv : ∀ u : Simulation ε Signal Timetable,
      (u.exchange (ExecutionService.submitVms (s.view self).self sub.bundle.vms)).1 = .ok () := fun _ => rfl
  have ht : ∀ u : Simulation ε Signal Timetable,
      (u.exchange (ExecutionService.submitTasks (s.view self).self sub.bundle.tasks)).1 = .ok () := fun _ => rfl
  simp only [play_call, hv, ht, play_remark, play_scheduleSelf, play_modify]
  generalize hu : Simulation.note _ _ = u
  have hcore : u.core = { s.core with world := u.world } := hu ▸ rfl
  have hw : u.world = (s.world.submitVms self sub.bundle.vms).submitTasks self sub.bundle.tasks := hu ▸ rfl
  have hr : Refines u.agenda p := hu ▸ hr
  clear hu
  obtain ⟨agenda, hs, hr, hp⟩ := u.schedule_eq hr hp hi self self .collectResults
  obtain ⟨agenda', hs', hr, hp⟩ :=
    Simulation.schedule_eq (s := { u with agenda }) hr hp hd self self .resultsDeadline
  rw [Plain.extend_extend] at hr hp
  simp only [hs, hs']
  refine ⟨_, agenda', u.world, rfl, ?_, hr, hp, ?_, ?_⟩
  · exact congrArg (fun v : Simulation ε Signal Timetable => { v with agenda := agenda' }) hcore
  · rw [hw]
    exact IsTrans.trans _ _ _ hk hk'
  · rw [hw]
    exact ha

section

variable {W : Type} (s : Simulation ε Signal W)

/-- the deadline is struck off, if there is one -/
theorem play_conclude :
    ∃ t, (conclude : Reaction Subordinate ε Signal W Unit).play self sub s =
        ((.ok (), { sub with collected := true, deadline? := none }), t) ∧
      t.core = (s.strike sub.deadline?).core := by
  unfold conclude
  simp only [play_bind, play_get, play_set]
  cases hd : sub.deadline? with
  | none =>
    simp only [play_bind, play_view, play_remark]
    exact ⟨_, rfl, rfl⟩
  | some h =>
    simp only [play_bind, play_cancel, play_view, play_remark]
    exact ⟨_, rfl, rfl⟩

/-- a deadline that passes before everything was there -/
theorem play_giveUp (hc : sub.collected = false) :
    ∃ t, (giveUp : Reaction Subordinate ε Signal W Unit).play self sub s =
        ((.ok (), { sub with deadline? := none, timedOut := true }), t) ∧ t.core = s.core := by
  unfold giveUp
  simp only [play_bind, play_get, hc, Bool.false_eq_true, if_false, play_set, play_view, play_remark]
  exact ⟨_, rfl, rfl⟩

theorem play_giveUp_collected (hc : sub.collected = true) :
    (giveUp : Reaction Subordinate ε Signal W Unit).play self sub s = ((.ok (), { sub with deadline? := none }), s) := by
  unfold giveUp
  simp only [play_bind, play_get, hc, if_true, play_set]

variable [ExecutionService W]

/-- a request when the matter is settled -/
theorem play_collect_settled (h : (sub.collected || sub.timedOut) = true) :
    (collect : Reaction Subordinate ε Signal W Unit).play self sub s = ((.ok (), sub), s) := by
  unfold collect
  simp only [play_bind, play_get, h, if_true, play_pure]

variable (h : (sub.collected || sub.timedOut) = false)
include h

/-- a request that the service refuses -/
theorem play_collect_refused {err : SimError}
    (hx : (s.exchange (ExecutionService.completedTasks self)).1 = .error err) :
    (collect : Reaction Subordinate ε Signal W Unit).play self sub s =
      ((.error err, sub), (s.exchange (ExecutionService.completedTasks self)).2) := by
  have hself : (s.view self).self = self := rfl
  unfold collect
  simp only [play_bind, play_get, h, Bool.false_eq_true, if_false, play_view, play_call, hself, hx]

variable {results : List TaskResult} (hx : (s.exchange (ExecutionService.completedTasks self)).1 = .ok results)
include hx

/-- a request that finds a result for every task -/
theorem play_collect_complete (hl : sub.bundle.tasks.length ≤ results.length) :
    ∃ t, (collect : Reaction Subordinate ε Signal W Unit).play self sub s =
        ((.ok (), { sub with results, collected := true, deadline? := none }), t) ∧
      t.core = ((s.exchange (ExecutionService.completedTasks self)).2.strike sub.deadline?).core := by
  have hself : (s.view self).self = self := rfl
  have hfull : ({ sub with results } : Subordinate).isComplete = true := by simpa [isComplete] using hl
  obtain ⟨t, ht, hcore⟩ := play_conclude (ε := ε) self { sub with results }
    (s.exchange (ExecutionService.completedTasks self)).2
  refine ⟨t, ?_, hcore⟩
  unfold collect
  simp only [play_bind, play_get, h, Bool.false_eq_true, if_false, play_view, play_call, hself, hx, play_set, hfull,
    if_true]
  exact ht

/-- a request that does not: the next one is planned -/
theorem play_collect_incomplete (hl : results.length < sub.bundle.tasks.length) :
    (collect : Reaction Subordinate ε Signal W Unit).play self sub s =
      let next := (s.exchange (ExecutionService.completedTasks self)).2.schedule sub.policy.interval self self
        Signal.collectResults
      ((next.1.map fun _ => (), { sub with results }), next.2) := by
  have hself : (s.view self).self = self := rfl
  have hpart : ({ sub with results } : Subordinate).isComplete = false := by simpa [isComplete] using hl
  unfold collect
  simp only [play_bind, play_get, h, Bool.false_eq_true, if_false, play_view, play_call, hself, hx, play_set, hpart,
    play_scheduleSelf]
  rcases Simulation.schedule sub.policy.interval self self Signal.collectResults
    (s.exchange (ExecutionService.completedTasks self)).2 with ⟨_ | _, _⟩ <;> rfl

end

/-- what a subordinate with a result for every task makes of a signal, and the event that it strikes off then -/
inductive Reacted (sub : Subordinate) : Signal → Subordinate → Option Handle → Prop
  | settled (h : (sub.collected || sub.timedOut) = true) : Reacted sub .collectResults sub none
  | collected (results : List TaskResult) (h : (sub.collected || sub.timedOut) = false) :
      Reacted sub .collectResults { sub with results, collected := true, deadline? := none } sub.deadline?
  | passed (h : sub.collected = true) : Reacted sub .resultsDeadline { sub with deadline? := none } none
  | gaveUp (h : sub.collected = false) :
      Reacted sub .resultsDeadline { sub with deadline? := none, timedOut := true } none

theorem Reacted.keeps {sub' : Subordinate} {m : Signal} {struck? : Option Handle} (h : sub.Reacted m sub' struck?) :
    sub'.bundle = sub.bundle ∧ sub'.policy = sub.policy ∧
      (sub'.deadline? = none ∨ sub'.deadline? = sub.deadline?) ∧ (struck? = none ∨ struck? = sub.deadline?) := by
  cases h with
  | settled => exact ⟨rfl, rfl, .inr rfl, .inl rfl⟩
  | collected => exact ⟨rfl, rfl, .inl rfl, .inr rfl⟩
  | passed => exact ⟨rfl, rfl, .inl rfl, .inl rfl⟩
  | gaveUp => exact ⟨rfl, rfl, .inl rfl, .inl rfl⟩

/-- with a result for every task there is no second request: the first one strikes off the deadline, and nothing is
    planned any more -/
theorem play_react {s : Simulation ε Signal Timetable} {e : Event Signal}
    (he : e.message = .collectResults ∨ e.message = .resultsDeadline) {a : Account}
    (ha : s.world.account? self = some a) (hl : sub.bundle.tasks.length ≤ a.results.length) :
    ∃ t sub' struck?, (react e : Reaction Subordinate ε Signal Timetable Unit).play self sub s =
        ((.ok (), sub'), t) ∧
      sub.Reacted e.message sub' struck? ∧ t.core = (s.strike struck?).core := by
  unfold react
  rcases he with he | he
  · rw [he]
    cases h : sub.collected || sub.timedOut with
    | true => exact ⟨s, sub, none, play_collect_settled self sub s h, .settled h, rfl⟩
    | false =>
      have hx : (s.exchange (ExecutionService.completedTasks self)).1 = .ok a.results := Timetable.completedTasks_eq ha
      obtain ⟨t, ht, hcore⟩ := play_collect_complete self sub s h hx hl
      exact ⟨t, _, sub.deadline?, ht, .collected a.results h, hcore⟩
  · rw [he]
    cases h : sub.collected with
    | true => exact ⟨s, _, none, play_giveUp_collected self sub s h, .passed h, rfl⟩
    | false =>
      obtain ⟨t, ht, hcore⟩ := play_giveUp self sub s h
      exact ⟨t, _, none, ht, .gaveUp h, hcore⟩

end Subordinate

/-! ## Agents -/

namespace Agent

open Reaction

variable {ω W α σ : Type} (self : EntityId) (s : Simulation (Agent ω) Signal W)

/-- an agent plays what its part plays -/
theorem play_part (whole : σ → Agent ω) (y : σ) {r : Reaction σ (Agent ω) Signal W α}
    {f : Agent ω → Reaction (Agent ω) (Agent ω) Signal W α} (hf : f (whole y) = within whole y r) :
    (get >>= f).play self (whole y) s =
      (((r.play self y s).1.1, whole (r.play self y s).1.2), (r.play self y s).2) := by
  rw [play_bind, play_get]
  dsimp only
  rw [hf, play_within]

variable [ExecutionService W] [Guest ω W]

theorem play_start_manager (m : Manager) :
    (Entity.start : Reaction (Agent ω) (Agent ω) Signal W Unit).play self (.manager m) s =
      let x := (Manager.start : Reaction Manager (Agent ω) Signal W Unit).play self m s
      ((x.1.1, .manager x.1.2), x.2) :=
  play_part self s manager m rfl

theorem play_react_manager (e : Event Signal) (m : Manager) :
    (Entity.react e : Reaction (Agent ω) (Agent ω) Signal W Unit).play self (.manager m) s =
      let x := (Manager.react subordinate e : Reaction Manager (Agent ω) Signal W Unit).play self m s
      ((x.1.1, .manager x.1.2), x.2) :=
  play_part self s manager m rfl

theorem play_start_subordinate (sub : Subordinate) :
    (Entity.start : Reaction (Agent ω) (Agent ω) Signal W Unit).play self (.subordinate sub) s =
      let x := (Subordinate.start : Reaction Subordinate (Agent ω) Signal W Unit).play self sub s
      ((x.1.1, .subordinate x.1.2), x.2) :=
  play_part self s subordinate sub rfl

theorem play_react_subordinate (e : Event Signal) (sub : Subordinate) :
    (Entity.react e : Reaction (Agent ω) (Agent ω) Signal W Unit).play self (.subordinate sub) s =
      let x := (Subordinate.react e : Reaction Subordinate (Agent ω) Signal W Unit).play self sub s
      ((x.1.1, .subordinate x.1.2), x.2) :=
  play_part self s subordinate sub rfl

end Agent

end BrokerSim
