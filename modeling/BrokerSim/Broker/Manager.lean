/-
The manager: it follows its schedule, creates subordinates on request, keeps a record of each for good, leads the
strategy and reports on the tasks. A last report is made when it is shut down.
-/
import BrokerSim.Report
import BrokerSim.Settings.Basic

namespace BrokerSim

open Decimal

/-- what a manager knows of one subordinate -/
structure ManagedRecord where
  subordinateId : EntityId
  name : String
  workload : WorkloadClass
  vms : List Vm
  tasks : List Task
  /-- execution time of its successful tasks, as of the last report -/
  cumulativeMetric : Float := 0
  createdAt : Time
  deriving Repr, DecidableEq

/-- how much is held by all subordinates together -/
structure ResourceTotals where
  subordinates : Nat := 0
  vms : Nat := 0
  tasks : Nat := 0
  deriving Repr, DecidableEq

/-- the totals with one more subordinate -/
def ResourceTotals.add (t : ResourceTotals) (r : ManagedRecord) : ResourceTotals :=
  { subordinates := t.subordinates + 1, vms := t.vms + r.vms.length, tasks := t.tasks + r.tasks.length }

/-- the state of a manager -/
structure Manager where
  settings : ManagerSettings
  numbering : Numbering := {}
  cycle : Strategy.Cycle
  /-- in the order of creation -/
  records : List ManagedRecord := []
  /-- totals kept up as subordinates are created -/
  tracked : ResourceTotals := {}
  creationFailures : List CreationFailure := []
  plans : List Strategy.Plan := []
  /-- reports asked for, first one first -/
  reports : List PerformanceReport := []
  finalReport? : Option PerformanceReport := none
  deriving Repr, DecidableEq

namespace Manager

/-- a manager that has done nothing yet -/
def ofSettings (settings : ManagerSettings) : Manager := { settings, cycle := { current := settings.initialStrategy } }

def record? (id : EntityId) (m : Manager) : Option ManagedRecord := m.records.find? fun r => r.subordinateId == id

def subordinateIds (m : Manager) : List EntityId := m.records.map ManagedRecord.subordinateId

/-- totals counted over the records -/
def totals (m : Manager) : ResourceTotals :=
  { subordinates := m.records.length, vms := total (fun r => r.vms.length) m.records
    tasks := total (fun r => r.tasks.length) m.records }

/-! ## Creating subordinates -/

/-- the class that a request is granted, or why it is refused -/
def grant (workload : Option String) (m : Manager) : Except CreationFailure WorkloadClass := do
  let c ← WorkloadClass.ofRequest workload
  if let some failure := m.settings.policy.fault? then throw failure
  let limit := m.settings.maxSubordinates.toNat
  if limit ≤ m.records.length then throw (.capacityExceeded limit)
  return c

/-- the name of the next subordinate -/
def nextName (workload : Option String) (c : WorkloadClass) (m : Manager) : String :=
  s!"GlobalManagedBroker_{m.records.length + 1}_{(workload.map Text.trim).getD c.label}"

/-- the next record and its bundle, for the entity that gets `id` at time `now` -/
def nextRecord (workload : Option String) (c : WorkloadClass) (id : EntityId) (now : Time) (m : Manager) :
    ManagedRecord × Bundle :=
  let bundle := (m.numbering.allocate c).1
  ({ subordinateId := id, name := m.nextName workload c, workload := c, vms := bundle.vms, tasks := bundle.tasks,
     createdAt := now }, bundle)

/-- the manager with one more record -/
def keep (r : ManagedRecord) (m : Manager) : Manager :=
  { m with numbering := (m.numbering.allocate r.workload).2, records := m.records ++ [r], tracked := m.tracked.add r }

section

variable {ε W : Type}

/-- create the subordinate of a granted request; `enlist` makes it an entity of the registry -/
def create (enlist : Subordinate → ε) (workload : Option String) (c : WorkloadClass) :
    Reaction Manager ε Signal W Unit := do
  let m ← get
  let v ← Reaction.view
  if !c.isRecognized then
    Reaction.remark .warn s!"Unrecognized workload {Text.quoted c.label}, using the default bundle"
  let (r, bundle) := m.nextRecord workload c v.nextId v.now
  let id ← Reaction.spawn (enlist { name := r.name, bundle, policy := m.settings.policy })
  Reaction.remark .info (s!"t={places 2 v.now} {m.settings.name} created {r.name} ({id.text}) for {c.label}: " ++
    s!"{r.vms.length} VMs, {r.tasks.length} tasks")
  set (m.keep r)

/-- grant or refuse a request; a refusal is kept in mind -/
def request (enlist : Subordinate → ε) (workload : Option String) : Reaction Manager ε Signal W Unit := do
  let m ← get
  match m.grant workload with
  | .ok c => create enlist workload c
  | .error failure =>
    set { m with creationFailures := m.creationFailures ++ [failure] }
    throw (.entityCreation failure)

end

/-! ## Supervising them -/

section

variable {W : Type} [ExecutionService W]

/-- log what every subordinate holds -/
def monitor (now : Time) (m : Manager) : Exchange W Unit := do
  Exchange.remark .info s!"t={places 2 now} Monitoring {m.records.length} subordinates"
  m.records.forM fun r => Exchange.remark .info
    s!"  {r.name} ({r.subordinateId.text}): {r.vms.length} VMs, {r.tasks.length} tasks"
  Exchange.remark .info s!"  Total: {m.totals.vms} VMs, {m.totals.tasks} tasks"

/-- hand a strategy to the service for one subordinate; a refusal is only logged -/
def applyTo (strategy : Strategy) (id : EntityId) : Exchange W Unit := do
  match ← (ExecutionService.applyStrategy id strategy : Exchange W (Except SimError Unit)) with
  | .ok () => Exchange.remark .debug s!"Applied {strategy.text} to {id.text}"
  | .error e => Exchange.remark .warn s!"Could not apply {strategy.text} to {id.text}: {e.text}"

/-- go on to the next strategy and apply it to every subordinate -/
def redistribute (now : Time) (m : Manager) : Exchange W Manager := do
  let (plan, cycle) := m.cycle.redistribute m.subordinateIds
  Exchange.remark .info (s!"t={places 2 now} Switching strategy {plan.previous.text} -> {plan.strategy.text} " ++
    s!"across {plan.affected.length} subordinates")
  plan.affected.forM (applyTo plan.strategy)
  return { m with cycle, plans := m.plans ++ [plan] }

/-- figures of one subordinate; without an answer there are none -/
def statsOf (r : ManagedRecord) : Exchange W SubordinateStats := do
  match ← (ExecutionService.completedTasks r.subordinateId : Exchange W (Except SimError (List TaskResult))) with
  | .ok results => return .ofResults r.subordinateId r.name results
  | .error e =>
    Exchange.remark .warn s!"No results for {r.name}: {e.text}"
    return .empty r.subordinateId r.name

/-- the record with the figures of a report -/
def refresh (r : ManagedRecord) (stats : SubordinateStats) : ManagedRecord :=
  { r with cumulativeMetric := stats.executionTime }

/-- log a report -/
def logReport (now : Time) (report : PerformanceReport) : Exchange W Unit := do
  report.subordinates.forM fun s => Exchange.remark .info
    s!"  {s.name}: {s.successful} successful, {s.failed} failed, {places 2 s.executionTime}s execution"
  Exchange.remark .info (s!"t={places 2 now} {report.subordinates.length} subordinates, " ++
    s!"{report.totalSuccessful} successful, {report.totalFailed} failed, " ++
    s!"success rate {places 2 report.successPercent}%, " ++
    s!"average execution {places 2 report.averageExecutionTime}s, total {places 2 report.totalExecutionTime}s")

/-- report on every subordinate, and refresh the records -/
def analyze (now : Time) (m : Manager) : Exchange W (PerformanceReport × Manager) := do
  let stats ← m.records.mapM statsOf
  let report := PerformanceReport.ofStats now stats
  logReport now report
  return (report, { m with records := List.zipWith refresh m.records stats })

end

/-! ## As an entity -/

variable {ε W : Type} [ExecutionService W]

/-- put the schedule on the agenda -/
def start : Reaction Manager ε Signal W Unit := do
  let m ← get
  let v ← Reaction.view
  Reaction.remark .info (s!"t={places 2 v.now} {m.settings.name} starting with {m.settings.schedule.length} " ++
    s!"scheduled actions (collaborator: {ExecutionService.name v.world})")
  m.settings.schedule.forM fun scheduled => do
    let _ ← Reaction.scheduleSelf scheduled.delay scheduled.action.signal

def react (enlist : Subordinate → ε) (e : Event Signal) : Reaction Manager ε Signal W Unit := do
  let m ← get
  let v ← Reaction.view
  match e.message with
  | .createSubordinate workload => request enlist workload
  | .monitorResources => Reaction.exchange (monitor v.now m)
  | .redistributeWorkload => set (← Reaction.exchange (redistribute v.now m))
  | .analyzePerformance =>
    let (report, m) ← Reaction.exchange (analyze v.now m)
    set { m with reports := m.reports ++ [report] }
  | other => throw (.unhandledEvent v.self other.tag)

/-- the last report -/
def shutdown (now : Time) (m : Manager) : Exchange W Manager := do
  Exchange.remark .info (s!"t={places 2 now} {m.settings.name} shutting down: " ++
    s!"{m.records.length} subordinates managed, {m.creationFailures.length} creation failures")
  let (report, m) ← analyze now m
  return { m with finalReport? := some report }

end Manager

end BrokerSim
