/-
An execution service that keeps a timetable. Every subordinate has its own machines; its tasks go to them in turn and
each machine runs its tasks back to back, so a task takes as long as its length and its machine say. Failures and noise
are drawn from a seeded stream, so two timetables with the same settings give the same results.
-/
import BrokerSim.Execution.Service
import BrokerSim.Random.Normal
import Std.Data.ExtTreeMap

namespace BrokerSim

/-- settings of a timetable -/
structure ExecutorSettings where
  seed : UInt64 := 42
  /-- probability that a task fails -/
  failureRate : Float := 0
  /-- standard deviation of the noise, a factor on execution times -/
  jitter : Float := 0
  /-- machines are spread over so many datacenters -/
  datacenterCount : UInt64 := 3
  deriving Repr, DecidableEq

/-- what the timetable holds of one subordinate -/
structure Account where
  vms : List Vm := []
  /-- when each machine is free for its next task, in the order of the machines -/
  freeAt : List Time := []
  /-- tasks that have taken a turn -/
  turns : Nat := 0
  /-- in the order of submission -/
  results : List TaskResult := []
  /-- first one applied first -/
  strategies : List Strategy := []
  deriving Repr, DecidableEq

/-- what is drawn for a task before it is placed: does it fail, and by which factor is its time stretched -/
structure Fate where
  fails : Bool
  stretch : Float
  deriving Repr, DecidableEq

/-- the service: its settings, its stream and an account for each subordinate -/
structure Timetable where
  settings : ExecutorSettings
  stream : Random.Stream
  accounts : Std.ExtTreeMap EntityId Account := ∅

namespace ExecutorSettings

def isNoisy (s : ExecutorSettings) : Bool := 0 < s.jitter

/-- what is wrong with the settings, if anything -/
def fault? (s : ExecutorSettings) : Option SimError :=
  if !(0 ≤ s.failureRate && s.failureRate ≤ 1) then
    some (.execution s!"failure_rate must be within [0, 1], got {Decimal.plain s.failureRate}")
  else if s.datacenterCount = 0 then some (.execution "datacenter_count must be at least 1")
  else if s.isNoisy && !s.jitter.isFinite then
    some (.execution
      s!"invalid jitter {Decimal.plain s.jitter}: variation parameter is non-finite in (log)normal distribution")
  else none

/-- an empty timetable, unless the settings are wrong -/
def timetable (s : ExecutorSettings) : Except SimError Timetable :=
  match s.fault? with
  | some e => .error e
  | none => .ok { settings := s, stream := .ofSeed s.seed }

end ExecutorSettings

/-- a deviation from one as a factor, which never falls below a tenth -/
def Fate.factor (deviation : Float) : Float :=
  let factor := 1 + deviation
  if 0.1 < factor then factor else 0.1

namespace Account

def vmCount (a : Account) : Nat := a.vms.length

/-- more machines, which are free from the beginning; there is to be one time for each machine -/
def addVms (vms : List Vm) (a : Account) : Account :=
  let vms := a.vms ++ vms
  { a with vms, freeAt := (a.freeAt.take vms.length).rightpad vms.length 0 }

/-- seconds that a machine needs for a task -/
def cpuTime (vm : Vm) (task : Task) (stretch : Float) : Float :=
  task.length.toFloat / (vm.mipsPerCore.toFloat * (max (min task.cores vm.cores) 1).toFloat) * stretch

/-- a task on the machine whose turn it is; without machines it fails and takes no turn -/
def place (datacenters : Nat) (task : Task) (fate : Fate) (a : Account) : TaskResult × Account :=
  let slot := a.turns % a.vms.length
  match a.vms[slot]? with
  | none => (.failed task.id 0, a)
  | some vm =>
    let startTime := a.freeAt.getD slot 0
    let a := { a with turns := a.turns + 1 }
    let vmId? := some vm.id
    let resourceId? := some (vm.id % datacenters)
    if fate.fails then ({ TaskResult.failed task.id startTime with vmId?, resourceId? }, a)
    else
      let cpuTime := cpuTime vm task fate.stretch
      let finishTime := startTime + cpuTime
      ({ taskId := task.id, status := .success, cpuTime, startTime, finishTime, vmId?, resourceId? },
        { a with freeAt := a.freeAt.set slot finishTime })

end Account

namespace Timetable

/-- the account of a subordinate, if it has submitted anything -/
def account? (id : EntityId) (t : Timetable) : Option Account := t.accounts[id]?

def account (id : EntityId) (t : Timetable) : Account := (t.account? id).getD {}

def setAccount (id : EntityId) (a : Account) (t : Timetable) : Timetable :=
  { t with accounts := t.accounts.insert id a }

/-- draw the fate of the next task: first whether it fails, then its noise -/
def drawFate (settings : ExecutorSettings) (stream : Random.Stream) : Fate × Random.Stream :=
  let (fails, stream) := if 0 < settings.failureRate then stream.chance settings.failureRate else (false, stream)
  if settings.isNoisy then
    let (z, stream) := stream.normal
    (⟨fails, Fate.factor (0 + settings.jitter * z)⟩, stream)
  else (⟨fails, 1⟩, stream)

/-- execute one task of a subordinate: its result is kept in the account -/
def execute (id : EntityId) (t : Timetable) (task : Task) : Timetable :=
  let (fate, stream) := drawFate t.settings t.stream
  let (result, account) := (t.account id).place t.settings.datacenterCount.toNat task fate
  { t with stream }.setAccount id { account with results := account.results ++ [result] }

def submitVms (id : EntityId) (vms : List Vm) (t : Timetable) : Timetable :=
  t.setAccount id ((t.account id).addVms vms)

def submitTasks (id : EntityId) (tasks : List Task) (t : Timetable) : Timetable :=
  tasks.foldl (execute id) (t.setAccount id (t.account id))

/-- machines submitted for a subordinate -/
def vmCount (id : EntityId) (t : Timetable) : Nat := (t.account id).vmCount

/-- strategies applied to a subordinate, first one first -/
def strategiesApplied (id : EntityId) (t : Timetable) : List Strategy := (t.account id).strategies

def completedTasks (id : EntityId) (t : Timetable) : Except SimError (List TaskResult) :=
  match t.account? id with
  | some a => .ok a.results
  | none => .error (.execution s!"{id.text} never submitted anything")

def applyStrategy (id : EntityId) (strategy : Strategy) (t : Timetable) : Except SimError Timetable :=
  match t.account? id with
  | some a => .ok (t.setAccount id { a with strategies := a.strategies ++ [strategy] })
  | none => .error (.execution s!"cannot apply {strategy.text} to unknown {id.text}")

instance : ExecutionService Timetable where
  name _ := "simulated"
  submitVms id vms := fun t =>
    (.ok (), t.submitVms id vms, [⟨.debug, s!"{id.text} submitted {vms.length} VMs"⟩])
  submitTasks id tasks := fun t =>
    (.ok (), t.submitTasks id tasks, [⟨.debug, s!"{id.text} submitted {tasks.length} tasks"⟩])
  completedTasks id := Exchange.read (completedTasks id)
  applyStrategy id strategy := Exchange.update fun t =>
    match t.applyStrategy id strategy with
    | .ok t => (.ok (), t)
    | .error e => (.error e, t)

end Timetable

end BrokerSim
