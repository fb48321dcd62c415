/-
Subordinates: each hands its bundle to the execution service when it starts, then asks for the results again and again
until there is one for every task or its deadline passes. Whichever comes first is final.
-/
import BrokerSim.Broker.Signal
import BrokerSim.Execution.Service
import BrokerSim.Workload.Bundle

namespace BrokerSim

open Decimal

/-- how often results are asked for, and for how long -/
structure CollectionPolicy where
  /-- seconds between two requests -/
  interval : Float := 10
  /-- seconds after the start at which waiting ends -/
  timeout : Float := 60
  deriving Repr, DecidableEq

/-- what is wrong with a policy, if anything; an interval of zero would ask forever at one time -/
def CollectionPolicy.fault? (p : CollectionPolicy) : Option CreationFailure :=
  if !(p.interval.isFinite && 0 < p.interval) then
    some (.invalidCollectionPolicy s!"interval must be positive and finite, got {plain p.interval}")
  else if !(p.timeout.isFinite && 0 ≤ p.timeout) then
    some (.invalidCollectionPolicy s!"timeout must be non-negative and finite, got {plain p.timeout}")
  else none

/-- the broker of one bundle -/
structure Subordinate where
  name : String
  bundle : Bundle
  policy : CollectionPolicy
  /-- its own deadline, while that is still to come -/
  deadline? : Option Handle := none
  /-- results seen when it last asked -/
  results : List TaskResult := []
  collected : Bool := false
  timedOut : Bool := false
  deriving Repr, DecidableEq

namespace Subordinate

variable {ε W : Type} [ExecutionService W]

/-- hand over the bundle, and plan the first request and the deadline -/
def start : Reaction Subordinate ε Signal W Unit := do
  let sub ← get
  let v ← Reaction.view
  Reaction.call (ExecutionService.submitVms v.self sub.bundle.vms)
  Reaction.call (ExecutionService.submitTasks v.self sub.bundle.tasks)
  Reaction.remark .info (s!"t={places 2 v.now} {sub.name} ({v.self.text}) submitted {sub.bundle.vms.length} VMs and " ++
    s!"{sub.bundle.tasks.length} tasks for {sub.bundle.workload.label}")
  let _ ← Reaction.scheduleSelf sub.policy.interval .collectResults
  let deadline ← Reaction.scheduleSelf sub.policy.timeout .resultsDeadline
  modify fun sub => { sub with deadline? := some deadline }

/-- is there a result for every task? -/
def isComplete (sub : Subordinate) : Bool := sub.bundle.tasks.length ≤ sub.results.length

/-- the deadline is struck off once everything is there -/
def conclude : Reaction Subordinate ε Signal W Unit := do
  let sub ← get
  set { sub with collected := true, deadline? := none }
  if let some deadline := sub.deadline? then
    let _ ← Reaction.cancel deadline
  Reaction.remark .debug
    s!"{sub.name} collected {sub.results.length} results at t={places 2 (← Reaction.view).now}"

/-- ask for results, unless the matter is settled -/
def collect : Reaction Subordinate ε Signal W Unit := do
  let sub ← get
  if sub.collected || sub.timedOut then return
  let results ← Reaction.call (ExecutionService.completedTasks (← Reaction.view).self)
  let sub := { sub with results }
  set sub
  if sub.isComplete then conclude
  else
    let _ ← Reaction.scheduleSelf sub.policy.interval .collectResults

/-- stop waiting, unless everything is there -/
def giveUp : Reaction Subordinate ε Signal W Unit := do
  let sub ← get
  if sub.collected then set { sub with deadline? := none }
  else
    set { sub with deadline? := none, timedOut := true }
    Reaction.remark .warn (s!"{sub.name} gave up waiting at t={places 2 (← Reaction.view).now}: " ++
      s!"{sub.results.length} of {sub.bundle.tasks.length} results")

def react (e : Event Signal) : Reaction Subordinate ε Signal W Unit := do
  match e.message with
  | .collectResults => collect
  | .resultsDeadline => giveUp
  | other => throw (.unhandledEvent (← Reaction.view).self other.tag)

/-- a number that may be missing, in a message -/
def optionalText : Option Nat → String
  | none => "None"
  | some n => s!"Some({n})"

/-- the log line of a result -/
def resultLine (r : TaskResult) : String :=
  if r.status.isSuccess then
    s!"  task {r.taskId}: {r.status.text} - {places 2 r.cpuTime}s, " ++
      s!"datacenter {optionalText r.resourceId?}, VM {optionalText r.vmId?}"
  else s!"  task {r.taskId}: {r.status.text}"

def shutdown (now : Time) (sub : Subordinate) : Exchange W Subordinate := do
  Exchange.remark .info s!"t={places 2 now} {sub.name} shutting down with {sub.results.length} results"
  sub.results.forM fun r => Exchange.remark .debug (resultLine r)
  return sub

end Subordinate

end BrokerSim
