/-
What is executed and where: virtual machines, tasks, and the records that tell how a task ended.
-/
import BrokerSim.Clock

namespace BrokerSim

/-- a virtual machine -/
structure Vm where
  id : Nat
  /-- speed of a core, in million instructions a second -/
  mipsPerCore : Nat
  cores : Nat
  ramMb : Nat
  bandwidth : Nat
  diskMb : Nat
  /-- name of the virtual machine monitor -/
  vmm : String
  deriving Repr, DecidableEq

/-- a task -/
structure Task where
  id : Nat
  /-- in million instructions -/
  length : Nat
  cores : Nat
  inputSize : Nat
  outputSize : Nat
  deriving Repr, DecidableEq

/-- how a task stands -/
inductive TaskStatus where
  | success
  | failed
  | canceled
  | paused
  | resumed
  | created
  deriving Repr, DecidableEq

namespace TaskStatus

def all : List TaskStatus := [success, failed, canceled, paused, resumed, created]

/-- the status in results -/
def name : TaskStatus → String
  | success => "Success"
  | failed => "Failed"
  | canceled => "Canceled"
  | paused => "Paused"
  | resumed => "Resumed"
  | created => "Created"

/-- the status in a message -/
def text : TaskStatus → String
  | success => "SUCCESS"
  | failed => "FAILED"
  | canceled => "CANCELED"
  | paused => "PAUSED"
  | resumed => "RESUMED"
  | created => "CREATED"

def ofName? (s : String) : Option TaskStatus := all.find? fun status => status.name == s

def isSuccess (s : TaskStatus) : Bool := s = success

end TaskStatus

/-- how one task ended -/
structure TaskResult where
  taskId : Nat
  status : TaskStatus
  /-- seconds of execution -/
  cpuTime : Float
  startTime : Time
  finishTime : Time
  vmId? : Option Nat
  /-- the datacenter that executed the task -/
  resourceId? : Option Nat
  deriving Repr, DecidableEq

/-- the result of a task that never ran -/
def TaskResult.failed (taskId : Nat) (time : Time) : TaskResult :=
  { taskId, status := .failed, cpuTime := 0, startTime := time, finishTime := time, vmId? := none, resourceId? := none }

end BrokerSim
