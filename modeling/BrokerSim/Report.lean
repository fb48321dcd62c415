/-
Performance reports: how many tasks of each subordinate succeeded, how long they took, and the same over all
subordinates. Sums of floats run from left to right and begin at `-0.0`, which no sum can tell from nothing.
-/
import BrokerSim.Execution.Task
import BrokerSim.Failure

namespace BrokerSim

/-- sum of floats from left to right; nothing sums to `-0.0` -/
def sumFloats (xs : List Float) : Float := xs.foldl (· + ·) (-0.0)

/-- sum of a count over a list -/
def total {α : Type} (count : α → Nat) (xs : List α) : Nat := xs.foldr (fun x n => count x + n) 0

/-- figures of one subordinate -/
structure SubordinateStats where
  id : EntityId
  name : String
  successful : Nat
  /-- results of any other status -/
  failed : Nat
  /-- seconds of execution of the successful tasks -/
  executionTime : Float
  deriving Repr, DecidableEq

namespace SubordinateStats

/-- the figures of a list of results -/
def ofResults (id : EntityId) (name : String) (results : List TaskResult) : SubordinateStats :=
  let successful := results.filter fun r => r.status.isSuccess
  { id, name, successful := successful.length, failed := (results.filter fun r => !r.status.isSuccess).length
    executionTime := sumFloats (successful.map TaskResult.cpuTime) }

/-- the figures of a subordinate without results -/
def empty (id : EntityId) (name : String) : SubordinateStats := ofResults id name []

end SubordinateStats

/-- the share of tasks that succeeded; none if there are no tasks -/
def successRate (successful failed : Nat) : Float := successful.toFloat / (max (successful + failed) 1).toFloat

/-- figures of all subordinates at one time -/
structure PerformanceReport where
  time : Time
  subordinates : List SubordinateStats
  totalSuccessful : Nat
  totalFailed : Nat
  totalExecutionTime : Float
  /-- between 0 and 1 -/
  successRate : Float
  /-- seconds of execution for each subordinate -/
  averageExecutionTime : Float
  deriving Repr, DecidableEq

namespace PerformanceReport

/-- the report on some subordinates -/
def ofStats (time : Time) (subordinates : List SubordinateStats) : PerformanceReport :=
  let totalSuccessful := total SubordinateStats.successful subordinates
  let totalFailed := total SubordinateStats.failed subordinates
  let totalExecutionTime := sumFloats (subordinates.map SubordinateStats.executionTime)
  { time, subordinates, totalSuccessful, totalFailed, totalExecutionTime
    successRate := BrokerSim.successRate totalSuccessful totalFailed
    averageExecutionTime := totalExecutionTime / (max subordinates.length 1).toFloat }

def successPercent (r : PerformanceReport) : Float := r.successRate * 100

end PerformanceReport

end BrokerSim
