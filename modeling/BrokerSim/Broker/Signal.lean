/-
The messages of the broker simulation.
-/
import BrokerSim.Kernel.Entity

namespace BrokerSim

/-- what managers and subordinates are told -/
inductive Signal where
  /-- create a subordinate for a workload label -/
  | createSubordinate (workload : Option String)
  /-- log what every subordinate holds -/
  | monitorResources
  /-- go on to the next strategy and apply it -/
  | redistributeWorkload
  /-- report on the tasks that have ended -/
  | analyzePerformance
  /-- ask the execution service for results -/
  | collectResults
  /-- give up waiting for results -/
  | resultsDeadline
  deriving Repr, DecidableEq

def Signal.tag : Signal → String
  | createSubordinate _ => "CREATE_SUBORDINATE"
  | monitorResources => "MONITOR_RESOURCES"
  | redistributeWorkload => "REDISTRIBUTE_WORKLOAD"
  | analyzePerformance => "ANALYZE_PERFORMANCE"
  | collectResults => "COLLECT_RESULTS"
  | resultsDeadline => "RESULTS_DEADLINE"

instance : Message Signal := ⟨Signal.tag⟩

end BrokerSim
