/-
Settings as JSON, every field written. `real` says how a float is written.
-/
import BrokerSim.Json.Value
import BrokerSim.Settings.Basic

namespace BrokerSim

open Json

/-- a 64-bit word as a whole number -/
def word (w : UInt64) : Json := .nat w.toNat

def Limits.toJson (real : Float → Json) (l : Limits) : Json :=
  .record [("until", .optional real l.until?), ("max_events", .optional word l.maxEvents?)]

/-- the members that describe an action -/
def ManagerAction.members : ManagerAction → List (String × Json)
  | createSubordinate workload =>
    [("action", .text "create_subordinate"), ("workload", .optional .text workload)]
  | monitorResources => [("action", .text "monitor_resources")]
  | redistributeWorkload => [("action", .text "redistribute_workload")]
  | analyzePerformance => [("action", .text "analyze_performance")]

def ScheduledAction.toJson (real : Float → Json) (s : ScheduledAction) : Json :=
  .record (("at", real s.delay) :: s.action.members)

def ManagerSettings.toJson (real : Float → Json) (s : ManagerSettings) : Json :=
  .record [("name", .text s.name), ("max_subordinates", word s.maxSubordinates),
    ("initial_strategy", .text s.initialStrategy.name), ("collection_interval", real s.collectionInterval),
    ("results_timeout", real s.resultsTimeout), ("schedule", .list (ScheduledAction.toJson real) s.schedule)]

def ExecutorSettings.toJson (real : Float → Json) (s : ExecutorSettings) : Json :=
  .record [("seed", word s.seed), ("failure_rate", real s.failureRate), ("jitter", real s.jitter),
    ("datacenter_count", word s.datacenterCount)]

def RunSettings.toJson (real : Float → Json) (s : RunSettings) : Json :=
  .record [("simulation", s.limits.toJson real), ("manager", s.manager.toJson real),
    ("executor", s.executor.toJson real)]

end BrokerSim
