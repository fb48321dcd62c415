/-
Settings of a run: the bounds of the simulation, the manager and its schedule, and the execution service. The default
schedule shows everything a manager can do.
-/
import BrokerSim.Broker.Subordinate
import BrokerSim.Execution.Timetable
import BrokerSim.Kernel.Simulation

namespace BrokerSim

/-- something that a manager does at a set time -/
inductive ManagerAction where
  | createSubordinate (workload : Option String)
  | monitorResources
  | redistributeWorkload
  | analyzePerformance
  deriving Repr, DecidableEq

/-- the signal that makes a manager do it -/
def ManagerAction.signal : ManagerAction → Signal
  | createSubordinate workload => .createSubordinate workload
  | monitorResources => .monitorResources
  | redistributeWorkload => .redistributeWorkload
  | analyzePerformance => .analyzePerformance

/-- an action and its time -/
structure ScheduledAction where
  /-- seconds after the start of the manager -/
  delay : Float
  action : ManagerAction
  deriving Repr, DecidableEq

/-- three subordinates, two looks at the resources, one new strategy and one report -/
def standardSchedule : List ScheduledAction :=
  [⟨5, .createSubordinate (some "InitialWorkload")⟩, ⟨20, .createSubordinate (some "PeakWorkload")⟩,
    ⟨40, .createSubordinate (some "LateWorkload")⟩, ⟨30, .monitorResources⟩, ⟨60, .monitorResources⟩,
    ⟨50, .redistributeWorkload⟩, ⟨90, .analyzePerformance⟩]

/-- settings of a manager -/
structure ManagerSettings where
  name : String := "GlobalManager"
  /-- no more subordinates than this are created -/
  maxSubordinates : UInt64 := 20
  initialStrategy : Strategy := .roundRobin
  /-- seconds between two requests of a subordinate for results -/
  collectionInterval : Float := 10
  /-- seconds after its start at which a subordinate stops waiting -/
  resultsTimeout : Float := 60
  schedule : List ScheduledAction := standardSchedule
  deriving Repr, DecidableEq

def ManagerSettings.policy (s : ManagerSettings) : CollectionPolicy := ⟨s.collectionInterval, s.resultsTimeout⟩

/-- settings of a run -/
structure RunSettings where
  limits : Limits := {}
  manager : ManagerSettings := {}
  executor : ExecutorSettings := {}
  deriving Repr, DecidableEq

end BrokerSim
