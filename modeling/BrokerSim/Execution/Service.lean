/-
The execution service: it takes machines and tasks from subordinates and later tells how the tasks ended. Anything
that answers these four calls can be the world of a manager and its subordinates.
-/
import BrokerSim.Execution.Task
import BrokerSim.Kernel.Exchange
import BrokerSim.Strategy

namespace BrokerSim

/-- a call to a service: a value or a refusal -/
abbrev Call (W α : Type) : Type := Exchange W (Except SimError α)

/-- a call that is granted and does nothing -/
def Call.granted {W : Type} : Call W Unit := fun w => (.ok (), w, [])

/-- worlds that execute tasks -/
class ExecutionService (W : Type) where
  /-- the service in a log -/
  name : W → String
  submitVms : EntityId → List Vm → Call W Unit
  submitTasks : EntityId → List Task → Call W Unit
  /-- results of everything that the subordinate submitted -/
  completedTasks : EntityId → Call W (List TaskResult)
  /-- act on a strategy, if the service does so at all -/
  applyStrategy : EntityId → Strategy → Call W Unit := fun _ _ => Call.granted

end BrokerSim
