/-
Entities: what has a name, starts once, reacts to events while it runs, and is shut down when the run ends.
-/
import BrokerSim.Kernel.Action

namespace BrokerSim

/-- where an entity stands in its life -/
inductive LifecycleState where
  | created
  | running
  | shutdown
  deriving Repr, DecidableEq

/-- the state in a message -/
def LifecycleState.text : LifecycleState → String
  | .created => "CREATED"
  | .running => "RUNNING"
  | .shutdown => "SHUTDOWN"

/-- the state in a table -/
def LifecycleState.name : LifecycleState → String
  | .created => "Created"
  | .running => "Running"
  | .shutdown => "Shutdown"

/-- messages that events carry -/
class Message (μ : Type) where
  /-- short name of the kind of message -/
  tag : μ → String

/-- things with a name -/
class Named (ε : Type) where
  name : ε → String

/-- the entities of a registry of `ε`, with messages `μ`, in a world `W` -/
class Entity (ε μ W : Type) extends Named ε where
  /-- what it does right after it is registered -/
  start : Reaction ε ε μ W Unit
  /-- what it does when an event for it leaves the agenda -/
  react : Event μ → Reaction ε ε μ W Unit
  /-- its last words, at the time when the run ends -/
  shutdown : Time → ε → Exchange W ε

end BrokerSim
