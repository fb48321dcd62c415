/-
A guest that makes trouble: it wakes itself once and answers every event with the same error.
-/
import BrokerSim.Broker.Agent

namespace BrokerSim.Standin

/-- a guest that fails -/
structure Saboteur where
  /-- when it wakes itself -/
  delay : Float
  error : SimError
  deriving Repr, DecidableEq

instance {W : Type} : Guest Saboteur W where
  name _ := "saboteur"
  start := do
    let _ ← Reaction.scheduleSelf (← get).delay .monitorResources
  react _ := do throw (← get).error
  shutdown _ := pure

end BrokerSim.Standin
