/-
The entities of a broker simulation: managers, subordinates, and guests of any other kind that speak their language.
-/
import BrokerSim.Broker.Manager

namespace BrokerSim

/-- an entity of a broker simulation with guests `ω` -/
inductive Agent (ω : Type) where
  | manager (m : Manager)
  | subordinate (s : Subordinate)
  | guest (g : ω)
  deriving Repr, DecidableEq

/-- entities of another kind that live among managers and subordinates -/
class Guest (ω W : Type) extends Named ω where
  start : Reaction ω (Agent ω) Signal W Unit
  react : Event Signal → Reaction ω (Agent ω) Signal W Unit
  shutdown : Time → ω → Exchange W ω

instance {W : Type} : Guest Empty W where
  name := Empty.elim
  start := do (← get).elim
  react _ := do (← get).elim
  shutdown _ := Empty.elim

namespace Agent

variable {ω W : Type}

def manager? : Agent ω → Option Manager
  | manager m => some m
  | _ => none

def subordinate? : Agent ω → Option Subordinate
  | subordinate s => some s
  | _ => none

instance [ExecutionService W] [Guest ω W] : Entity (Agent ω) Signal W where
  name
    | manager m => m.settings.name
    | subordinate s => s.name
    | guest g => Guest.toNamed W |>.name g
  start := do
    match ← get with
    | manager m => Reaction.within manager m Manager.start
    | subordinate s => Reaction.within subordinate s Subordinate.start
    | guest g => Reaction.within guest g Guest.start
  react e := do
    match ← get with
    | manager m => Reaction.within manager m (Manager.react subordinate e)
    | subordinate s => Reaction.within subordinate s (Subordinate.react e)
    | guest g => Reaction.within guest g (Guest.react e)
  shutdown now
    | manager m => manager <$> m.shutdown now
    | subordinate s => subordinate <$> s.shutdown now
    | guest g => guest <$> Guest.shutdown now g

end Agent

end BrokerSim
