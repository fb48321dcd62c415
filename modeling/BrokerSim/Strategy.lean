/-
Allocation strategies. A manager goes through the three of them in turn, one step for each signal to redistribute;
choosing the strategy is all that happens here, acting on it is up to the execution service.
-/
import BrokerSim.Failure

namespace BrokerSim

/-- how work is to be spread over subordinates -/
inductive Strategy where
  | roundRobin
  | loadBalanced
  | performanceOptimized
  deriving Repr, DecidableEq

namespace Strategy

def all : List Strategy := [roundRobin, loadBalanced, performanceOptimized]

/-- the strategy in settings and results -/
def name : Strategy → String
  | roundRobin => "RoundRobin"
  | loadBalanced => "LoadBalanced"
  | performanceOptimized => "PerformanceOptimized"

/-- the strategy in a message -/
def text : Strategy → String
  | roundRobin => "ROUND_ROBIN"
  | loadBalanced => "LOAD_BALANCED"
  | performanceOptimized => "PERFORMANCE_OPTIMIZED"

def ofName? (s : String) : Option Strategy := all.find? fun strategy => strategy.name == s

/-- the strategy that comes after this one -/
def next : Strategy → Strategy
  | roundRobin => loadBalanced
  | loadBalanced => performanceOptimized
  | performanceOptimized => roundRobin

/-- what one signal to redistribute decides -/
structure Plan where
  previous : Strategy
  strategy : Strategy
  /-- the subordinates it applies to, in the order of their creation -/
  affected : List EntityId
  deriving Repr, DecidableEq

/-- the decision on a signal -/
def plan (current : Strategy) (subordinates : List EntityId) : Plan := ⟨current, current.next, subordinates⟩

/-- the strategy of one manager, and how often it has changed -/
structure Cycle where
  current : Strategy := roundRobin
  switches : Nat := 0
  deriving Repr, DecidableEq

/-- take one step -/
def Cycle.redistribute (c : Cycle) (subordinates : List EntityId) : Plan × Cycle :=
  let p := plan c.current subordinates
  (p, { current := p.strategy, switches := c.switches + 1 })

end Strategy

end BrokerSim
