/-
The state of a simulation: the agenda, the registry, the entities reserved but not yet registered, the world, the
counters and the journal. `Action.perform` is what an action does to it; the steps of a run are in `Kernel.Run`.
-/
import BrokerSim.Kernel.Journal

namespace BrokerSim

/-- bounds of a run -/
structure Limits where
  /-- no event later than this is delivered -/
  until? : Option Time := none
  /-- no more events than this are delivered -/
  maxEvents? : Option UInt64 := none
  deriving Repr, DecidableEq

/-- a place of the registry -/
structure Slot (ε : Type) where
  name : String
  state : LifecycleState
  entity : ε
  deriving Repr, DecidableEq

/-- a simulation of entities `ε` with messages `μ` in a world `W` -/
structure Simulation (ε μ W : Type) where
  limits : Limits
  agenda : Agenda μ := {}
  /-- the registry; an id is an index into it -/
  entities : Array (Slot ε) := #[]
  nextId : EntityId := 0
  /-- entities with a reserved id, first reserved first -/
  waiting : List (EntityId × ε) := []
  stopRequested : Bool := false
  terminated : Bool := false
  dispatched : Nat := 0
  registered : Nat := 0
  spawned : Nat := 0
  recoverable : Tally := {}
  world : W
  /-- what happened, last first -/
  journal : List (Entry ε μ) := []

namespace Simulation

variable {ε μ W α : Type}

/-- a simulation in which nothing has happened -/
def fresh (limits : Limits) (world : W) : Simulation ε μ W := { limits, world }

def now (s : Simulation ε μ W) : Time := s.agenda.now

/-- write an entry into the journal -/
def note (e : Entry ε μ) (s : Simulation ε μ W) : Simulation ε μ W := { s with journal := e :: s.journal }

/-- the simulation as entity `self` sees it -/
def view (self : EntityId) (s : Simulation ε μ W) : View W :=
  { now := s.now, self, nextId := s.nextId, isPending := s.agenda.isPending, world := s.world }

/-- use the world from outside every entity -/
def exchange (x : Exchange W α) (s : Simulation ε μ W) : α × Simulation ε μ W :=
  let (a, world, remarks) := x s.world
  (a, { s with world, journal := remarks.foldl (fun j r => .remark r :: j) s.journal })

/-- an event from outside every entity -/
def schedule (delay : Float) (source target : EntityId) (message : μ) (s : Simulation ε μ W) :
    Except SimError Handle × Simulation ε μ W :=
  match s.agenda.schedule delay source target message with
  | .ok (h, agenda) => (.ok h, { s with agenda })
  | .error e => (.error e, s)

def cancel (h : Handle) (s : Simulation ε μ W) : Bool × Simulation ε μ W :=
  let (b, agenda) := s.agenda.cancel h
  (b, { s with agenda })

/-- give the next id to an entity -/
def nameNext (e : ε) (s : Simulation ε μ W) : EntityId × Simulation ε μ W :=
  (s.nextId, { s.note (.reserved s.nextId e) with nextId := s.nextId + 1 })

/-- give the next id to an entity that waits to be registered -/
def reserve (e : ε) (s : Simulation ε μ W) : EntityId × Simulation ε μ W :=
  let (id, s) := s.nameNext e
  (id, { s with waiting := s.waiting ++ [(id, e)] })

def requestStop (s : Simulation ε μ W) : Simulation ε μ W := { s with stopRequested := true }

/-- what the registry holds under an id -/
def slot? (id : EntityId) (s : Simulation ε μ W) : Option (Slot ε) := s.entities[id]?

/-- the log at a level, first line first -/
def log [Message μ] (level : Level) (s : Simulation ε μ W) : List String :=
  ((s.journal.reverse.filterMap Entry.remark?).filter fun r => level.shows r.level).map Remark.line

end Simulation

/-- carry out an action of entity `self` -/
def Action.perform {ε μ W α : Type} (self : EntityId) : Action ε μ W α → Simulation ε μ W → α × Simulation ε μ W
  | done a, s => (a, s)
  | observe next, s => (next (s.view self)).perform self s
  | schedule target delay message next, s =>
    let (r, s) := s.schedule delay self target message
    (next r).perform self s
  | cancel h next, s =>
    let (b, s) := s.cancel h
    (next b).perform self s
  | spawn e next, s =>
    let (id, s) := s.reserve e
    (next id).perform self s
  | stop next, s => next.perform self s.requestStop
  | write world next, s => next.perform self { s with world }
  | remark r next, s => next.perform self (s.note (.remark r))

end BrokerSim
