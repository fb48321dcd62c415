/-
The steps of a simulation. Registering starts an entity; a run delivers events one by one until nothing is left, a
bound is met or an entity asks to stop; finishing shuts every running entity down, once. Neither the spawns of one
reaction nor the events of one run need come to an end, so both are given `fuel`, the number of turns they may take:
no answer means that the fuel did not last, and an answer does not depend on how much was left.
-/
import BrokerSim.Kernel.Simulation

namespace BrokerSim

/-- why a run came to rest -/
inductive RunOutcome where
  /-- no event is left -/
  | drained
  /-- the next event lies beyond the time asked for -/
  | horizon
  /-- an entity or the caller asked to stop -/
  | stopped
  /-- as many events as allowed were delivered -/
  | eventLimit
  deriving Repr, DecidableEq

def RunOutcome.name : RunOutcome → String
  | drained => "Drained"
  | horizon => "Horizon"
  | stopped => "Stopped"
  | eventLimit => "EventLimit"

/-- counters of a run -/
structure Stats where
  dispatched : Nat
  cancelled : Nat
  /-- all entities, the spawned ones included -/
  registered : Nat
  spawned : Nat
  recoverable : Tally
  finalTime : Time
  deriving Repr, DecidableEq

namespace Simulation

variable {ε μ W : Type} [Entity ε μ W]

/-- what a call comes to: a value or the error that ended the run, and the simulation after it -/
abbrev Result (ε μ W α : Type) : Type := Except SimError α × Simulation ε μ W

def stats (s : Simulation ε μ W) : Stats :=
  { dispatched := s.dispatched, cancelled := s.agenda.cancelled, registered := s.registered, spawned := s.spawned,
    recoverable := s.recoverable, finalTime := s.now }

/-! ## Ending -/

/-- shut one entity down if it runs -/
def close (s : Simulation ε μ W) (id : EntityId) : Simulation ε μ W :=
  match s.entities[id]? with
  | none => s
  | some slot =>
    if slot.state = .running then
      let (entity, s) := (s.note (.closed s.now id)).exchange (Entity.shutdown μ s.now slot.entity)
      { s with entities := s.entities.setIfInBounds id { slot with state := .shutdown, entity } }
    else s

/-- end the run: every running entity is shut down, in the order of ids -/
def finish (s : Simulation ε μ W) : Simulation ε μ W :=
  if s.terminated then s
  else
    let s := { s with terminated := true, waiting := [] }
    let s := (List.range s.entities.size).foldl close s
    s.note (.finished s.now s.dispatched s.entities.size)

/-- end the run from outside -/
def stop (s : Simulation ε μ W) : Simulation ε μ W := s.finish

/-! ## Errors -/

/-- an error of entity `id`: tallied if the run survives it, else handed on -/
def absorb (id : EntityId) (e : SimError) (s : Simulation ε μ W) : Result ε μ W Unit :=
  if e.isRecoverable then
    (.ok (), { s.note (.recovered s.now id e) with recoverable := s.recoverable.add e.kind })
  else (.error e, s.note (.halted s.now id e))

/-- the outcome of a start or a reaction of entity `id` -/
def absorbOutcome (id : EntityId) (r : Except SimError Unit) (s : Simulation ε μ W) : Result ε μ W Unit :=
  match r with
  | .ok () => (.ok (), s)
  | .error e => s.absorb id e

/-! ## Starting -/

/-- put an entity at the end of the registry -/
def insert (id : EntityId) (e : ε) (s : Simulation ε μ W) : Simulation ε μ W :=
  let name := Named.name e
  let s := s.note (.registered id name)
  { s with entities := s.entities.push ⟨name, .created, e⟩, registered := s.registered + 1 }

/-- start the entity under an id: it runs unless its start fails -/
def start (id : EntityId) (s : Simulation ε μ W) : Result ε μ W Unit :=
  match s.entities[id]? with
  | none => (.ok (), s.note (.misplaced id))
  | some slot =>
    let ((r, entity), s) := (Entity.start.run.run slot.entity).perform id (s.note (.started id))
    let state : LifecycleState := if (failure? r).isNone then .running else .shutdown
    (r, { s.note (.answered id (failure? r)) with entities := s.entities.setIfInBounds id { slot with state, entity } })

/-- insert and start one entity -/
def enrol (id : EntityId) (e : ε) (s : Simulation ε μ W) : Result ε μ W Unit :=
  let (r, s) := (s.insert id e).start id
  s.absorbOutcome id r

/-- enrol every entity that waits, and those that they spawn, until none is left -/
def settle (fuel : Nat) (s : Simulation ε μ W) : Option (Result ε μ W Unit) :=
  match s.waiting with
  | [] => some (.ok (), s)
  | (id, e) :: rest =>
    match fuel with
    | 0 => none
    | fuel + 1 =>
      match ({ s with waiting := rest, spawned := s.spawned + 1 }).enrol id e with
      | (.ok (), s) => s.settle fuel
      | (.error err, s) => some (.error err, s)

/-- register and start an entity, and those it spawns -/
def register (fuel : Nat) (e : ε) (s : Simulation ε μ W) : Option (Result ε μ W EntityId) :=
  if s.terminated then some (.error (.terminated s.now), s)
  else
    let (id, s) := s.nameNext e
    match s.enrol id e with
    | (.error err, s) => some (.error err, s)
    | (.ok (), s) => (s.settle fuel).map fun (r, s) => (r.map fun _ => id, s)

/-! ## Running -/

/-- let the target of an event react -/
def react (e : Event μ) (slot : Slot ε) (s : Simulation ε μ W) : Result ε μ W Unit :=
  let s := { s.note (.dispatched e) with dispatched := s.dispatched + 1 }
  let ((r, entity), s) := ((Entity.react e).run.run slot.entity).perform e.target s
  (r, { s with entities := s.entities.setIfInBounds e.target { slot with entity } })

/-- deliver an event that has left the agenda, and enrol what was spawned -/
def dispatch (fuel : Nat) (e : Event μ) (s : Simulation ε μ W) : Option (Result ε μ W Unit) :=
  match (s.entities[e.target]?).filter fun slot => slot.state = .running with
  | none => some ((s.note (.dropped e)).absorb e.target (.unknownTarget e.target))
  | some slot =>
    let (r, s) := s.react e slot
    match s.absorbOutcome e.target r with
    | (.ok (), s) => s.settle fuel
    | (.error err, s) => some (.error err, s)

/-- the limit on events, once it is reached -/
def limitReached? (s : Simulation ε μ W) : Option Nat :=
  (s.limits.maxEvents?.map UInt64.toNat).filter fun limit => limit ≤ s.dispatched

/-- does the time lie beyond the horizon? -/
def isBeyond (horizon : Option Time) (t : Time) : Bool :=
  match horizon with
  | none => false
  | some limit => limit < t

/-- what brings the run to rest before its next event, if anything does -/
def rest? (horizon : Option Time) (s : Simulation ε μ W) : Option (RunOutcome × Simulation ε μ W) :=
  if s.terminated then some (.stopped, s)
  else if s.stopRequested then some (.stopped, (s.note (.stopping s.now)).finish)
  else match s.limitReached? with
  | some limit => some (.eventLimit, s.note (.limitReached limit s.now))
  | none =>
    match s.agenda.nextTime? with
    | none => some (.drained, s)
    | some t => if isBeyond horizon t then some (.horizon, s) else none

/-- deliver events until the run comes to rest; a fatal error ends it -/
def loop (horizon : Option Time) (fuel : Nat) (s : Simulation ε μ W) : Option (Result ε μ W RunOutcome) :=
  match s.rest? horizon with
  | some (outcome, s) => some (.ok outcome, s)
  | none =>
    match s.agenda.next? with
    | none => some (.ok .drained, s)
    | some (e, agenda) =>
      match fuel with
      | 0 => none
      | fuel + 1 =>
        match ({ s with agenda }).dispatch fuel e with
        | none => none
        | some (.ok (), s) => s.loop horizon fuel
        | some (.error err, s) => some (.error err, s.finish)

/-- run to the end: within the configured bounds, and shut down whatever happens -/
def run (fuel : Nat) (s : Simulation ε μ W) : Option (Result ε μ W RunOutcome) :=
  (s.loop s.limits.until? fuel).map fun (r, s) => (r, s.finish)

/-- run up to a time, that time included, and pause -/
def runUntil (time : Time) (fuel : Nat) (s : Simulation ε μ W) : Option (Result ε μ W RunOutcome) :=
  s.loop (some time) fuel

/-- deliver one event; false if there was none to deliver -/
def step (fuel : Nat) (s : Simulation ε μ W) : Option (Result ε μ W Bool) :=
  if s.terminated then some (.ok false, s)
  else match s.agenda.next? with
  | none => some (.ok false, s)
  | some (e, agenda) =>
    match ({ s with agenda }).dispatch fuel e with
    | none => none
    | some (.error err, s) => some (.error err, s.finish)
    | some (.ok (), s) => some (.ok true, if s.stopRequested then s.finish else s)

end Simulation

end BrokerSim
