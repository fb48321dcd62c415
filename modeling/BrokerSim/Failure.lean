/-
What can go wrong in a run, and the text that says so. A recoverable error is tallied by its kind and the run goes on;
the other three kinds end it.
-/
import BrokerSim.Clock
import BrokerSim.Decimal.Layout
import BrokerSim.Text.Quoted

namespace BrokerSim

open Decimal Text

/-- names an entity: ids count up from 0 and are never given twice -/
abbrev EntityId := Nat

def EntityId.text (id : EntityId) : String := s!"#{id}"

/-- why a subordinate was not created -/
inductive CreationFailure where
  | missingWorkload
  /-- the label is blank or holds a control character -/
  | malformedWorkload (label : String)
  | invalidCollectionPolicy (reason : String)
  /-- the manager holds as many subordinates as it may -/
  | capacityExceeded (limit : Nat)
  deriving Repr, DecidableEq

def CreationFailure.text : CreationFailure → String
  | .missingWorkload => "no workload label supplied"
  | .malformedWorkload label => s!"malformed workload label {quoted label}"
  | .invalidCollectionPolicy reason => s!"invalid collection policy: {reason}"
  | .capacityExceeded limit => s!"subordinate limit of {limit} reached"

/-- an error met by the simulation or by one of its entities -/
inductive SimError where
  /-- a delay that is negative, infinite or not a number -/
  | invalidSchedule (reason : String)
  /-- an event for an entity that is missing or not running -/
  | unknownTarget (target : EntityId)
  | entityCreation (failure : CreationFailure)
  | unhandledEvent (entity : EntityId) (tag : String)
  /-- the execution service refused a request -/
  | execution (reason : String)
  /-- a reaction failed beyond recovery -/
  | reaction (entity : EntityId) (reason : String)
  /-- the run has ended, at this time -/
  | terminated (time : Time)
  deriving Repr, DecidableEq

def SimError.text : SimError → String
  | .invalidSchedule reason => s!"Invalid schedule: {reason}"
  | .unknownTarget target => s!"Unknown target: {target.text} is not registered or already shut down"
  | .entityCreation failure => s!"Entity creation failed: {failure.text}"
  | .unhandledEvent entity tag => s!"Entity {entity.text} ignored unhandled event {tag}"
  | .execution reason => s!"Execution error: {reason}"
  | .reaction entity reason => s!"Reaction of {entity.text} failed: {reason}"
  | .terminated time => s!"Simulation terminated at t={places 2 time}"

/-- errors as they are tallied -/
inductive ErrorKind where
  | invalidSchedule
  | unknownTarget
  | entityCreation
  | unhandledEvent
  | execution
  | reaction
  | terminated
  deriving Repr, DecidableEq

def SimError.kind : SimError → ErrorKind
  | .invalidSchedule _ => .invalidSchedule
  | .unknownTarget _ => .unknownTarget
  | .entityCreation _ => .entityCreation
  | .unhandledEvent _ _ => .unhandledEvent
  | .execution _ => .execution
  | .reaction _ _ => .reaction
  | .terminated _ => .terminated

/-- does the run go on after an error of this kind? -/
def ErrorKind.isRecoverable : ErrorKind → Bool
  | .invalidSchedule | .reaction | .terminated => false
  | .unknownTarget | .entityCreation | .unhandledEvent | .execution => true

def SimError.isRecoverable (e : SimError) : Bool := e.kind.isRecoverable

/-- the error of an outcome, if it is one -/
def failure? {α : Type} : Except SimError α → Option SimError
  | .ok _ => none
  | .error e => some e

namespace ErrorKind

/-- every kind, in the order of reports -/
def all : List ErrorKind :=
  [invalidSchedule, unknownTarget, entityCreation, unhandledEvent, execution, reaction, terminated]

def name : ErrorKind → String
  | invalidSchedule => "InvalidSchedule"
  | unknownTarget => "UnknownTarget"
  | entityCreation => "EntityCreation"
  | unhandledEvent => "UnhandledEvent"
  | execution => "Execution"
  | reaction => "Reaction"
  | terminated => "Terminated"

/-- place of a kind among the seven -/
def index : ErrorKind → Fin 7
  | invalidSchedule => 0
  | unknownTarget => 1
  | entityCreation => 2
  | unhandledEvent => 3
  | execution => 4
  | reaction => 5
  | terminated => 6

end ErrorKind

/-- how often errors of each kind were met -/
structure Tally where
  counts : Vector Nat 7 := Vector.replicate 7 0
  deriving Repr, DecidableEq

def Tally.count (t : Tally) (k : ErrorKind) : Nat := t.counts[k.index]

/-- one more error of this kind -/
def Tally.add (t : Tally) (k : ErrorKind) : Tally := ⟨t.counts.set k.index (t.count k + 1)⟩

/-- the kinds that were met, in the order of reports, with their counts -/
def Tally.met (t : Tally) : List (ErrorKind × Nat) :=
  (ErrorKind.all.map fun k => (k, t.count k)).filter fun (_, n) => n != 0

end BrokerSim
