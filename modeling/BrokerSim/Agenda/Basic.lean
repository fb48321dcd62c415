/-
The agenda: the clock and every event still to come. Events leave it by time and, at equal times, in the order in which
they were scheduled. Cancelling only strikes the event off the set of pending handles; a struck event stays in the heap
until it reaches the top, where it is thrown away, so the top of the heap is always an event still to come.
-/
import BrokerSim.Agenda.Heap
import BrokerSim.Failure
import Std.Data.ExtTreeSet

namespace BrokerSim

/-- names a scheduled event: handles count up from 0, one for each event accepted -/
abbrev Handle := Nat

/-- one event: what is delivered to whom, when, and from whom -/
structure Event (μ : Type) where
  time : Time
  source : EntityId
  target : EntityId
  handle : Handle
  message : μ
  deriving Repr, DecidableEq

/-- does the first event leave the agenda before the second? -/
def Event.before {μ : Type} (a b : Event μ) : Bool :=
  match compare a.time.rank b.time.rank with
  | .lt => true
  | .eq => a.handle < b.handle
  | .gt => false

/-- the clock and the events still to come -/
structure Agenda (μ : Type) where
  now : Time := 0
  heap : Agenda.Heap (Event μ) := .empty
  /-- handles of the events that have neither left nor been cancelled -/
  pending : Std.ExtTreeSet Handle := ∅
  /-- handles given so far; the next event gets this one -/
  issued : Nat := 0
  cancelled : Nat := 0

namespace Agenda

variable {μ : Type}

/-- may an event be scheduled after this delay? -/
def accepts (delay : Float) : Bool := delay.isFinite && !(delay < 0)

/-- an event for `target`, `delay` after now; a delay that is negative or not finite is refused -/
def schedule (delay : Float) (source target : EntityId) (message : μ) (a : Agenda μ) :
    Except SimError (Handle × Agenda μ) :=
  if accepts delay then
    let event : Event μ := { time := a.now + delay, source, target, handle := a.issued, message }
    .ok (a.issued, { a with
      heap := a.heap.insert Event.before event
      pending := a.pending.insert a.issued
      issued := a.issued + 1 })
  else
    .error (.invalidSchedule
      s!"delay {Decimal.plain delay} from {source.text} to {target.text} at t={Decimal.places 2 a.now}")

/-- the heap with struck events thrown away from its top -/
def settled (heap : Heap (Event μ)) (pending : Std.ExtTreeSet Handle) : Heap (Event μ) :=
  heap.settle Event.before fun e => pending.contains e.handle

/-- the next event, and the agenda after it has left: the clock stands at its time -/
def next? (a : Agenda μ) : Option (Event μ × Agenda μ) :=
  match settled a.heap a.pending with
  | .empty => none
  | .node e child _ =>
    let pending := a.pending.erase e.handle
    some (e, { a with now := e.time, pending, heap := settled (child.combine Event.before) pending })

/-- time of the next event -/
def nextTime? (a : Agenda μ) : Option Time := a.heap.top?.map Event.time

/-- is the event still to come? -/
def isPending (a : Agenda μ) (h : Handle) : Bool := a.pending.contains h

/-- strike an event off; false if it has left or been struck before -/
def cancel (h : Handle) (a : Agenda μ) : Bool × Agenda μ :=
  if a.isPending h then
    let pending := a.pending.erase h
    (true, { a with pending, heap := settled a.heap pending, cancelled := a.cancelled + 1 })
  else (false, a)

/-- how many events are still to come -/
def size (a : Agenda μ) : Nat := a.pending.size

def isEmpty (a : Agenda μ) : Bool := a.pending.isEmpty

end Agenda

end BrokerSim
