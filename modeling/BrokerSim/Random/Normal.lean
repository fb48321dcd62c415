/-
Normally distributed floats, drawn by the ziggurat. A draw picks a layer and a place in it; most places lie under the
curve for certain, a few are tested against it, and those beyond the lowest layer come from the tail.
-/
import BrokerSim.Random.Stream
import BrokerSim.Random.Ziggurat

namespace BrokerSim.Random.Stream

/-- the greatest float below one -/
def belowOne : Float := Float.ofBits 0x3fefffffffffffff

/-- `2 ^ -53` as a float -/
def fineStep : Float := Float.ofBits 0x3ca0000000000000

/-- a float strictly between 0 and 1 -/
def open01 (s : Stream) : Float × Stream :=
  let (w, s) := s.next
  (Float.ofBits ((w >>> 12) ||| 0x3ff0000000000000) - belowOne, s)

/-- a float from 0 on and below 1 -/
def unit (s : Stream) : Float × Stream :=
  let (w, s) := s.next
  ((w >>> 11).toFloat * fineStep, s)

/-- tries that a search for a number may make: a stream comes round after `2 ^ 67` draws, so a longer one would see
    nothing new -/
def tries : Nat := Nat.pow 2 67

/-- how far a place of the tail lies behind its beginning, as a number below zero -/
def tailDepth (fuel : Nat) (s : Stream) : Float × Stream :=
  match fuel with
  | 0 => (0, s)
  | fuel + 1 =>
    let (a, s) := s.open01
    let (b, s) := s.open01
    let depth := a.log / tailStart
    if depth * depth ≤ -2 * b.log then (depth, s) else s.tailDepth fuel

/-- a number of the tail on one side -/
def tail (negative : Bool) (s : Stream) : Float × Stream :=
  let (depth, s) := s.tailDepth tries
  (if negative then depth - tailStart else tailStart - depth, s)

/-- the bell curve, one at zero -/
def bell (x : Float) : Float := (-x * x / 2).exp

/-- a standard normal number -/
def normalWithin (fuel : Nat) (s : Stream) : Float × Stream :=
  match fuel with
  | 0 => (0, s)
  | fuel + 1 =>
    let (w, s) := s.next
    let i := (w &&& 255).toNat
    let u := Float.ofBits ((w >>> 12) ||| 0x4000000000000000) - 3
    let x := u * edge i
    if x.abs < edge (i + 1) then (x, s)
    else if i = 0 then s.tail (decide (u < 0))
    else
      let (v, s) := s.unit
      if height (i + 1) + (height i - height (i + 1)) * v < bell x then (x, s) else s.normalWithin fuel

/-- a standard normal number -/
def normal (s : Stream) : Float × Stream := s.normalWithin tries

end BrokerSim.Random.Stream
