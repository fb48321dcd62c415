/-
How a float is put on the page: `Layout` holds the choices that are free once the digits are known. Messages write
floats in full (`plain`) or with a fixed number of places (`places`); the choices of other formats stand with those
formats.
-/
import BrokerSim.Decimal.Numeral
import BrokerSim.Decimal.Shortest

namespace BrokerSim.Decimal

/-- the choices of a float format -/
structure Layout where
  /-- which of two equally near digit strings is taken -/
  tie : Tie
  /-- powers of ten of the first digit that are written out, from and to; all of them if absent -/
  writtenOut : Option (Int × Int)
  /-- a whole number keeps `.0` when written out -/
  keepsPoint : Bool

/-- digits written out around the point -/
def writeOut (keepsPoint : Bool) (ds : List Char) (place : Int) : Numeral :=
  if 0 ≤ place then
    { whole := ds ++ List.replicate place.toNat '0', fraction := if keepsPoint then ['0'] else [] }
  else
    let back := (-place).toNat
    if back < ds.length then
      { whole := ds.take (ds.length - back), fraction := ds.drop (ds.length - back) }
    else
      { whole := ['0'], fraction := List.replicate (back - ds.length) '0' ++ ds }

/-- one digit, a point, the others, and the power of ten -/
def writePower (ds : List Char) (power : Int) : Numeral :=
  { whole := ds.take 1, fraction := ds.drop 1, exponent := some (decide (power < 0), (Nat.repr power.natAbs).toList) }

/-- the numeral of a finite size in a layout -/
def Layout.numeral (l : Layout) (v : Dyadic) : Numeral :=
  if v.mantissa = 0 then writeOut l.keepsPoint ['0'] 0
  else
    let s := shortest l.tie v
    let ds := (Nat.repr s.digits).toList
    let power := s.place + ds.length - 1
    match l.writtenOut with
    | none => writeOut l.keepsPoint ds s.place
    | some (first, last) =>
      if first ≤ power && power ≤ last then writeOut l.keepsPoint ds s.place else writePower ds power

/-- the numeral of a float, if it is finite -/
def Layout.numeral? (l : Layout) (x : Float) : Option Numeral :=
  match Reading.of x with
  | .finite negative size => some { l.numeral size with negative }
  | _ => none

/-- a size rounded to `n` decimal places, halves to the even neighbour -/
def placesNumeral (n : Nat) (v : Dyadic) : Numeral :=
  let units := roundDiv .even (v.mantissa * Nat.pow 2 v.exponent.toNat * Nat.pow 10 n) (Nat.pow 2 (-v.exponent).toNat)
  let fraction := (Nat.repr (units % Nat.pow 10 n)).toList
  { whole := (Nat.repr (units / Nat.pow 10 n)).toList
    fraction := if n = 0 then [] else List.replicate (n - fraction.length) '0' ++ fraction }

/-- a float as text, its size written by `numeral` -/
def textWith (numeral : Dyadic → Numeral) (x : Float) : String :=
  match Reading.of x with
  | .nan => "NaN"
  | .infinite false => "inf"
  | .infinite true => "-inf"
  | .finite negative size => Numeral.text { numeral size with negative }

/-- messages write every digit and no needless point; of two equally near digit strings the greater -/
def messageLayout : Layout := ⟨.up, none, false⟩

/-- a float in a message: the fewest digits that read back, written out in full -/
def plain (x : Float) : String := textWith messageLayout.numeral x

/-- a float in a message with `n` decimal places -/
def places (n : Nat) (x : Float) : String := textWith (placesNumeral n) x

end BrokerSim.Decimal
