/-
The fewest decimal digits that read back as the same float. For one digit, two digits and so on the value's two
neighbours on that decimal grid are tried; the first grid with a point that rounds to the float wins, and of two such
points the nearer one. Seventeen digits always suffice.
-/
import BrokerSim.Decimal.Dyadic
import BrokerSim.Decimal.Rounding

namespace BrokerSim.Decimal

/-- the decimal number `digits * 10 ^ place` -/
structure Scaled where
  digits : Nat
  place : Int
  deriving Repr, DecidableEq

/-- how many decimal digits a whole number has; none for zero -/
def digitCount (n : Nat) : Nat := if n = 0 then 0 else (Nat.repr n).length

/-- the power of ten of the first digit of `num / den` -/
def leadingPlace (num den : Nat) : Int :=
  if den ≤ num then digitCount (num / den) - 1
  else -(digitCount ((den + num - 1) / num - 1) : Int)

/-- the point of the grid of step `10 ^ place` that reads back as `v`, if its nearer neighbour there does -/
def nearestOn (tie : Tie) (v : Dyadic) (place : Int) : Option Nat :=
  let step := Nat.pow 10 place.toNat * Nat.pow 2 (2 - v.exponent).toNat
  let quarter := Nat.pow 2 (v.exponent - 2).toNat * Nat.pow 10 (-place).toNat
  let value := 4 * v.mantissa * quarter
  let low := (4 * v.mantissa - if v.closeBelow then 1 else 2) * quarter
  let high := (4 * v.mantissa + 2) * quarter
  let readsBack (c : Nat) : Bool :=
    if v.mantissa % 2 = 0 then low ≤ c * step && c * step ≤ high else low < c * step && c * step < high
  let below := value / step
  match readsBack below, readsBack (below + 1) with
  | true, true => some (roundDiv tie value step)
  | true, false => some below
  | false, true => some (below + 1)
  | false, false => none

/-- the fewest digits that read back as a size above zero -/
def shortest (tie : Tie) (v : Dyadic) : Scaled :=
  let first := leadingPlace (v.mantissa * Nat.pow 2 v.exponent.toNat) (Nat.pow 2 (-v.exponent).toNat)
  let found := (List.range 17).findSome? fun (n : Nat) =>
    (nearestOn tie v (first - n)).map fun c => (⟨c, first - n⟩ : Scaled)
  match found with
  | none => ⟨v.mantissa, 0⟩
  | some s => if s.digits % 10 = 0 then ⟨1, s.place + digitCount s.digits - 1⟩ else s

end BrokerSim.Decimal
