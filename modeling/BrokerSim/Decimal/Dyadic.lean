/-
Floats as exact numbers. A finite float is a sign and a whole number of steps, each step a power of two; everything
that is printed or rounded later is worked out on those whole numbers, so no digit depends on float arithmetic.
-/

namespace BrokerSim.Decimal

/-- the size of a finite float, `mantissa * 2 ^ exponent` -/
structure Dyadic where
  mantissa : Nat
  exponent : Int
  /-- the float below is half as far away as the float above (first float of a binade) -/
  closeBelow : Bool
  deriving Repr, DecidableEq

/-- what a float is: not a number, an infinity, or a sign and a size -/
inductive Reading where
  | nan
  | infinite (negative : Bool)
  | finite (negative : Bool) (size : Dyadic)
  deriving Repr, DecidableEq

/-- size of the finite float with this exponent field and fraction field -/
def Dyadic.ofFields (exponent fraction : Nat) : Dyadic :=
  if exponent = 0 then ⟨fraction, -1074, false⟩
  else ⟨Nat.pow 2 52 + fraction, exponent - 1075, fraction == 0 && 1 < exponent⟩

/-- read the three fields of a float -/
def Reading.of (x : Float) : Reading :=
  let bits := x.toBits.toNat
  let negative := decide (Nat.pow 2 63 ≤ bits)
  let exponent := bits / Nat.pow 2 52 % Nat.pow 2 11
  let fraction := bits % Nat.pow 2 52
  if exponent = 2047 then
    if fraction = 0 then .infinite negative else .nan
  else .finite negative (.ofFields exponent fraction)

end BrokerSim.Decimal
