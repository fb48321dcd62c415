/-
Written numbers: a sign, digits before the point, digits after it, and a power of ten. A numeral is what stands on the
page, not a value: `1`, `1.0` and `1e0` are three numerals.
-/

namespace BrokerSim.Decimal

/-- a number as it is written; digits are decimal digit characters -/
structure Numeral where
  negative : Bool := false
  whole : List Char
  /-- no point is written when there are none -/
  fraction : List Char := []
  /-- power of ten: negative or not, and its digits -/
  exponent : Option (Bool × List Char) := none
  deriving Repr, DecidableEq

/-- a written whole number -/
def Numeral.ofNat (n : Nat) : Numeral := { whole := (Nat.repr n).toList }

/-- the characters of a numeral; the sign of an exponent is always written -/
def Numeral.chars (n : Numeral) : List Char :=
  (if n.negative then ['-'] else []) ++ n.whole ++
    (if n.fraction.isEmpty then [] else '.' :: n.fraction) ++
    match n.exponent with
    | none => []
    | some (negative, digits) => 'e' :: (if negative then '-' else '+') :: digits

def Numeral.text (n : Numeral) : String := String.ofList n.chars

/-- value of a digit character -/
def digitValue (c : Char) : Nat := c.toNat - '0'.toNat

/-- the whole number that a row of digits stands for -/
def digitsValue (ds : List Char) : Nat := ds.foldl (fun n c => 10 * n + digitValue c) 0

end BrokerSim.Decimal
