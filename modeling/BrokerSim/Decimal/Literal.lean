/-
Decimal literals: a float as a person writes it, rounded to the nearest float. A sign, digits with a point among them
or not, and a power of ten; or a word for an infinity or for no number, in capitals or not.
-/
import BrokerSim.Decimal.Numeral

namespace BrokerSim.Decimal

/-- digits and a power of ten: the number `digits * 10 ^ power` rounded to a float. Powers beyond every float are cut
    short, so that no great number is worked out. -/
def nearestFloat (digits : List Char) (power : Int) : Float :=
  let significant := digits.dropWhile fun c => c == '0'
  let size : Int := significant.length + power
  if significant.isEmpty || size < -400 then 0
  else if 400 < size then 1 / 0
  else Float.ofScientific (digitsValue significant) (decide (power < 0)) power.natAbs

/-- a power of ten: a sign or none, and at least one digit -/
def readPower? (cs : List Char) : Option Int :=
  let (negative, ds) := match cs with
    | '-' :: ds => (true, ds)
    | '+' :: ds => (false, ds)
    | ds => (false, ds)
  if ds.isEmpty || !ds.all Char.isDigit then none
  else some (if negative then -(digitsValue ds : Int) else digitsValue ds)

/-- what follows the digits: nothing, or the letter e and a power of ten -/
def readScale? : List Char → Option Int
  | [] => some 0
  | c :: cs => if c == 'e' || c == 'E' then readPower? cs else none

/-- digits, a point and digits; one digit at least, on either side -/
def readUnsigned? (cs : List Char) : Option Float := do
  let (whole, rest) := cs.span Char.isDigit
  let (fraction, rest) := match rest with
    | '.' :: rest => rest.span Char.isDigit
    | rest => ([], rest)
  if whole.isEmpty && fraction.isEmpty then none
  let power ← readScale? rest
  return nearestFloat (whole ++ fraction) (power - fraction.length)

/-- the words that stand for a float -/
def readSpelled? (cs : List Char) : Option Float :=
  match String.ofList (cs.map Char.toLower) with
  | "nan" => some (0 / 0)
  | "inf" => some (1 / 0)
  | "infinity" => some (1 / 0)
  | _ => none

/-- the float that a text stands for -/
def readFloat? (s : String) : Option Float :=
  let read (cs : List Char) : Option Float := (readUnsigned? cs).or (readSpelled? cs)
  match s.toList with
  | '-' :: cs => (read cs).map fun x => -x
  | '+' :: cs => read cs
  | cs => read cs

/-- the 64-bit word that a text stands for; a plus may stand before its digits -/
def readWord? (s : String) : Option UInt64 :=
  let ds := match s.toList with
    | '+' :: ds => ds
    | ds => ds
  if ds.isEmpty || !ds.all Char.isDigit then none
  else
    let n := digitsValue ds
    if n < Nat.pow 2 64 then some n.toUInt64 else none

end BrokerSim.Decimal
