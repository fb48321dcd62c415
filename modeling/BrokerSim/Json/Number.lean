/-
What a written JSON number is worth. Whole numbers below 2 ^ 64 are exact. Any other number is a float, found quickly
and not always the nearest: its digits are gathered into one word for as long as they fit, digits after that only move
the point (before it) or are passed over (behind it), and the word is then scaled by one power of ten.
-/
import BrokerSim.Decimal.Numeral

namespace BrokerSim.Json

open Decimal

/-- what a number is worth: an exact whole number or a float -/
inductive Quantity where
  | natural (n : Nat)
  | real (x : Float)
  deriving Repr, DecidableEq

def Quantity.toFloat : Quantity → Float
  | .natural n => n.toFloat
  | .real x => x

/-- the greatest word -/
def wordMax : Nat := Nat.pow 2 64 - 1

/-- digits gathered into a word for as long as they fit: the word, and the digits that did not fit -/
def gather (word : Nat) : List Char → Nat × List Char
  | [] => (word, [])
  | d :: ds =>
    let next := word * 10 + digitValue d
    if next ≤ wordMax then gather next ds else (word, d :: ds)

/-- `10 ^ n` as a float -/
def powerOfTen (n : Nat) : Float := Float.ofScientific 1 false n

/-- `x * 10 ^ power`; nothing if that is beyond the floats -/
def scale (x : Float) (power : Int) : Option Float :=
  if power < -308 then
    if x == 0 then some x else scale (x / powerOfTen 308) (power + 308)
  else if power < 0 then some (x / powerOfTen power.natAbs)
  else if power ≤ 308 then
    let scaled := x * powerOfTen power.toNat
    if scaled.isInf then none else some scaled
  else if x == 0 then some x
  else none
termination_by (-power).toNat
decreasing_by omega

/-- greatest exponent that is taken at its word -/
def exponentMax : Nat := Nat.pow 2 31 - 1

/-- size of a number that has a point or a power, or does not fit a word -/
def realSize (n : Numeral) : Option Float :=
  let (whole, beyond) := gather 0 n.whole
  let (word, passed) := gather whole n.fraction
  let place : Int := (beyond.length : Int) - (n.fraction.length - passed.length : Nat)
  let size := word.toUInt64.toFloat
  match n.exponent with
  | none => scale size place
  | some (negative, digits) =>
    let power := digitsValue digits
    if exponentMax < power then
      if word != 0 && !negative then none else some 0
    else scale size (if negative then place - power else place + power)

/-- what the number is worth; nothing if that is beyond the floats -/
def quantity (n : Numeral) : Option Quantity :=
  let word := digitsValue n.whole
  if n.fraction.isEmpty && n.exponent.isNone && word ≤ wordMax && !n.negative then some (.natural word)
  else (realSize n).map fun x => .real (if n.negative then -x else x)

end BrokerSim.Json
