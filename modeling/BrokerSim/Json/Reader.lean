/-
Reading JSON text. The grammar is the strict one: no comment, no trailing comma, no leading zero, no raw control
character in a string, nothing but blanks around the value.
-/
import BrokerSim.Json.Value

namespace BrokerSim.Json

open Decimal

/-- blanks between tokens -/
def isSpace (c : Char) : Bool := c == ' ' || c == '\t' || c == '\n' || c == '\r'

def skipSpaces (cs : List Char) : List Char := cs.dropWhile isSpace

/-- a row of digits, and what follows it -/
def digits (cs : List Char) : List Char × List Char := cs.span Char.isDigit

/-- digits of which there is at least one -/
def someDigits (cs : List Char) : Option (List Char × List Char) :=
  match digits cs with
  | ([], _) => none
  | (ds, rest) => some (ds, rest)

/-- the digits before the point: no zero stands in front of another digit -/
def wholePart (cs : List Char) : Option (List Char × List Char) :=
  match someDigits cs with
  | some ('0' :: _ :: _, _) => none
  | r => r

def fractionPart : List Char → Option (List Char × List Char)
  | '.' :: cs => someDigits cs
  | cs => some ([], cs)

def signedDigits (negative : Bool) (cs : List Char) : Option (Option (Bool × List Char) × List Char) :=
  (someDigits cs).map fun (ds, rest) => (some (negative, ds), rest)

def exponentPart : List Char → Option (Option (Bool × List Char) × List Char)
  | c :: cs =>
    if c == 'e' || c == 'E' then
      match cs with
      | '+' :: cs => signedDigits false cs
      | '-' :: cs => signedDigits true cs
      | cs => signedDigits false cs
    else some (none, c :: cs)
  | [] => some (none, [])

/-- a number, and what follows it -/
def numeral (cs : List Char) : Option (Numeral × List Char) := do
  let (negative, cs) := match cs with
    | '-' :: cs => (true, cs)
    | cs => (false, cs)
  let (whole, cs) ← wholePart cs
  let (fraction, cs) ← fractionPart cs
  let (exponent, cs) ← exponentPart cs
  return ({ negative, whole, fraction, exponent }, cs)

/-- value of a hexadecimal digit -/
def hexValue? (c : Char) : Option Nat :=
  if c.isDigit then some (c.toNat - '0'.toNat)
  else if 'a' ≤ c && c ≤ 'f' then some (c.toNat - 'a'.toNat + 10)
  else if 'A' ≤ c && c ≤ 'F' then some (c.toNat - 'A'.toNat + 10)
  else none

/-- four hexadecimal digits -/
def hexWord? (a b c d : Char) : Option Nat := do
  return (((← hexValue? a) * 16 + (← hexValue? b)) * 16 + (← hexValue? c)) * 16 + (← hexValue? d)

/-- the character of a one-letter escape -/
def shortEscape? : Char → Option Char
  | '"' => some '"'
  | '\\' => some '\\'
  | '/' => some '/'
  | 'b' => some '\x08'
  | 'f' => some '\x0c'
  | 'n' => some '\n'
  | 'r' => some '\r'
  | 't' => some '\t'
  | _ => none

/-- inside a string: the code points up to the closing quote, surrogates among them, and what follows the quote -/
def stringBody : List Char → Option (List Nat × List Char)
  | '"' :: rest => some ([], rest)
  | '\\' :: 'u' :: a :: b :: c :: d :: rest => do
    let unit ← hexWord? a b c d
    let (units, rest) ← stringBody rest
    return (unit :: units, rest)
  | '\\' :: c :: rest => do
    let e ← shortEscape? c
    let (units, rest) ← stringBody rest
    return (e.toNat :: units, rest)
  | c :: rest => do
    if c.toNat < 0x20 || c == '\\' then none
    let (units, rest) ← stringBody rest
    return (c.toNat :: units, rest)
  | [] => none

def isLeading (n : Nat) : Bool := 0xd800 ≤ n && n < 0xdc00

def isTrailing (n : Nat) : Bool := 0xdc00 ≤ n && n < 0xe000

/-- the characters of code points: a leading surrogate is joined with the trailing one right behind it, and no surrogate
    stands alone -/
def joinSurrogates : List Nat → Option (List Char)
  | [] => some []
  | high :: low :: rest =>
    if isLeading high then
      if isTrailing low then do
        let cs ← joinSurrogates rest
        return Char.ofNat (0x10000 + (high - 0xd800) * 0x400 + (low - 0xdc00)) :: cs
      else none
    else if isTrailing high then none
    else do
      let cs ← joinSurrogates (low :: rest)
      return Char.ofNat high :: cs
  | [unit] => if isLeading unit || isTrailing unit then none else some [Char.ofNat unit]

/-- a string after its opening quote: its text, if it has one, and what follows it -/
def stringTail (cs : List Char) : Option (Option String × List Char) :=
  (stringBody cs).map fun (units, rest) => ((joinSurrogates units).map String.ofList, rest)

mutual

/-- a value, and what follows it -/
def value (fuel : Nat) (cs : List Char) : Option (Json × List Char) :=
  match fuel with
  | 0 => none
  | fuel + 1 =>
    match skipSpaces cs with
    | 'n' :: 'u' :: 'l' :: 'l' :: rest => some (.null, rest)
    | 't' :: 'r' :: 'u' :: 'e' :: rest => some (.bool true, rest)
    | 'f' :: 'a' :: 'l' :: 's' :: 'e' :: rest => some (.bool false, rest)
    | '"' :: rest => (stringTail rest).map fun (s, rest) => (.string s, rest)
    | '[' :: rest =>
      match skipSpaces rest with
      | ']' :: rest => some (.array [], rest)
      | rest => (items fuel rest).map fun (items, rest) => (.array items, rest)
    | '{' :: rest =>
      match skipSpaces rest with
      | '}' :: rest => some (.object [], rest)
      | rest => (members fuel rest).map fun (members, rest) => (.object members, rest)
    | rest => (numeral rest).map fun (n, rest) => (.number n, rest)

/-- the items of an array from one of them on, and what follows the array -/
def items (fuel : Nat) (cs : List Char) : Option (List Json × List Char) :=
  match fuel with
  | 0 => none
  | fuel + 1 => do
    let (item, rest) ← value fuel cs
    match skipSpaces rest with
    | ']' :: rest => return ([item], rest)
    | ',' :: rest =>
      let (others, rest) ← items fuel rest
      return (item :: others, rest)
    | _ => none

/-- the members of an object from one of them on, and what follows the object -/
def members (fuel : Nat) (cs : List Char) : Option (List (Option String × Json) × List Char) :=
  match fuel with
  | 0 => none
  | fuel + 1 =>
    match skipSpaces cs with
    | '"' :: rest => do
      let (key, rest) ← stringTail rest
      match skipSpaces rest with
      | ':' :: rest =>
        let (item, rest) ← value fuel rest
        match skipSpaces rest with
        | '}' :: rest => return ([(key, item)], rest)
        | ',' :: rest =>
          let (others, rest) ← members fuel rest
          return ((key, item) :: others, rest)
        | _ => none
      | _ => none
    | _ => none

end

/-- the value that a text holds, alone but for blanks; every step of reading uses up a character or one of two turns at
    it -/
def read? (s : String) : Option Json :=
  let cs := s.toList
  match value (2 * cs.length + 2) cs with
  | some (v, rest) => if (skipSpaces rest).isEmpty then some v else none
  | none => none

end BrokerSim.Json
