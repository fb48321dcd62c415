/-
JSON values as they are written. A number keeps its digits, so what it is worth is decided by who reads it; a string
whose surrogate escapes do not pair has no text, and is kept only so that it can be passed over.
-/
import BrokerSim.Decimal.Layout

namespace BrokerSim

open Decimal

/-- a JSON value -/
inductive Json where
  | null
  | bool (b : Bool)
  | number (n : Numeral)
  /-- a string, without a text if its surrogate escapes do not pair -/
  | string (text : Option String)
  | array (items : List Json)
  /-- members in the order in which they are written, repeated keys included -/
  | object (members : List (Option String × Json))

namespace Json

/-- a string with a text -/
def text (s : String) : Json := .string (some s)

def nat (n : Nat) : Json := .number (.ofNat n)

/-- an object of members whose keys have texts -/
def record (members : List (String × Json)) : Json := .object (members.map fun (k, v) => (some k, v))

/-- `null` for nothing -/
def optional {α : Type} (encode : α → Json) : Option α → Json
  | none => .null
  | some a => encode a

/-- the items of a list -/
def list {α : Type} (encode : α → Json) (items : List α) : Json := .array (items.map encode)

/-- floats in JSON: a tie goes to the even digit, `.0` is kept, and from 1e16 on and below 1e-5 a power of ten is
    written -/
def floatLayout : Layout := ⟨.even, some (-5, 15), true⟩

/-- a float; `null` if it is not finite -/
def float (x : Float) : Json := optional .number (floatLayout.numeral? x)

end Json

end BrokerSim
