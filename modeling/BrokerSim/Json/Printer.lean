/-
Writing JSON text, compact or one item a line with two blanks for each level. Only quotes, backslashes and control
characters are escaped.
-/
import BrokerSim.Json.Value
import BrokerSim.Text.Quoted

namespace BrokerSim.Json

/-- a character inside a string -/
def escapeChar (c : Char) : List Char :=
  if c = '"' then ['\\', '"']
  else if c = '\\' then ['\\', '\\']
  else if c = '\x08' then ['\\', 'b']
  else if c = '\x0c' then ['\\', 'f']
  else if c = '\n' then ['\\', 'n']
  else if c = '\r' then ['\\', 'r']
  else if c = '\t' then ['\\', 't']
  else if c.toNat < 0x20 then ['\\', 'u', '0', '0'] ++ (if c.toNat < 0x10 then ['0'] else []) ++ Text.hexDigits c.toNat
  else [c]

/-- a string between quotes; one without a text is written empty -/
def stringChars (s : Option String) : List Char :=
  ['"'] ++ ((s.getD "").toList.flatMap escapeChar) ++ ['"']

mutual

/-- a value on one line -/
def compactChars : Json → List Char
  | .null => "null".toList
  | .bool b => (if b then "true" else "false").toList
  | .number n => n.chars
  | .string s => stringChars s
  | .array [] => ['[', ']']
  | .array (v :: vs) => '[' :: (compactChars v ++ (compactItems vs ++ [']']))
  | .object [] => ['{', '}']
  | .object ((k, v) :: ms) => '{' :: (stringChars k ++ ':' :: (compactChars v ++ (compactMembers ms ++ ['}'])))

/-- items after the first -/
def compactItems : List Json → List Char
  | [] => []
  | v :: vs => ',' :: (compactChars v ++ compactItems vs)

/-- members after the first -/
def compactMembers : List (Option String × Json) → List Char
  | [] => []
  | (k, v) :: ms => ',' :: (stringChars k ++ ':' :: (compactChars v ++ compactMembers ms))

end

/-- a new line at this level -/
def newline (level : Nat) : List Char := '\n' :: List.replicate (2 * level) ' '

mutual

/-- a value, one item a line -/
def prettyChars (level : Nat) : Json → List Char
  | .null => "null".toList
  | .bool b => (if b then "true" else "false").toList
  | .number n => n.chars
  | .string s => stringChars s
  | .array [] => ['[', ']']
  | .array (v :: vs) =>
    '[' :: (newline (level + 1) ++ (prettyChars (level + 1) v ++
      (prettyItems (level + 1) vs ++ (newline level ++ [']']))))
  | .object [] => ['{', '}']
  | .object ((k, v) :: ms) =>
    '{' :: (newline (level + 1) ++ (stringChars k ++ ':' :: ' ' :: (prettyChars (level + 1) v ++
      (prettyMembers (level + 1) ms ++ (newline level ++ ['}'])))))

/-- items after the first -/
def prettyItems (level : Nat) : List Json → List Char
  | [] => []
  | v :: vs => ',' :: (newline level ++ (prettyChars level v ++ prettyItems level vs))

/-- members after the first -/
def prettyMembers (level : Nat) : List (Option String × Json) → List Char
  | [] => []
  | (k, v) :: ms =>
    ',' :: (newline level ++ (stringChars k ++ ':' :: ' ' :: (prettyChars level v ++ prettyMembers level ms)))

end

/-- the value on one line -/
def compact (v : Json) : String := String.ofList (compactChars v)

/-- the value with one item a line -/
def pretty (v : Json) : String := String.ofList (prettyChars 0 v)

end BrokerSim.Json
