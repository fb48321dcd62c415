/-
Quoted text for messages: a text between double quotes in which every character can be told. Quotes and backslashes are
escaped, as are characters with no visible form of their own.
-/
import BrokerSim.Text.Combining
import BrokerSim.Text.Unprintable

namespace BrokerSim.Text

/-- lower-case hexadecimal digits of a number -/
def hexDigits (n : Nat) : List Char := Nat.toDigits 16 n

/-- a character as its code point between braces -/
def escapeCode (c : Char) : List Char := ['\\', 'u', '{'] ++ hexDigits c.toNat ++ ['}']

/-- a character inside a quoted text -/
def quoteChar (c : Char) : List Char :=
  if c = '\x00' then ['\\', '0']
  else if c = '\t' then ['\\', 't']
  else if c = '\n' then ['\\', 'n']
  else if c = '\r' then ['\\', 'r']
  else if c = '"' || c = '\\' then ['\\', c]
  else if c.toNat < 0x7f && 0x20 ≤ c.toNat then [c]
  else if isCombining c || isUnprintable c then escapeCode c
  else [c]

/-- a text between quotes -/
def quoted (s : String) : String := String.ofList (['"'] ++ s.toList.flatMap quoteChar ++ ['"'])

end BrokerSim.Text
