/-
Blank and control characters. Blank is the property White_Space: twenty-five characters, ASCII and not. Trimming
removes blanks at both ends and nothing inside.
-/

namespace BrokerSim.Text

/-- the property White_Space -/
def isBlank (c : Char) : Bool :=
  let n := c.toNat
  (9 ≤ n && n ≤ 13) || n == 0x20 || n == 0x85 || n == 0xa0 || n == 0x1680 || (0x2000 ≤ n && n ≤ 0x200a) ||
    n == 0x2028 || n == 0x2029 || n == 0x202f || n == 0x205f || n == 0x3000

/-- the category of control characters: the first thirty-two, and from delete to U+009F -/
def isControl (c : Char) : Bool :=
  let n := c.toNat
  n < 0x20 || (0x7f ≤ n && n ≤ 0x9f)

/-- the characters without the blanks at both ends -/
def trimChars (cs : List Char) : List Char :=
  ((cs.dropWhile isBlank).reverse.dropWhile isBlank).reverse

/-- the text without the blanks at both ends -/
def trim (s : String) : String := String.ofList (trimChars s.toList)

end BrokerSim.Text
