/-
Columns of a table: a text padded with spaces to a width counted in characters. A text wider than its column is kept
whole.
-/

namespace BrokerSim.Text

def spaces (n : Nat) : String := String.ofList (List.replicate n ' ')

/-- the text at the left of a column -/
def padRight (width : Nat) (s : String) : String := s ++ spaces (width - s.length)

/-- the text at the right of a column -/
def padLeft (width : Nat) (s : String) : String := spaces (width - s.length) ++ s

end BrokerSim.Text
