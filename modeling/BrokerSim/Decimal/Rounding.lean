/-
Rounding a quotient of whole numbers to a whole number. `roundDiv` is within half a unit of the quotient, and a
quotient that lies halfway goes the way the tie rule says.
-/

namespace BrokerSim.Decimal

/-- where a value halfway between two neighbours goes -/
inductive Tie where
  | up
  | even
  deriving Repr, DecidableEq

/-- does a value halfway between `below` and `below + 1` go up? -/
def Tie.goesUp : Tie → Nat → Bool
  | .up, _ => true
  | .even, below => below % 2 == 1

/-- does `num / den` round to the neighbour above its whole part `below`? -/
def roundsUp (tie : Tie) (num den below : Nat) : Bool :=
  match compare (2 * (num - below * den)) den with
  | .lt => false
  | .eq => tie.goesUp below
  | .gt => true

/-- `num / den` to the nearest whole number -/
def roundDiv (tie : Tie) (num den : Nat) : Nat :=
  let below := num / den
  if roundsUp tie num den below then below + 1 else below

end BrokerSim.Decimal
