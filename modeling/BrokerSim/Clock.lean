/-
Simulated time: seconds since the start, as a float. Times are ordered by `rank`, which puts every float on one line:
negative ones first, `-0.0` just before `0.0`, and no two floats share a place.
-/

namespace BrokerSim

/-- seconds since the start of the run -/
abbrev Time := Float

/-- place of a time in the total order of floats -/
def Time.rank (t : Time) : Int :=
  let bits := t.toBits.toNat
  let half := Nat.pow 2 63
  if bits < half then (bits : Int) else (half : Int) - 1 - bits

end BrokerSim
