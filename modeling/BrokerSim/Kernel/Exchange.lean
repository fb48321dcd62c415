/-
The world outside the simulation, and talking to it. What lies outside is a value of any type `W`; an exchange reads
it, may replace it, and may leave remarks for the log.
-/

namespace BrokerSim

/-- how grave a log line is -/
inductive Level where
  | error
  | warn
  | info
  | debug
  | trace
  deriving Repr, DecidableEq

def Level.name : Level → String
  | .error => "ERROR"
  | .warn => "WARN"
  | .info => "INFO"
  | .debug => "DEBUG"
  | .trace => "TRACE"

/-- place of a level, the gravest first -/
def Level.rank : Level → Nat
  | .error => 0
  | .warn => 1
  | .info => 2
  | .debug => 3
  | .trace => 4

/-- does a log kept at this level show the other? -/
def Level.shows (kept other : Level) : Bool := other.rank ≤ kept.rank

/-- a line for the log -/
structure Remark where
  level : Level
  text : String
  deriving Repr, DecidableEq

def Remark.line (r : Remark) : String := s!"{r.level.name} {r.text}"

/-- one use of the world: what comes of it, the world after it, and the remarks made, first one first -/
def Exchange (W α : Type) : Type := W → α × W × List Remark

namespace Exchange

variable {W α β : Type}

instance : Monad (Exchange W) where
  pure a := fun w => (a, w, [])
  bind x f := fun w =>
    let (a, w, first) := x w
    let (b, w, second) := f a w
    (b, w, first ++ second)

/-- what the world says of itself -/
def read (f : W → α) : Exchange W α := fun w => (f w, w, [])

/-- a use of the world without remarks -/
def update (f : W → α × W) : Exchange W α := fun w =>
  let (a, w) := f w
  (a, w, [])

def remark (level : Level) (text : String) : Exchange W Unit := fun w => ((), w, [⟨level, text⟩])

end Exchange

end BrokerSim
