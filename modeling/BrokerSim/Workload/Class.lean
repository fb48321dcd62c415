/-
Workload classes and their labels. A label names a class by its stem, in capitals or not, alone or with `Workload`
right behind it; any other label is kept, trimmed, as a class of its own.
-/
import BrokerSim.Failure
import BrokerSim.Text.Blank

namespace BrokerSim

open Text

/-- what kind of work a subordinate is for -/
inductive WorkloadClass where
  | light
  | medium
  | heavy
  | initial
  | peak
  | late
  /-- a label that names none of the six -/
  | unrecognized (label : String)
  deriving Repr, DecidableEq

namespace WorkloadClass

/-- `cs` without `suffix` at its end, if it ends so -/
def dropSuffix (suffix cs : List Char) : List Char :=
  if suffix.isSuffixOf cs then cs.take (cs.length - suffix.length) else cs

/-- the stem of a trimmed label: small letters, without `workload` -/
def stem (cs : List Char) : List Char := dropSuffix "workload".toList (cs.map Char.toLower)

/-- the stems that name a class -/
def stems : List (String × WorkloadClass) :=
  [("light", light), ("medium", medium), ("heavy", heavy), ("initial", initial), ("peak", peak), ("late", late)]

/-- the class of a stem -/
def ofStem? (cs : List Char) : Option WorkloadClass :=
  (stems.find? fun entry => entry.1.toList == cs).map Prod.snd

/-- the class of a label -/
def parse (label : String) : WorkloadClass :=
  (ofStem? (stem (trimChars label.toList))).getD (unrecognized (trim label))

/-- may a label be asked for? It is not blank and holds no control character. -/
def isWellFormed (label : String) : Bool := !(trimChars label.toList).isEmpty && !label.toList.any isControl

/-- the class that a request names -/
def ofRequest : Option String → Except CreationFailure WorkloadClass
  | none => .error .missingWorkload
  | some label => if isWellFormed label then .ok (parse label) else .error (.malformedWorkload label)

/-- the label of a class -/
def label : WorkloadClass → String
  | light => "LightWorkload"
  | medium => "MediumWorkload"
  | heavy => "HeavyWorkload"
  | initial => "InitialWorkload"
  | peak => "PeakWorkload"
  | late => "LateWorkload"
  | unrecognized label => label

def isRecognized : WorkloadClass → Bool
  | unrecognized _ => false
  | _ => true

end WorkloadClass

end BrokerSim
