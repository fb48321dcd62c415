/-
The command: read the settings, run, print the summary, and write it to a file if asked to. What it does to files is
left to the caller, who says which files can be read and written.
-/
import BrokerSim.Cli.Arguments
import BrokerSim.Json.Printer
import BrokerSim.Settings.Reader
import BrokerSim.Summary.Encoding
import BrokerSim.Summary.Text

namespace BrokerSim.Cli

/-- what a command comes to -/
structure Verdict where
  exitCode : Nat
  /-- lines for the standard output -/
  output : List String := []
  /-- text for the standard error -/
  complaint? : Option String := none
  /-- a file that is written: its name and its text -/
  file? : Option (String × String) := none
  deriving Repr, DecidableEq

/-- a complaint, as it is printed -/
def complain (text : String) : String := s!"Error: {text}"

/-- the command failed for this reason -/
def Verdict.failure (text : String) : Verdict := { exitCode := 1, complaint? := some (complain text) }

namespace Invocation

/-- settings with the values of the command line in place of their own -/
def override (i : Invocation) (s : RunSettings) : RunSettings :=
  { s with
    limits := { s.limits with until? := i.until?.or s.limits.until? }
    executor := { s.executor with
      seed := i.seed?.getD s.executor.seed
      failureRate := i.failureRate?.getD s.executor.failureRate
      jitter := i.jitter?.getD s.executor.jitter } }

/-- the settings of a run, or why there are none; `read` gives the text of a file that can be read -/
def settings (i : Invocation) (read : String → Option String) : Except String RunSettings :=
  match i.config? with
  | none => .ok (i.override {})
  | some path =>
    match read path with
    | none => .error s!"reading config {path}"
    | some text =>
      match RunSettings.read? text with
      | none => .error s!"parsing config {path}"
      | some s => .ok (i.override s)

/-- the end of a command whose summary was printed -/
def conclude (s : RunSummary) (output : List String) (file? : Option (String × String)) : Verdict :=
  match s.error? with
  | none => { exitCode := 0, output, file? }
  | some e =>
    { exitCode := 1, output, file?
      complaint? := some (complain s!"simulation halted with {s.records.length} partial records: {e.text}") }

/-- print a summary, and write it if asked to and if that can be done -/
def publish (i : Invocation) (canWrite : String → Bool) (s : RunSummary) : Verdict :=
  match i.output? with
  | none => conclude s s.lines none
  | some path =>
    if canWrite path then
      conclude s (s.lines ++ ["", s!"Results written to {path}"]) (some (path, (s.toJson Json.float).pretty))
    else { Verdict.failure s!"writing {path}" with output := s.lines }

/-- carry out the command; no answer means that the fuel did not last -/
def carryOut (i : Invocation) (read : String → Option String) (canWrite : String → Bool) (fuel : Nat) :
    Option Verdict := do
  match i.settings read with
  | .error reason => return .failure reason
  | .ok s =>
    match ← Scenario.run s fuel with
    | .error _ => return .failure "setting up the simulation"
    | .ok (summary, _) => return i.publish canWrite summary

end Invocation

/-- a command line that is not understood -/
def Verdict.refused : Verdict := { exitCode := 2 }

/-- carry out a command line -/
def execute (args : List String) (read : String → Option String) (canWrite : String → Bool) (fuel : Nat) :
    Option Verdict :=
  match Invocation.ofArguments? args with
  | none => some .refused
  | some i => i.carryOut read canWrite fuel

end BrokerSim.Cli
