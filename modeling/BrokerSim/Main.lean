/-
The program: the command line in front of the files and the terminal. Everything it decides is decided in
`Cli.Command`; here files are read, lines are printed and the exit code is handed on.
-/
import BrokerSim.Cli.Command

open BrokerSim

/-- turns that a run may take; no run comes near it -/
def turns : Nat := Nat.pow 2 62

/-- the text of a file, if it can be read -/
def readText? (path : String) : IO (Option String) := do
  try
    return some (← IO.FS.readFile path)
  catch _ =>
    return none

/-- write a file, if that can be done -/
def tryWrite (path text : String) : IO Bool := do
  try
    IO.FS.writeFile path text
    return true
  catch _ =>
    return false

def main (args : List String) : IO UInt32 := do
  let invocation? := Cli.Invocation.ofArguments? args
  let config ← match invocation?.bind (·.config?) with
    | none => pure none
    | some path => readText? path
  let carryOut (canWrite : Bool) := Cli.execute args (fun _ => config) (fun _ => canWrite) turns
  let mut verdict? := carryOut true
  if let some (path, text) := verdict?.bind (·.file?) then
    if !(← tryWrite path text) then
      verdict? := carryOut false
  match verdict? with
  | none => return 1
  | some verdict =>
    verdict.output.forM IO.println
    if let some complaint := verdict.complaint? then
      IO.eprintln complaint
    if verdict.exitCode = 2 then
      IO.eprintln "error: the command line was not understood"
    return verdict.exitCode.toUInt32
