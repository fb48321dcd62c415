/-
The command line: six options, each with one value. The value stands behind the option, behind an equals sign or, after
a short name, right behind the letter; a value that stands apart may not look like an option.
-/
import BrokerSim.Decimal.Literal

namespace BrokerSim.Cli

open Decimal

/-- the options -/
inductive Flag where
  | config
  | until
  | seed
  | failureRate
  | jitter
  | output
  deriving Repr, DecidableEq

/-- the option of a long name -/
def Flag.ofLong? : List Char → Option Flag := fun name =>
  ([("config", config), ("until", .until), ("seed", seed), ("failure-rate", failureRate), ("jitter", jitter),
    ("output", output)].find? fun entry => entry.1.toList == name).map Prod.snd

/-- the option of a letter -/
def Flag.ofLetter? : Char → Option Flag
  | 'c' => some config
  | 'u' => some .until
  | 'o' => some output
  | _ => none

/-- what a command line asks for -/
structure Invocation where
  config? : Option String := none
  until? : Option Float := none
  seed? : Option UInt64 := none
  failureRate? : Option Float := none
  jitter? : Option Float := none
  output? : Option String := none
  deriving Repr, DecidableEq

/-- fill in a value that is not there yet -/
def fill {α : Type} (old new : Option α) : Option (Option α) := if old.isSome || new.isNone then none else some new

/-- take the value of an option; nothing if it makes no sense or was given before -/
def Invocation.give (flag : Flag) (value : String) (i : Invocation) : Option Invocation := do
  match flag with
  | .config => return { i with config? := ← fill i.config? (some value) }
  | .until => return { i with until? := ← fill i.until? (readFloat? value) }
  | .seed => return { i with seed? := ← fill i.seed? (readWord? value) }
  | .failureRate => return { i with failureRate? := ← fill i.failureRate? (readFloat? value) }
  | .jitter => return { i with jitter? := ← fill i.jitter? (readFloat? value) }
  | .output => return { i with output? := ← fill i.output? (some value) }

/-- the option that an argument names, and the value that it holds itself, if it does -/
def option? (arg : String) : Option (Flag × Option String) :=
  match arg.toList with
  | '-' :: '-' :: cs => do
    let (name, rest) := cs.span fun c => c != '='
    let flag ← Flag.ofLong? name
    return (flag, match rest with
      | [] => none
      | _ :: value => some (String.ofList value))
  | '-' :: c :: cs => do
    let flag ← Flag.ofLetter? c
    return (flag, match cs with
      | [] => none
      | '=' :: value => some (String.ofList value)
      | value => some (String.ofList value))
  | _ => none

/-- does an argument look like an option? A lone hyphen does not. -/
def looksLikeOption (arg : String) : Bool :=
  match arg.toList with
  | '-' :: _ :: _ => true
  | _ => false

/-- read the arguments into an invocation; two hyphens may end them -/
def Invocation.read (i : Invocation) : List String → Option Invocation
  | [] => some i
  | arg :: rest =>
    if arg == "--" then (if rest.isEmpty then some i else none)
    else
      match option? arg with
      | none => none
      | some (flag, some value) => (i.give flag value).bind fun i => i.read rest
      | some (flag, none) =>
        match rest with
        | [] => none
        | value :: rest =>
          if looksLikeOption value then none else (i.give flag value).bind fun i => i.read rest

/-- what a command line asks for, if it can be understood -/
def Invocation.ofArguments? (args : List String) : Option Invocation := ({} : Invocation).read args

end BrokerSim.Cli
