/-
Settings from JSON. Every field may be left out and then has its default; fields that are not known are passed over,
known ones may not be repeated. A record of settings may also be written as a row of its first fields. A scheduled
action alone must be an object, since which fields it has depends on its action.
-/
import BrokerSim.Json.Number
import BrokerSim.Json.Reader
import BrokerSim.Settings.Basic

namespace BrokerSim

namespace Settings

open Json

/-- what a value stands for, if it may stand where it stands -/
abbrev Decoder (α : Type) : Type := Json → Option α

def float : Decoder Float
  | .number n => (quantity n).map Quantity.toFloat
  | _ => none

/-- a 64-bit word, written as a whole number -/
def word : Decoder UInt64
  | .number n =>
    match quantity n with
    | some (.natural k) => some k.toUInt64
    | _ => none
  | _ => none

def text : Decoder String
  | .string s => s
  | _ => none

/-- `null` for nothing -/
def optional {α : Type} (d : Decoder α) : Decoder (Option α)
  | .null => some none
  | v => (d v).map some

def row {α : Type} (d : Decoder α) : Decoder (List α)
  | .array items => items.mapM d
  | _ => none

/-- has every member a key that can be read? -/
def areReadable (members : List (Option String × Json)) : Bool := members.all fun m => m.1.isSome

/-- the values under a key -/
def valuesOf (key : String) (members : List (Option String × Json)) : List Json :=
  (members.filter fun m => m.1 == some key).map Prod.snd

/-- the value under a key that is not repeated -/
def single? (key : String) (members : List (Option String × Json)) : Option (Option Json) :=
  match valuesOf key members with
  | [] => some none
  | [v] => some (some v)
  | _ => none

/-- the fields of a record in their order, from an object or from a row of the first of them -/
def fields? (names : List String) : Decoder (List (Option Json))
  | .array items =>
    if items.length ≤ names.length then
      some (items.map some ++ List.replicate (names.length - items.length) none)
    else none
  | .object members => if areReadable members then names.mapM fun name => single? name members else none
  | _ => none

/-- a field, or its default if it is left out -/
def field {α : Type} (d : Decoder α) (default : α) : Option Json → Option α
  | none => some default
  | some v => d v

/-! ## Schedules -/

mutual

/-- can a value be kept as it stands, with `room` for so many levels? Its numbers lie within the floats and its strings
    have texts. -/
def isKept (room : Nat) : Json → Bool
  | .null => true
  | .bool _ => true
  | .number n => (quantity n).isSome
  | .string s => s.isSome
  | .array items => 0 < room && areItemsKept (room - 1) items
  | .object members => 0 < room && areMembersKept (room - 1) members

def areItemsKept (room : Nat) : List Json → Bool
  | [] => true
  | v :: vs => isKept room v && areItemsKept room vs

def areMembersKept (room : Nat) : List (Option String × Json) → Bool
  | [] => true
  | (k, v) :: ms => k.isSome && isKept room v && areMembersKept room ms

end

/-- levels that fit inside a scheduled action: a text has 127, the action is at the fourth -/
def actionRoom : Nat := 123

/-- the kinds of action, in the order of their numbers -/
def actionNames : List String :=
  ["create_subordinate", "monitor_resources", "redistribute_workload", "analyze_performance"]

/-- the number of a kind of action, given by name or by number -/
def actionIndex : Decoder Nat
  | .string (some s) => actionNames.findIdx? fun name => name == s
  | v => (word v).bind fun n => if n ≤ 3 then some n.toNat else none

/-- the label of a request; only `null` and text may stand for it -/
def workload (members : List (Option String × Json)) : Option (Option String) := do
  field (optional text) none (← single? "workload" members)

/-- the action that some members describe -/
def action (members : List (Option String × Json)) : Option ManagerAction := do
  match ← actionIndex (← (← single? "action" members)) with
  | 0 => return .createSubordinate (← workload members)
  | 1 => return .monitorResources
  | 2 => return .redistributeWorkload
  | _ => return .analyzePerformance

def scheduledAction : Decoder ScheduledAction
  | .object members => do
    let delay ← float (← (← single? "at" members))
    let others := members.filter fun m => m.1 != some "at"
    if areMembersKept actionRoom others then return ⟨delay, ← action others⟩ else none
  | _ => none

/-! ## Records -/

/-- a strategy by name, or as the one key of an object -/
def strategy : Decoder Strategy
  | .string (some s) => Strategy.ofName? s
  | .object [(some s, .null)] => Strategy.ofName? s
  | _ => none

def limits : Decoder Limits := fun v => do
  match ← fields? ["until", "max_events"] v with
  | [horizon, maxEvents] =>
    return { until? := ← field (optional float) none horizon
             maxEvents? := ← field (optional word) none maxEvents }
  | _ => none

def manager : Decoder ManagerSettings := fun v => do
  let default : ManagerSettings := {}
  match ← fields? ["name", "max_subordinates", "initial_strategy", "collection_interval", "results_timeout",
      "schedule"] v with
  | [name, maxSubordinates, initialStrategy, collectionInterval, resultsTimeout, schedule] =>
    return { name := ← field text default.name name
             maxSubordinates := ← field word default.maxSubordinates maxSubordinates
             initialStrategy := ← field strategy default.initialStrategy initialStrategy
             collectionInterval := ← field float default.collectionInterval collectionInterval
             resultsTimeout := ← field float default.resultsTimeout resultsTimeout
             schedule := ← field (row scheduledAction) default.schedule schedule }
  | _ => none

def executor : Decoder ExecutorSettings := fun v => do
  let default : ExecutorSettings := {}
  match ← fields? ["seed", "failure_rate", "jitter", "datacenter_count"] v with
  | [seed, failureRate, jitter, datacenterCount] =>
    return { seed := ← field word default.seed seed
             failureRate := ← field float default.failureRate failureRate
             jitter := ← field float default.jitter jitter
             datacenterCount := ← field word default.datacenterCount datacenterCount }
  | _ => none

def run : Decoder RunSettings := fun v => do
  match ← fields? ["simulation", "manager", "executor"] v with
  | [simulation, managerField, executorField] =>
    return { limits := ← field limits {} simulation
             manager := ← field manager {} managerField
             executor := ← field executor {} executorField }
  | _ => none

end Settings

/-- the settings that a text holds -/
def RunSettings.read? (s : String) : Option RunSettings := (Json.read? s).bind Settings.run

/-- settings of a manager alone -/
def ManagerSettings.ofJson? (v : Json) : Option ManagerSettings := Settings.manager v

end BrokerSim
