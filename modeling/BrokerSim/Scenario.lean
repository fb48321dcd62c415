/-
One complete run: a manager on a timetable, from its registration until nothing is left to do, and a summary of what
came of it. A run that a fatal error halts has a summary as well, of what there was by then.
-/
import BrokerSim.Broker.Agent
import BrokerSim.Kernel.Run

namespace BrokerSim

open Decimal

/-- what came of a run -/
structure RunSummary where
  /-- why it came to rest, unless an error halted it -/
  outcome? : Option RunOutcome
  error? : Option SimError
  stats : Stats
  finalStrategy : Strategy
  records : List ManagedRecord
  creationFailures : List CreationFailure
  /-- the report that the manager made when it was shut down -/
  report? : Option PerformanceReport
  deriving Repr, DecidableEq

def RunSummary.halted (s : RunSummary) : Bool := s.error?.isSome

namespace Scenario

/-- the simulation of a manager on a timetable -/
abbrev Run : Type := Simulation (Agent Empty) Signal Timetable

/-- the manager of a simulation, the first if there are more -/
def manager? (s : Run) : Option Manager := s.entities.toList.findSome? fun slot => slot.entity.manager?

/-- the summary of a run that ended in `r` -/
def summarize (settings : RunSettings) (r : Except SimError RunOutcome) (s : Run) : RunSummary :=
  let m := (manager? s).getD (.ofSettings settings.manager)
  { outcome? := r.toOption
    error? := match r with
      | .ok _ => none
      | .error e => some e
    stats := s.stats
    finalStrategy := m.cycle.current
    records := m.records
    creationFailures := m.creationFailures
    report? := m.finalReport? }

/-- register the manager and run to the end; a manager that cannot start halts the run at once -/
def play (settings : RunSettings) (fuel : Nat) (t : Timetable) : Option (Except SimError RunOutcome × Run) := do
  let s : Run := .fresh settings.limits t
  let s := s.note (.remark ⟨.info, s!"Running {settings.manager.name} until the queue drains"⟩)
  match ← s.register fuel (.manager (.ofSettings settings.manager)) with
  | (.ok _, s) => s.run fuel
  | (.error e, s) => return (.error e, s)

/-- the simulation after a run, with the error that halted it in the log -/
def logHalt (settings : RunSettings) (r : Except SimError RunOutcome) (s : Run) : Run :=
  match r with
  | .ok _ => s
  | .error e => s.note (.remark ⟨.error, s!"{settings.manager.name} halted at t={places 2 s.now}: {e.text}"⟩)

/-- a whole run and its summary, or what is wrong with the settings; no answer means that the fuel did not last -/
def run (settings : RunSettings) (fuel : Nat) : Option (Except SimError (RunSummary × Run)) := do
  match settings.executor.timetable with
  | .error e => return .error e
  | .ok t =>
    let (r, s) ← play settings fuel t
    return .ok (summarize settings r s, logHalt settings r s)

end Scenario

end BrokerSim
