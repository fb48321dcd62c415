/-
The summary of a run for a reader: how it ended, a line for each subordinate, and the last report.
-/
import BrokerSim.Scenario
import BrokerSim.Text.Column

namespace BrokerSim.RunSummary

open Decimal Text

/-- the frame around the title -/
def frame (left right : String) : String := left ++ String.ofList (List.replicate 58 '═') ++ right

def title : List String :=
  [frame "╔" "╗", "║" ++ padRight 58 "  Global Manager Summary" ++ "║", frame "╚" "╝", ""]

/-- how the run ended -/
def ending (s : RunSummary) : String :=
  let time := places 2 s.stats.finalTime
  match s.outcome?, s.error? with
  | some outcome, _ => s!"Run ended ({outcome.name}) at t={time}"
  | none, some e => s!"Run HALTED at t={time}: {e.text}"
  | none, none => s!"Run ended at t={time}"

def counts (s : RunSummary) : List String :=
  [s!"  Events dispatched: {s.stats.dispatched}", s!"  Events cancelled:  {s.stats.cancelled}",
    s!"  Final strategy:    {s.finalStrategy.text}"] ++
    s.stats.recoverable.met.map fun (kind, n) => s!"  {kind.name} warnings: {n}"

/-- the line of one subordinate -/
def recordLine (r : ManagedRecord) : String :=
  s!"  {padRight 40 r.name} {padLeft 3 (Nat.repr r.vms.length)} VMs {padLeft 3 (Nat.repr r.tasks.length)} tasks" ++
    s!"  created t={padLeft 6 (places 2 r.createdAt)}  exec {padLeft 9 (places 2 r.cumulativeMetric)}s"

def subordinates (s : RunSummary) : List String :=
  ["", s!"Subordinates ({s.records.length}):"] ++ s.records.map recordLine ++
    s.creationFailures.map fun f => s!"  skipped: {f.text}"

def performance (r : PerformanceReport) : List String :=
  ["", "Performance:", s!"  Successful tasks:  {r.totalSuccessful}", s!"  Failed tasks:      {r.totalFailed}",
    s!"  Success rate:      {places 2 r.successPercent}%",
    s!"  Avg exec/broker:   {places 2 r.averageExecutionTime}s",
    s!"  Total exec time:   {places 2 r.totalExecutionTime}s"]

/-- the lines of the summary -/
def lines (s : RunSummary) : List String :=
  title ++ [s.ending] ++ s.counts ++ s.subordinates ++ ((s.report?.map performance).getD [])

end BrokerSim.RunSummary
