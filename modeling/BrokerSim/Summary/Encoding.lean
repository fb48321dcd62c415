/-
Results as JSON. `real` says how a float is written.
-/
import BrokerSim.Json.Value
import BrokerSim.Scenario

namespace BrokerSim

open Json

def WorkloadClass.toJson : WorkloadClass → Json
  | light => .text "Light"
  | medium => .text "Medium"
  | heavy => .text "Heavy"
  | initial => .text "Initial"
  | peak => .text "Peak"
  | late => .text "Late"
  | unrecognized label => .record [("Unrecognized", .text label)]

def Vm.toJson (v : Vm) : Json :=
  .record [("id", .nat v.id), ("mips_per_core", .nat v.mipsPerCore), ("cores", .nat v.cores), ("ram_mb", .nat v.ramMb),
    ("bandwidth", .nat v.bandwidth), ("disk_mb", .nat v.diskMb), ("vmm", .text v.vmm)]

def Task.toJson (t : Task) : Json :=
  .record [("id", .nat t.id), ("length", .nat t.length), ("cores", .nat t.cores), ("input_size", .nat t.inputSize),
    ("output_size", .nat t.outputSize)]

def ManagedRecord.toJson (real : Float → Json) (r : ManagedRecord) : Json :=
  .record [("subordinate_id", .nat r.subordinateId), ("name", .text r.name), ("workload", r.workload.toJson),
    ("assigned_vms", .list Vm.toJson r.vms), ("assigned_tasks", .list Task.toJson r.tasks),
    ("cumulative_metric", real r.cumulativeMetric), ("created_at", real r.createdAt)]

def Tally.toJson (t : Tally) : Json := .record (t.met.map fun (kind, n) => (kind.name, .nat n))

def Stats.toJson (real : Float → Json) (s : Stats) : Json :=
  .record [("events_dispatched", .nat s.dispatched), ("events_cancelled", .nat s.cancelled),
    ("entities_registered", .nat s.registered), ("entities_spawned", .nat s.spawned),
    ("recoverable", s.recoverable.toJson), ("final_time", real s.finalTime)]

def SubordinateStats.toJson (real : Float → Json) (s : SubordinateStats) : Json :=
  .record [("id", .nat s.id), ("name", .text s.name), ("successful", .nat s.successful), ("failed", .nat s.failed),
    ("execution_time", real s.executionTime)]

/-- the members of a report -/
def PerformanceReport.members (real : Float → Json) (r : PerformanceReport) : List (String × Json) :=
  [("time", real r.time), ("subordinates", .list (SubordinateStats.toJson real) r.subordinates),
    ("total_successful", .nat r.totalSuccessful), ("total_failed", .nat r.totalFailed),
    ("total_execution_time", real r.totalExecutionTime), ("success_rate", real r.successRate),
    ("average_execution_time", real r.averageExecutionTime)]

def PerformanceReport.toJson (real : Float → Json) (r : PerformanceReport) : Json := .record (r.members real)

/-- the members of a summary -/
def RunSummary.members (real : Float → Json) (s : RunSummary) : List (String × Json) :=
  [("outcome", .optional (fun o => .text o.name) s.outcome?), ("error", .optional (fun e => .text e.text) s.error?),
    ("stats", s.stats.toJson real), ("final_strategy", .text s.finalStrategy.name),
    ("records", .list (ManagedRecord.toJson real) s.records),
    ("creation_failures", .list (fun f => .text f.text) s.creationFailures),
    ("report", .optional (PerformanceReport.toJson real) s.report?)]

def RunSummary.toJson (real : Float → Json) (s : RunSummary) : Json := .record (s.members real)

end BrokerSim
