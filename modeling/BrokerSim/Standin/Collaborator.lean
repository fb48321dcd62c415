/-
Stand-ins for the execution service: the timetable as it is, fixed answers, or a timetable that refuses some calls and
holds its results back for a while.
-/
import BrokerSim.Execution.Timetable

namespace BrokerSim.Standin

/-- the four calls of a service -/
inductive ServiceCall where
  | vms
  | tasks
  | completed
  | apply
  deriving Repr, DecidableEq

def ServiceCall.name : ServiceCall → String
  | vms => "vms"
  | tasks => "tasks"
  | completed => "completed"
  | apply => "apply"

/-- whom a call is refused -/
structure Refusals where
  vms : List EntityId := []
  tasks : List EntityId := []
  completed : List EntityId := []
  apply : List EntityId := []
  deriving Repr, DecidableEq

def Refusals.of (r : Refusals) : ServiceCall → List EntityId
  | .vms => r.vms
  | .tasks => r.tasks
  | .completed => r.completed
  | .apply => r.apply

/-- how a stand-in answers -/
inductive Manner where
  /-- as its timetable does -/
  | plain
  /-- takes everything and has fixed results, of which the last given for an entity count; its timetable is idle -/
  | canned (results : List (EntityId × List TaskResult))
  /-- refuses some calls, and answers the first polls of the others with nothing -/
  | wrapped (refusals : Refusals) (polls : Nat)
  deriving Repr, DecidableEq

/-- a service for rehearsals -/
structure Collaborator where
  manner : Manner
  timetable : Timetable

namespace Collaborator

/-- a call to the timetable of a collaborator -/
def inside {α : Type} (x : Call Timetable α) : Call Collaborator α := fun c =>
  let (r, timetable, remarks) := x c.timetable
  (r, { c with timetable }, remarks)

/-- a call that may be refused to `id` -/
def guarded {α : Type} (call : ServiceCall) (id : EntityId) (refusals : Refusals) (x : Call Collaborator α) :
    Call Collaborator α :=
  if id ∈ refusals.of call then
    Exchange.read fun _ => .error (.execution s!"{call.name} refused for {id.text}")
  else x

/-- an order to the timetable, which a collaborator with fixed results takes and forgets -/
def order (call : ServiceCall) (id : EntityId) (x : Call Timetable Unit) : Call Collaborator Unit := fun c =>
  match c.manner with
  | .plain => inside x c
  | .canned _ => Call.granted c
  | .wrapped refusals _ => guarded call id refusals (inside x) c

/-- the results of `id` -/
def poll (id : EntityId) : Call Collaborator (List TaskResult) := fun c =>
  let ask : Call Collaborator (List TaskResult) := inside (ExecutionService.completedTasks id)
  match c.manner with
  | .plain => ask c
  | .canned results =>
    Exchange.read (fun _ => match results.reverse.lookup id with
      | some r => .ok r
      | none => .error (.execution "nothing submitted")) c
  | .wrapped refusals polls =>
    let answer : Call Collaborator (List TaskResult) :=
      match polls with
      | 0 => ask
      | left + 1 => Exchange.update fun c => (.ok [], { c with manner := .wrapped refusals left })
    guarded .completed id refusals answer c

instance : ExecutionService Collaborator where
  name c := match c.manner with
    | .plain => ExecutionService.name c.timetable
    | .canned _ => "canned"
    | .wrapped _ _ => "wrapped"
  submitVms id vms := order .vms id (ExecutionService.submitVms id vms)
  submitTasks id tasks := order .tasks id (ExecutionService.submitTasks id tasks)
  completedTasks := poll
  applyStrategy id strategy := order .apply id (ExecutionService.applyStrategy id strategy)

end Collaborator

end BrokerSim.Standin
