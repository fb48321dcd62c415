/-
What a timetable tells of the past: a log to which it only adds.
- `Timetable.Recorded`: whoever has handed in something has one record for each of its tasks, in the order of
  submission, and is refused otherwise.
- `Timetable.records_stay`: records that were told stay as they are, and more come after them.
- `Timetable.records_faithful`: all of that after any requests; besides, a refusal changes nothing, and nobody's request
  touches what others hold.
-/
import Mathlib.Tactic
import BrokerSim.Proofs.Rota

namespace BrokerSim

/-! ## One record for each task -/

theorem Execution.Follows.status {datacenters : Nat} {before : List Execution} {x : Execution}
    (h : Follows datacenters before x) : x.result.status = .success ∨ x.result.status = .failed := by
  by_cases hvms : x.vms = []
  · rw [(h.idle hvms).2]
    exact .inr rfl
  · obtain ⟨slot, vm, hbound⟩ := h.bound hvms
    cases hfate : x.fate.fails with
    | true => exact .inr (hbound.fails hfate).1
    | false => exact .inl (hbound.succeeds hfate).1

namespace Account.Charted

variable {datacenters : Nat} {d : Docket} {log : List Execution} {a : Account}

/-- there is a result for each task -/
theorem taskIds (h : Charted datacenters d log a) :
    a.results.map TaskResult.taskId = (d.jobs.map Job.task).map Task.id := by
  rw [h.results, ← h.jobs, List.map_map, List.map_map, List.map_map]
  refine List.map_congr_left fun x hx => ?_
  obtain ⟨before, after, heq⟩ := List.mem_iff_append.1 hx
  exact (h.follows before x after heq).taskId

/-- every task has succeeded or failed -/
theorem statuses (h : Charted datacenters d log a) :
    ∀ r ∈ a.results, r.status = .success ∨ r.status = .failed := by
  rw [h.results]
  intro r hr
  obtain ⟨x, hx, rfl⟩ := List.mem_map.1 hr
  obtain ⟨before, after, heq⟩ := List.mem_iff_append.1 hx
  exact (h.follows before x after heq).status

end Account.Charted

/-! ## What is handed in -/

namespace Timetable.Request

/-- whom it is for -/
def id : Request → EntityId
  | submitVms id _ | submitTasks id _ | applyStrategy id _ => id

/-- it hands something in for the subordinate, if only an empty list -/
def Submits (id : EntityId) : Request → Prop
  | submitVms owner _ | submitTasks owner _ => owner = id
  | applyStrategy .. => False

/-- machines that it brings to a subordinate -/
def vmsFor (id : EntityId) : Request → List Vm
  | submitVms owner vms => if owner = id then vms else []
  | submitTasks .. | applyStrategy .. => []

/-- tasks that it brings to a subordinate -/
def tasksFor (id : EntityId) : Request → List Task
  | submitTasks owner tasks => if owner = id then tasks else []
  | submitVms .. | applyStrategy .. => []

theorem Submits.id {id : EntityId} {r : Request} (h : r.Submits id) : r.id = id := by
  cases r with
  | submitVms | submitTasks => exact h
  | applyStrategy => exact h.elim

end Timetable.Request

namespace Docket

variable {x : ExecutorSettings}

theorem foldl_draw (mine : Bool) (tasks : List Task) (d : Docket) :
    (tasks.foldl (draw x mine) d).vms = d.vms ∧
      (tasks.foldl (draw x mine) d).jobs.map Job.task = d.jobs.map Job.task ++ if mine then tasks else [] := by
  induction tasks generalizing d with
  | nil =>
    cases mine <;> exact ⟨rfl, (List.append_nil _).symm⟩
  | cons task tasks ih =>
    obtain ⟨hvms, htasks⟩ := ih (d.draw x mine task)
    rw [List.foldl_cons, hvms, htasks]
    cases mine with
    | true => exact ⟨rfl, by simp [draw]⟩
    | false => exact ⟨rfl, rfl⟩

theorem enter_eq (id : EntityId) (d : Docket) (r : Timetable.Request) :
    (d.enter x id r).vms = d.vms ++ r.vmsFor id ∧
      (d.enter x id r).jobs.map Job.task = d.jobs.map Job.task ++ r.tasksFor id := by
  cases r with
  | submitVms owner vms =>
    unfold enter Timetable.Request.vmsFor Timetable.Request.tasksFor
    dsimp only
    split_ifs
    · exact ⟨rfl, (List.append_nil _).symm⟩
    · exact ⟨(List.append_nil _).symm, (List.append_nil _).symm⟩
  | submitTasks owner tasks =>
    obtain ⟨hvms, htasks⟩ := d.foldl_draw (x := x) (owner = id) tasks
    refine ⟨hvms.trans (List.append_nil _).symm, htasks.trans ?_⟩
    simp only [decide_eq_true_eq, Timetable.Request.tasksFor]
  | applyStrategy => exact ⟨(List.append_nil _).symm, (List.append_nil _).symm⟩

theorem foldl_enter (id : EntityId) (requests : List Timetable.Request) (d : Docket) :
    (requests.foldl (enter x id) d).vms = d.vms ++ requests.flatMap (Timetable.Request.vmsFor id) ∧
      (requests.foldl (enter x id) d).jobs.map Job.task =
        d.jobs.map Job.task ++ requests.flatMap (Timetable.Request.tasksFor id) := by
  induction requests generalizing d with
  | nil => exact ⟨(List.append_nil _).symm, (List.append_nil _).symm⟩
  | cons r requests ih =>
    obtain ⟨hvms, htasks⟩ := ih (d.enter x id r)
    obtain ⟨hvms', htasks'⟩ := d.enter_eq (x := x) id r
    rw [List.foldl_cons, hvms, htasks, hvms', htasks', List.append_assoc, List.append_assoc]
    exact ⟨rfl, rfl⟩

theorem vms_ofRequests (id : EntityId) (requests : List Timetable.Request) :
    (ofRequests x id requests).vms = requests.flatMap (Timetable.Request.vmsFor id) :=
  (foldl_enter id requests _).1

theorem tasks_ofRequests (id : EntityId) (requests : List Timetable.Request) :
    (ofRequests x id requests).jobs.map Job.task = requests.flatMap (Timetable.Request.tasksFor id) :=
  (foldl_enter id requests _).2

end Docket

namespace Timetable

variable {datacenters : Nat} {d : Docket} {log : List Execution} {t : Timetable} {x : ExecutorSettings}

theorem apart_foldl_execute (id : EntityId) (tasks : List Task) (t : Timetable) :
    Apart id t (tasks.foldl (execute id) t) := by
  induction tasks generalizing t with
  | nil => exact .refl id t
  | cons task tasks ih => exact (apart_execute id task t).trans (ih _)

/-- **One subordinate's request** leaves the accounts of all others as they are. -/
theorem apart_serve (t : Timetable) (r : Request) : Apart r.id t (t.serve r) := by
  cases r with
  | submitVms id vms => exact apart_setAccount id _ t
  | submitTasks id tasks => exact (apart_setAccount id _ t).trans (apart_foldl_execute id tasks _)
  | applyStrategy id strategy =>
    have directed := applyStrategy_spec id strategy t
    refine ⟨directed.settings, fun key hkey => (directed.accounts key).trans ?_⟩
    have hkey : key ∉ [id] := fun h => hkey (List.mem_singleton.1 h)
    simp only [if_neg hkey, Option.map_id']

/-! ## Who is known -/

theorem isSome_setAccount (id : EntityId) (a : Account) (t : Timetable) :
    ((t.setAccount id a).account? id).isSome := by
  rw [account?_setAccount, if_pos rfl]
  rfl

theorem isSome_foldl_execute {id : EntityId} (h : (t.account? id).isSome) (tasks : List Task) :
    ((tasks.foldl (execute id) t).account? id).isSome := by
  induction tasks generalizing t with
  | nil => exact h
  | cons task tasks ih => exact ih (isSome_setAccount ..)

/-- an account is opened by whatever is handed in, and by nothing else -/
theorem isSome_serve (id : EntityId) (t : Timetable) (r : Request) :
    ((t.serve r).account? id).isSome ↔ (t.account? id).isSome ∨ r.Submits id := by
  by_cases hid : r.id = id
  case neg =>
    rw [(apart_serve t r).others id (Ne.symm hid)]
    exact ⟨.inl, fun h => h.resolve_right fun hsubmits => hid hsubmits.id⟩
  case pos =>
    cases r with
    | submitVms owner vms =>
      obtain rfl : owner = id := hid
      exact ⟨fun _ => .inr rfl, fun _ => isSome_setAccount ..⟩
    | submitTasks owner tasks =>
      obtain rfl : owner = id := hid
      exact ⟨fun _ => .inr rfl, fun _ => isSome_foldl_execute (isSome_setAccount ..) tasks⟩
    | applyStrategy owner strategy =>
      rw [serve, Request.call, (applyStrategy_spec owner strategy t).accounts, Option.isSome_map]
      exact ⟨.inl, fun h => h.resolve_right not_false⟩

theorem isSome_after (id : EntityId) (t : Timetable) (requests : List Request) :
    ((t.after requests).account? id).isSome ↔ (t.account? id).isSome ∨ ∃ r ∈ requests, r.Submits id := by
  induction requests generalizing t with
  | nil => simp only [after, List.foldl_nil, List.not_mem_nil, false_and, exists_false, or_false]
  | cons r requests ih =>
    rw [after, List.foldl_cons]
    refine (ih _).trans ?_
    rw [isSome_serve, List.exists_mem_cons_iff, or_assoc]

/-! ## What is told -/

/-- a subordinate's results, as they are asked for -/
def history (id : EntityId) : Call Timetable (List TaskResult) := ExecutionService.completedTasks id

theorem history_eq (id : EntityId) (t : Timetable) : history id t = (t.completedTasks id, t, []) := rfl

/-- what a timetable has to tell of a subordinate after these requests -/
structure Recorded (id : EntityId) (requests : List Request) (t : Timetable) : Prop where
  /-- whoever has handed in nothing is refused, and that changes nothing -/
  unknown : (∀ r ∈ requests, ¬ r.Submits id) →
    history id t = (.error (.execution s!"{id.text} never submitted anything"), t, []) ∧
      ∀ strategy, (Request.applyStrategy id strategy).call t =
        (.error (.execution s!"cannot apply {strategy.text} to unknown {id.text}"), t, [])
  /-- anybody else has one record for each task, in the order of submission -/
  known : (∃ r ∈ requests, r.Submits id) →
    (∃ records, history id t = (.ok records, t, []) ∧
      records.map TaskResult.taskId = (requests.flatMap (Request.tasksFor id)).map Task.id ∧
      ∀ record ∈ records, record.status = .success ∨ record.status = .failed) ∧
    ∀ strategy, ((Request.applyStrategy id strategy).call t).1 = .ok ()
  vmCount : t.vmCount id = (requests.flatMap (Request.vmsFor id)).length

theorem call_applyStrategy_eq (id : EntityId) (strategy : Strategy) (t : Timetable) :
    (Request.applyStrategy id strategy).call t = match t.applyStrategy id strategy with
      | .ok t => (.ok (), t, [])
      | .error e => (.error e, t, []) := by
  unfold Request.call ExecutionService.applyStrategy instExecutionService Exchange.update
  dsimp only
  cases t.applyStrategy id strategy <;> rfl

theorem call_applyStrategy_unknown {id : EntityId} (h : t.account? id = none) (strategy : Strategy) :
    (Request.applyStrategy id strategy).call t =
      (.error (.execution s!"cannot apply {strategy.text} to unknown {id.text}"), t, []) := by
  rw [call_applyStrategy_eq, applyStrategy, h]

theorem call_applyStrategy_known {id : EntityId} {a : Account} (h : t.account? id = some a) (strategy : Strategy) :
    (Request.applyStrategy id strategy).call t = (.ok (), t.setAccount id (directed strategy a), []) := by
  rw [call_applyStrategy_eq, applyStrategy, h]
  rfl

/-- whoever has an account in order, and only if something was handed in, has the records to it -/
theorem recorded {id : EntityId} {requests : List Request}
    (h : Account.Charted datacenters (Docket.ofRequests x id requests) log (t.account id))
    (hknown : (t.account? id).isSome ↔ ∃ r ∈ requests, r.Submits id) : Recorded id requests t := by
  constructor
  case unknown =>
    intro hnobody
    have hnone : t.account? id = none := by
      refine Option.not_isSome_iff_eq_none.1 fun hsome => ?_
      obtain ⟨r, hr, hsubmits⟩ := hknown.1 hsome
      exact hnobody r hr hsubmits
    refine ⟨?_, call_applyStrategy_unknown hnone⟩
    rw [history_eq, completedTasks, hnone]
  case known =>
    intro hsomebody
    obtain ⟨a, ha⟩ := Option.isSome_iff_exists.1 (hknown.2 hsomebody)
    rw [account_eq ha] at h
    refine ⟨⟨a.results, ?_, ?_, h.statuses⟩, fun strategy => by rw [call_applyStrategy_known ha]⟩
    · rw [history_eq, completedTasks_eq ha]
    · rw [h.taskIds, Docket.tasks_ofRequests]
  case vmCount => rw [vmCount, Account.vmCount, h.vms, Docket.vms_ofRequests]

/-- records stay, and more come after them -/
theorem records_stay {id : EntityId} (h : Kept x id d log t) (hdc : 0 < x.datacenterCount.toNat)
    {records : List TaskResult} (hrecords : t.completedTasks id = .ok records) (more : List Request) :
    ∃ new, (t.after more).completedTasks id = .ok (records ++ new) := by
  obtain ⟨new, hnew⟩ := h.after hdc more
  have before := h.account.results
  have after := hnew.account.results
  cases ha : t.account? id with
  | none =>
    rw [completedTasks, ha] at hrecords
    cases hrecords
  | some a =>
    rw [completedTasks_eq ha] at hrecords
    cases hrecords
    obtain ⟨b, hb⟩ := Option.isSome_iff_exists.1 ((isSome_after id t more).2 (.inl (ha ▸ rfl)))
    refine ⟨new.map Execution.result, (completedTasks_eq hb).trans ?_⟩
    rw [account_eq ha] at before
    rw [account_eq hb] at after
    rw [after, before, List.map_append]

/-- a request that is refused changes nothing -/
theorem serve_refused {r : Request} {e : SimError} (h : (r.call t).1 = .error e) : t.serve r = t := by
  cases r with
  | submitVms | submitTasks => cases h
  | applyStrategy id strategy =>
    cases ha : t.account? id with
    | none => rw [serve, call_applyStrategy_unknown ha]
    | some a =>
      rw [call_applyStrategy_known ha] at h
      cases h

/-- **Records.** Whatever is asked of a timetable, and by whom: whoever has handed in something, and nobody else, can
    ask for its records, and has one for each task. They stay as they are when more is asked; a refusal changes nothing;
    and one subordinate's request leaves all that others hold as it is. -/
theorem records_faithful (h : x.timetable = .ok t) (requests : List Request) :
    (∀ id, Recorded id requests (t.after requests)) ∧
      (∀ id records, (t.after requests).completedTasks id = .ok records →
        ∀ more, ∃ new, (t.after (requests ++ more)).completedTasks id = .ok (records ++ new)) ∧
      (∀ (r : Request) e, (r.call (t.after requests)).1 = .error e → (t.after requests).serve r = t.after requests) ∧
      ∀ (r : Request) id, r.id ≠ id → ((t.after requests).serve r).account? id = (t.after requests).account? id := by
  have hdc := x.datacenters_pos h
  have kept : ∀ id, ∃ log, Kept x id (Docket.ofRequests x id requests) log (t.after requests) :=
    fun id => (Kept.start h id).after hdc requests
  have known : ∀ id, ((t.after requests).account? id).isSome ↔ ∃ r ∈ requests, r.Submits id := by
    intro id
    rw [isSome_after, (x.timetable_ok h).2]
    exact or_iff_right Bool.false_ne_true
  refine ⟨fun id => ?_, fun id records hrecords more => ?_, fun r e => serve_refused, fun r id hid => ?_⟩
  · obtain ⟨log, hlog⟩ := kept id
    exact recorded hlog.account (known id)
  · obtain ⟨log, hlog⟩ := kept id
    rw [after, List.foldl_append]
    exact records_stay hlog hdc hrecords more
  · exact (apart_serve _ r).others id (Ne.symm hid)

theorem records_faithful_of_shift :
    ∃ t, fickle.timetable = .ok t ∧
      (∃ records, history 7 (t.after shift) = (.ok records, t.after shift, []) ∧
        records.map TaskResult.taskId = [0, 1, 2, 3, 4, 5] ∧
        ∀ more, ∃ new, (t.after (shift ++ more)).completedTasks 7 = .ok (records ++ new)) ∧
      (t.after shift).vmCount 7 = 3 ∧
      (history 9 (t.after shift)).1 = .error (.execution "#9 never submitted anything") := by
  obtain ⟨t, ht⟩ : ∃ t, fickle.timetable = .ok t := ⟨_, rfl⟩
  obtain ⟨recorded, stay, -, -⟩ := records_faithful ht shift
  obtain ⟨⟨records, hrecords, hids, -⟩, -⟩ := (recorded 7).known ⟨_, List.mem_cons_self .., rfl⟩
  refine ⟨t, ht, ⟨records, hrecords, hids, stay 7 records ?_⟩, (recorded 7).vmCount, ?_⟩
  · rw [history_eq] at hrecords
    exact (Prod.mk.inj hrecords).1
  · have nobody : ∀ r ∈ shift, ¬ Request.Submits 9 r := by simp [shift, Request.Submits]
    have text : SimError.execution s!"{EntityId.text 9} never submitted anything" =
        .execution "#9 never submitted anything" := by decide
    rw [((recorded 9).unknown nobody).1, text]

end Timetable

end BrokerSim
