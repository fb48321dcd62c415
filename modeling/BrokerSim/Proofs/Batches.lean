/-
A timetable does not tell how what was handed in was cut into requests.
- `Timetable.attempts`: tasks one after another, with their results kept aside; `submitTasks_eq`: to put these down at
  the end is the same as to put each down at once.
- `Timetable.Attained`: timetables that can be, at any place of any stream.
- `Timetable.batches_do_not_matter`: two requests of one kind are one request with both lists, down to the stream and
  to every account; and machines can be handed in before or after whatever others hand in.
-/
import BrokerSim.Proofs.Records

namespace BrokerSim

namespace Account

variable {a : Account}

theorem addVms_eq (h : a.freeAt.length = a.vms.length) (vms : List Vm) :
    a.addVms vms = { a with vms := a.vms ++ vms, freeAt := a.freeAt ++ List.replicate vms.length 0 } := by
  rw [← addVms_freeAt h]
  rfl

/-- machines that come together are those that come one after another -/
theorem addVms_append (h : a.freeAt.length = a.vms.length) (xs ys : List Vm) :
    a.addVms (xs ++ ys) = (a.addVms xs).addVms ys := by
  have hmore : (a.addVms xs).freeAt.length = (a.addVms xs).vms.length := by
    rw [addVms_eq h]
    simp only [List.length_append, List.length_replicate, h]
  rw [addVms_eq h, addVms_eq hmore, addVms_eq h]
  simp only [List.append_assoc, List.length_append, List.replicate_add]

end Account

namespace Timetable

variable {id other : EntityId} {t u : Timetable}

/-! ## Accounts put in their places -/

/-- settings, stream and accounts are all there is -/
theorem eq_of_account? (hsettings : t.settings = u.settings) (hstream : t.stream = u.stream)
    (haccounts : ∀ key, t.account? key = u.account? key) : t = u := by
  obtain ⟨settings, stream, accounts⟩ := t
  obtain ⟨settings', stream', accounts'⟩ := u
  obtain rfl : settings = settings' := hsettings
  obtain rfl : stream = stream' := hstream
  obtain rfl : accounts = accounts' := Std.ExtTreeMap.ext_getElem? fun key => haccounts key
  rfl

theorem setAccount_setAccount (id : EntityId) (a b : Account) (t : Timetable) :
    (t.setAccount id a).setAccount id b = t.setAccount id b := by
  refine eq_of_account? rfl rfl fun key => ?_
  simp only [account?_setAccount]
  split_ifs <;> rfl

theorem setAccount_comm (h : other ≠ id) (a b : Account) (t : Timetable) :
    (t.setAccount id a).setAccount other b = (t.setAccount other b).setAccount id a := by
  refine eq_of_account? rfl rfl fun key => ?_
  simp only [account?_setAccount]
  split_ifs with hother hid
  · exact absurd (hother.trans hid.symm) h
  · rfl
  · rfl
  · rfl

theorem account_setAccount_of_ne (h : other ≠ id) (a : Account) (t : Timetable) :
    (t.setAccount id a).account other = t.account other := by
  rw [account, (apart_setAccount id a t).others other h, account]

/-! ## Results aside -/

/-- one task, whose result is not in the account -/
def attempt (id : EntityId) (t : Timetable) (task : Task) : TaskResult × Timetable :=
  let (fate, stream) := drawFate t.settings t.stream
  let (result, account) := (t.account id).place t.settings.datacenterCount.toNat task fate
  (result, { t with stream }.setAccount id account)

/-- one task after another, with the results in their order -/
def attempts (id : EntityId) : List Task → Timetable → List TaskResult × Timetable
  | [], t => ([], t)
  | task :: tasks, t =>
    let (result, t) := t.attempt id task
    let (results, t) := attempts id tasks t
    (result :: results, t)

/-- results go into the account, which is opened for them -/
def putDown (id : EntityId) (results : List TaskResult) (t : Timetable) : Timetable :=
  t.setAccount id { t.account id with results := (t.account id).results ++ results }

@[simp] theorem account_putDown (id : EntityId) (results : List TaskResult) (t : Timetable) :
    (t.putDown id results).account id = { t.account id with results := (t.account id).results ++ results } :=
  account_setAccount ..

theorem putDown_putDown (id : EntityId) (results more : List TaskResult) (t : Timetable) :
    (t.putDown id results).putDown id more = t.putDown id (results ++ more) := by
  rw [putDown, account_putDown, putDown, setAccount_setAccount, putDown, List.append_assoc]

/-- nobody looks at results when a task is placed -/
theorem place_results (datacenters : Nat) (task : Task) (fate : Fate) (a : Account) (results : List TaskResult) :
    { a with results }.place datacenters task fate =
      ((a.place datacenters task fate).1, { (a.place datacenters task fate).2 with results }) := by
  unfold Account.place
  dsimp only
  cases a.vms[a.turns % a.vms.length]? with
  | none => rfl
  | some vm =>
    dsimp only
    split_ifs <;> rfl

theorem attempt_putDown (id : EntityId) (results : List TaskResult) (task : Task) (t : Timetable) :
    (t.putDown id results).attempt id task = ((t.attempt id task).1, (t.attempt id task).2.putDown id results) := by
  let datacenters := t.settings.datacenterCount.toNat
  let fate := (drawFate t.settings t.stream).1
  let next : Timetable := { t with stream := (drawFate t.settings t.stream).2 }
  let more : Account := { t.account id with results := (t.account id).results ++ results }
  have left : (t.putDown id results).attempt id task =
      ((more.place datacenters task fate).1,
        (next.setAccount id more).setAccount id (more.place datacenters task fate).2) := by
    unfold attempt
    rw [account_putDown]
    rfl
  have right : t.attempt id task = (((t.account id).place datacenters task fate).1,
      next.setAccount id ((t.account id).place datacenters task fate).2) := rfl
  rw [left, right, place_results, putDown, account_setAccount, results_place, setAccount_setAccount,
    setAccount_setAccount]

theorem attempts_putDown (id : EntityId) (results : List TaskResult) (tasks : List Task) (t : Timetable) :
    attempts id tasks (t.putDown id results) =
      ((attempts id tasks t).1, (attempts id tasks t).2.putDown id results) := by
  induction tasks generalizing t with
  | nil => rfl
  | cons task tasks ih =>
    simp only [attempts]
    rw [attempt_putDown, ih]

/-- to execute a task is to place it and to put its result down -/
theorem execute_eq (id : EntityId) (task : Task) (t : Timetable) :
    t.execute id task = (t.attempt id task).2.putDown id [(t.attempt id task).1] := by
  unfold execute attempt putDown
  dsimp only
  rw [account_setAccount, setAccount_setAccount]

theorem foldl_execute_putDown (id : EntityId) (results : List TaskResult) (tasks : List Task) (t : Timetable) :
    tasks.foldl (execute id) (t.putDown id results) =
      (attempts id tasks t).2.putDown id (results ++ (attempts id tasks t).1) := by
  induction tasks generalizing t results with
  | nil => simp only [List.foldl_nil, attempts, List.append_nil]
  | cons task tasks ih =>
    rw [List.foldl_cons, execute_eq, attempt_putDown, putDown_putDown, ih]
    simp only [attempts, List.append_assoc, List.singleton_append]

theorem putDown_nil (id : EntityId) (t : Timetable) : t.putDown id [] = t.setAccount id (t.account id) := by
  rw [putDown, List.append_nil]

/-- **Results** can be kept aside until all tasks of a request are through. -/
theorem submitTasks_eq (id : EntityId) (tasks : List Task) (t : Timetable) :
    t.submitTasks id tasks = (attempts id tasks t).2.putDown id (attempts id tasks t).1 := by
  rw [submitTasks, ← putDown_nil, foldl_execute_putDown, List.nil_append]

theorem attempts_append (id : EntityId) (xs ys : List Task) (t : Timetable) :
    attempts id (xs ++ ys) t =
      ((attempts id xs t).1 ++ (attempts id ys (attempts id xs t).2).1, (attempts id ys (attempts id xs t).2).2) := by
  induction xs generalizing t with
  | nil => rfl
  | cons x xs ih =>
    simp only [List.cons_append, attempts]
    rw [ih]

/-! ## Requests cut in two -/

theorem submitTasks_append (id : EntityId) (xs ys : List Task) (t : Timetable) :
    t.submitTasks id (xs ++ ys) = (t.submitTasks id xs).submitTasks id ys := by
  rw [submitTasks_eq, submitTasks_eq, submitTasks_eq, attempts_putDown, attempts_append, putDown_putDown]

/-- the tasks of the second request come to what they come to in one request with the others -/
theorem attempts_submitTasks (id : EntityId) (xs ys : List Task) (t : Timetable) :
    (attempts id (xs ++ ys) t).1 = (attempts id xs t).1 ++ (attempts id ys (t.submitTasks id xs)).1 := by
  rw [attempts_append, submitTasks_eq, attempts_putDown]

theorem submitVms_append (h : (t.account id).freeAt.length = (t.account id).vms.length) (xs ys : List Vm) :
    t.submitVms id (xs ++ ys) = (t.submitVms id xs).submitVms id ys := by
  rw [submitVms, submitVms, submitVms, account_setAccount, setAccount_setAccount, Account.addVms_append h]

/-! ## Requests for others -/

theorem submitVms_comm (h : other ≠ id) (vms more : List Vm) (t : Timetable) :
    (t.submitVms id vms).submitVms other more = (t.submitVms other more).submitVms id vms := by
  unfold submitVms
  rw [account_setAccount_of_ne h, account_setAccount_of_ne h.symm, setAccount_comm h]

/-- a task does not see what others have -/
theorem execute_setAccount (h : other ≠ id) (a : Account) (task : Task) (t : Timetable) :
    (t.setAccount id a).execute other task = (t.execute other task).setAccount id a := by
  unfold execute
  rw [account_setAccount_of_ne h]
  exact setAccount_comm h a _ { t with stream := (drawFate t.settings t.stream).2 }

theorem foldl_execute_setAccount (h : other ≠ id) (a : Account) (tasks : List Task) (t : Timetable) :
    tasks.foldl (execute other) (t.setAccount id a) = (tasks.foldl (execute other) t).setAccount id a := by
  induction tasks generalizing t with
  | nil => rfl
  | cons task tasks ih => rw [List.foldl_cons, execute_setAccount h, ih, List.foldl_cons]

theorem submitVms_submitTasks_comm (h : other ≠ id) (vms : List Vm) (tasks : List Task) (t : Timetable) :
    (t.submitVms id vms).submitTasks other tasks = (t.submitTasks other tasks).submitVms id vms := by
  have unseen : (t.submitTasks other tasks).account id = t.account id := by
    exact congrArg (Option.getD · {}) ((apart_serve t (.submitTasks other tasks)).others id h.symm)
  unfold submitVms
  rw [unseen]
  unfold submitTasks
  rw [account_setAccount_of_ne h, setAccount_comm h, foldl_execute_setAccount h]

/-! ## Timetables that can be -/

/-- a timetable with settings that are accepted, after any requests, at any place of any stream -/
inductive Attained : Timetable → Prop
  | start {x : ExecutorSettings} {t : Timetable} (h : x.timetable = .ok t) : Attained t
  | serve {t : Timetable} (h : Attained t) (r : Request) : Attained (t.serve r)
  | redrawn {t : Timetable} (h : Attained t) (stream : Random.Stream) : Attained { t with stream }

theorem Attained.after (h : Attained t) (requests : List Request) : Attained (t.after requests) := by
  induction requests generalizing t with
  | nil => exact h
  | cons r requests ih => exact ih (h.serve r)

/-- every account keeps to a docket -/
theorem Attained.kept (h : Attained t) :
    0 < t.settings.datacenterCount.toNat ∧ ∀ id, ∃ d log, Kept t.settings id d log t := by
  induction h with
  | start h =>
    obtain rfl := (Kept.start h 0).settings
    exact ⟨ExecutorSettings.datacenters_pos h, fun id => ⟨_, _, Kept.start h id⟩⟩
  | serve _ r ih =>
    rw [(apart_serve _ r).settings]
    refine ⟨ih.1, fun id => ?_⟩
    obtain ⟨d, log, kept⟩ := ih.2 id
    obtain ⟨new, hnew⟩ := kept.serve ih.1 r
    exact ⟨_, _, hnew⟩
  | redrawn _ stream ih =>
    refine ⟨ih.1, fun id => ?_⟩
    obtain ⟨d, log, kept⟩ := ih.2 id
    exact ⟨{ d with stream }, log, rfl, rfl, kept.account.redraw stream⟩

/-- so there is one time for each machine -/
theorem Attained.freeAt (h : Attained t) (id : EntityId) :
    (t.account id).freeAt.length = (t.account id).vms.length := by
  obtain ⟨d, log, kept⟩ := h.kept.2 id
  exact kept.account.freeAt

/-- **Batches.** Wherever a timetable stands: tasks, or machines, that are handed in together leave the whole of it as
    it is after two requests, and the records that the tasks come to are the same; it makes no difference whether
    machines of one subordinate come before or after machines or tasks of another. The records of a request are those of
    its tasks, one after another, put down at the end. -/
theorem batches_do_not_matter (h : Attained t) (id : EntityId) :
    (∀ xs ys, t.after [.submitTasks id (xs ++ ys)] = t.after [.submitTasks id xs, .submitTasks id ys] ∧
      (attempts id (xs ++ ys) t).1 =
        (attempts id xs t).1 ++ (attempts id ys (t.after [.submitTasks id xs])).1) ∧
    (∀ xs ys, t.after [.submitVms id (xs ++ ys)] = t.after [.submitVms id xs, .submitVms id ys]) ∧
    (∀ other ≠ id, ∀ vms more, t.after [.submitVms id vms, .submitVms other more] =
      t.after [.submitVms other more, .submitVms id vms]) ∧
    (∀ other ≠ id, ∀ vms tasks, t.after [.submitVms id vms, .submitTasks other tasks] =
      t.after [.submitTasks other tasks, .submitVms id vms]) ∧
    (∀ tasks, ((Request.submitTasks id tasks).call t).1 = .ok () ∧
      t.after [.submitTasks id tasks] = (attempts id tasks t).2.putDown id (attempts id tasks t).1) ∧
    ∀ vms, ((Request.submitVms id vms).call t).1 = .ok () :=
  ⟨fun xs ys => ⟨submitTasks_append id xs ys t, attempts_submitTasks id xs ys t⟩,
    fun xs ys => submitVms_append (h.freeAt id) xs ys,
    fun _ hother vms more => submitVms_comm hother vms more t,
    fun _ hother vms tasks => submitVms_submitTasks_comm hother vms tasks t,
    fun tasks => ⟨rfl, submitTasks_eq id tasks t⟩, fun _ => rfl⟩

/-- three more tasks of equal length, from this number on -/
def overtime (first : Nat) : List Task := [first, first + 1, first + 2].map fun id => ⟨id, 100, 1, 300, 300⟩

/-- a task on the machine that came last, and then two more, which fail -/
theorem batches_do_not_matter_of_shift :
    ∃ t, fickle.timetable = .ok t ∧ Attained (t.after shift) ∧
      (t.after shift).after [.submitTasks 7 (overtime 6)] =
        (t.after shift).after [.submitTasks 7 ((overtime 6).take 1), .submitTasks 7 ((overtime 6).drop 1)] ∧
      (attempts 7 (overtime 6) (t.after shift)).1.map (fun r => (r.vmId?, r.status)) =
        [(some 9, .success), (some 5, .failed), (some 6, .failed)] := by
  have h := (Attained.start (x := fickle) rfl).after shift
  exact ⟨_, rfl, h, ((batches_do_not_matter h 7).1 ((overtime 6).take 1) ((overtime 6).drop 1)).1, by decide +kernel⟩

end Timetable

end BrokerSim
