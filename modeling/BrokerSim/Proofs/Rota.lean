/-
The timetable under any requests, of any subordinates, in any order.
- `Docket`: what the requests tell of one subordinate: its machines, and its tasks, each with the machines that were
  there when it came and with what was drawn for it. Nothing of it is read off the timetable.
- `Account.Charted`: what an account makes of that. Tasks take the machines in turn, and each machine runs the tasks
  that succeed back to back, from time zero on (`BackToBack`). A failure takes its turn but no time, and a task that
  finds no machine fails and takes no turn.
- `Charted.addVms`, `Charted.place`: more machines and one more task keep to that, and so does every request, also one
  for somebody else (`Timetable.Kept.serve`).
- `Timetable.tasks_take_turns`: so it is after any requests.
-/
import Mathlib.Tactic
import BrokerSim.Proofs.Accounts
import BrokerSim.Proofs.Tasks

namespace BrokerSim

/-! ## One task after another -/

/-- results that follow each other without a gap: the first starts at a time, each one when the one before it has
    finished, which is as much later as it took; the last is over at the other time -/
def BackToBack (start : Time) : List TaskResult → Time → Prop
  | [], free => free = start
  | r :: rest, free =>
    r.startTime = start ∧ r.finishTime = r.startTime + r.cpuTime ∧ BackToBack r.finishTime rest free

theorem BackToBack.snoc {start free : Time} {results : List TaskResult} {r : TaskResult}
    (h : BackToBack start results free) (hs : r.startTime = free) (hf : r.finishTime = r.startTime + r.cpuTime) :
    BackToBack start (results ++ [r]) r.finishTime := by
  induction results generalizing start with
  | nil => exact ⟨hs.trans h, hf, rfl⟩
  | cons first rest ih => exact ⟨h.1, h.2.1, ih h.2.2⟩

/-- a task as it comes: the machines that are there, and what is drawn for it -/
structure Job where
  vms : List Vm
  task : Task
  fate : Fate

/-- a task that was executed: the place among the machines that it took, and what came of it -/
structure Execution extends Job where
  slot? : Option Nat
  result : TaskResult

/-- how many tasks have taken a turn: those that found a machine -/
def turnsTaken (log : List Execution) : Nat := log.countP fun x => !x.vms.isEmpty

/-- the tasks that succeeded on one machine -/
def stint (slot : Nat) (log : List Execution) : List TaskResult :=
  (log.filter fun x => x.slot? = some slot && x.result.status.isSuccess).map Execution.result

theorem stint_snoc (slot : Nat) (log : List Execution) (x : Execution) :
    stint slot (log ++ [x]) =
      stint slot log ++ if x.slot? = some slot && x.result.status.isSuccess then [x.result] else [] := by
  unfold stint
  rw [List.filter_append, List.map_append, List.filter_singleton]
  cases decide (x.slot? = some slot) && x.result.status.isSuccess <;> rfl

/-- a machine that nobody was bound to has done nothing -/
theorem stint_eq_nil {slot : Nat} {log : List Execution} (h : ∀ x ∈ log, x.slot? ≠ some slot) :
    stint slot log = [] := by
  unfold stint
  rw [List.map_eq_nil_iff, List.filter_eq_nil_iff]
  intro x hx
  simp [h x hx]

namespace Execution

/-- a task on a machine: its turn told which, and it started when that machine was free -/
structure Bound (datacenters : Nat) (before : List Execution) (x : Execution) (slot : Nat) (vm : Vm) : Prop where
  turn : slot = turnsTaken before % x.vms.length
  taken : x.slot? = some slot
  machine : x.vms[slot]? = some vm
  vmId : x.result.vmId? = some vm.id
  resourceId : x.result.resourceId? = some (vm.id % datacenters)
  within : vm.id % datacenters < datacenters
  start : BackToBack 0 (stint slot before) x.result.startTime
  /-- it takes the time that its machine needs for it, as it was drawn -/
  succeeds : x.fate.fails = false → x.result.status = .success ∧
    x.result.cpuTime = Account.cpuTime vm x.task x.fate.stretch ∧
    x.result.finishTime = x.result.startTime + x.result.cpuTime
  /-- it takes no time -/
  fails : x.fate.fails = true → x.result.status = .failed ∧ x.result.cpuTime = 0 ∧
    x.result.finishTime = x.result.startTime

/-- a task in its place behind others -/
structure Follows (datacenters : Nat) (before : List Execution) (x : Execution) : Prop where
  taskId : x.result.taskId = x.task.id
  idle : x.vms = [] → x.slot? = none ∧ x.result = .failed x.task.id 0
  bound : x.vms ≠ [] → ∃ slot vm, Bound datacenters before x slot vm

end Execution

/-! ## Accounts -/

/-- what was asked of the timetable for one subordinate, and what is still to be drawn for whoever comes next -/
structure Docket where
  vms : List Vm := []
  jobs : List Job := []
  stream : Random.Stream

namespace Account

/-- an account in which every task has taken its turn -/
structure Charted (datacenters : Nat) (d : Docket) (log : List Execution) (a : Account) : Prop where
  jobs : log.map Execution.toJob = d.jobs
  results : a.results = log.map Execution.result
  vms : a.vms = d.vms
  turns : a.turns = turnsTaken log
  /-- there is one time for each machine -/
  freeAt : a.freeAt.length = a.vms.length
  slots : ∀ x ∈ log, ∀ slot, x.slot? = some slot → slot < a.vms.length
  /-- each machine has run its tasks back to back, and is free when the last of them has finished -/
  stints : ∀ slot < a.vms.length, ∃ free, a.freeAt[slot]? = some free ∧ BackToBack 0 (stint slot log) free
  follows : ∀ before x after, log = before ++ x :: after → x.Follows datacenters before

variable {datacenters : Nat} {d : Docket} {log : List Execution} {a : Account}

theorem Charted.empty (datacenters : Nat) (stream : Random.Stream) : Charted datacenters { stream } [] {} where
  jobs := rfl
  results := rfl
  vms := rfl
  turns := rfl
  freeAt := rfl
  slots := fun _ h => nomatch h
  stints := fun _ h => absurd h (Nat.not_lt_zero _)
  follows := fun before x after h => by cases before <;> cases h

/-- what is still to be drawn has nothing to do with it -/
theorem Charted.redraw (h : Charted datacenters d log a) (stream : Random.Stream) :
    Charted datacenters { d with stream } log a :=
  ⟨h.jobs, h.results, h.vms, h.turns, h.freeAt, h.slots, h.stints, h.follows⟩

/-- strategies have nothing to do with it -/
theorem Charted.direct (h : Charted datacenters d log a) (strategies : List Strategy) :
    Charted datacenters d log { a with strategies } :=
  ⟨h.jobs, h.results, h.vms, h.turns, h.freeAt, h.slots, h.stints, h.follows⟩

theorem addVms_freeAt (h : a.freeAt.length = a.vms.length) (vms : List Vm) :
    (a.addVms vms).freeAt = a.freeAt ++ List.replicate vms.length 0 := by
  have hle : a.freeAt.length ≤ (a.vms ++ vms).length := by
    rw [List.length_append]
    omega
  have hmore : (a.vms ++ vms).length - a.freeAt.length = vms.length := by
    rw [List.length_append]
    omega
  unfold addVms
  dsimp only
  rw [List.take_of_length_le hle, List.rightpad, hmore]

/-- **More machines** are free from the beginning, and leave the others alone. -/
theorem Charted.addVms (h : Charted datacenters d log a) (vms : List Vm) :
    Charted datacenters { d with vms := d.vms ++ vms } log (a.addVms vms) := by
  have hfree := addVms_freeAt h.freeAt vms
  have hlength : (a.addVms vms).vms.length = a.vms.length + vms.length := List.length_append
  constructor
  case jobs => exact h.jobs
  case results => exact h.results
  case vms => exact congrArg (· ++ vms) h.vms
  case turns => exact h.turns
  case freeAt => rw [hfree, List.length_append, List.length_replicate, hlength, h.freeAt]
  case slots =>
    intro x hx slot hslot
    exact (h.slots x hx slot hslot).trans_le (hlength ▸ Nat.le_add_right ..)
  case stints =>
    intro slot hslot
    rw [hfree]
    by_cases hold : slot < a.vms.length
    · obtain ⟨free, hget, hstint⟩ := h.stints slot hold
      exact ⟨free, by rw [List.getElem?_append_left (h.freeAt ▸ hold), hget], hstint⟩
    · -- nobody was bound to a machine that was not there
      have hnone := stint_eq_nil fun x hx heq => hold (h.slots x hx slot heq)
      have hthere : a.freeAt.length ≤ slot := h.freeAt ▸ Nat.not_lt.1 hold
      have hnew : slot - a.freeAt.length < vms.length := by
        have := h.freeAt
        omega
      refine ⟨0, ?_, hnone ▸ rfl⟩
      rw [List.getElem?_append_right hthere, List.getElem?_replicate, if_pos hnew]
  case follows => exact h.follows

/-- the account with the result of a task that was placed -/
def record (p : TaskResult × Account) : Account := { p.2 with results := p.2.results ++ [p.1] }

/-- one more task in the log -/
theorem Charted.snoc {x : Execution} {b : Account} (h : Charted datacenters d log a) (hx : x.Follows datacenters log)
    (hvms : x.vms = d.vms) (hresults : b.results = a.results ++ [x.result]) (hsame : b.vms = a.vms)
    (hturns : b.turns = a.turns + if x.vms.isEmpty then 0 else 1) (hfreeAt : b.freeAt.length = a.freeAt.length)
    (hstints : ∀ slot < a.vms.length,
      ∃ free, b.freeAt[slot]? = some free ∧ BackToBack 0 (stint slot (log ++ [x])) free) :
    Charted datacenters { d with jobs := d.jobs ++ [x.toJob] } (log ++ [x]) b := by
  constructor
  case jobs => rw [List.map_append, h.jobs, List.map_singleton]
  case results => rw [hresults, h.results, List.map_append, List.map_singleton]
  case vms => exact hsame.trans h.vms
  case turns =>
    rw [hturns, h.turns, turnsTaken, turnsTaken, List.countP_append, List.countP_singleton]
    cases x.vms.isEmpty <;> rfl
  case freeAt => rw [hfreeAt, h.freeAt, hsame]
  case slots =>
    intro y hy slot hslot
    rw [hsame]
    rcases List.mem_append.1 hy with hy | hy
    · exact h.slots y hy slot hslot
    · rw [List.mem_singleton.1 hy] at hslot
      by_cases hidle : x.vms = []
      · cases (hx.idle hidle).1.symm.trans hslot
      · obtain ⟨_, vm, hbound⟩ := hx.bound hidle
        cases hbound.taken.symm.trans hslot
        rw [h.vms, ← hvms]
        exact (List.getElem?_eq_some_iff.1 hbound.machine).1
  case stints => rw [hsame]; exact hstints
  case follows =>
    intro before y after heq
    rcases List.eq_nil_or_concat' after with rfl | ⟨rest, last, rfl⟩
    case inl =>
      obtain ⟨rfl, hlast⟩ := List.append_inj' heq rfl
      cases hlast
      exact hx
    case inr =>
      rw [← List.cons_append, ← List.append_assoc] at heq
      exact h.follows before y rest (List.append_inj' heq rfl).1

theorem place_idle (task : Task) (fate : Fate) (ha : a.vms = []) :
    a.place datacenters task fate = (.failed task.id 0, a) := by
  unfold place
  rw [ha]
  rfl

/-- the machine whose turn it is, and when it is free -/
structure Next (a : Account) (slot : Nat) (vm : Vm) (free : Time) : Prop where
  turn : slot = a.turns % a.vms.length
  machine : a.vms[slot]? = some vm
  freeAt : a.freeAt[slot]? = some free

variable {slot : Nat} {vm : Vm} {free : Time}

theorem Next.place_fails (h : a.Next slot vm free) (task : Task) {fate : Fate} (hf : fate.fails = true) :
    a.place datacenters task fate =
      ({ TaskResult.failed task.id free with vmId? := some vm.id, resourceId? := some (vm.id % datacenters) },
        { a with turns := a.turns + 1 }) := by
  unfold place
  dsimp only
  rw [← h.turn, h.machine, List.getD_eq_getElem?_getD, h.freeAt]
  dsimp only
  rw [if_pos hf]
  rfl

theorem Next.place_succeeds (h : a.Next slot vm free) (task : Task) {fate : Fate} (hf : fate.fails = false) :
    a.place datacenters task fate =
      ({ taskId := task.id, status := .success, cpuTime := cpuTime vm task fate.stretch, startTime := free
         finishTime := free + cpuTime vm task fate.stretch, vmId? := some vm.id
         resourceId? := some (vm.id % datacenters) },
        { a with turns := a.turns + 1, freeAt := a.freeAt.set slot (free + cpuTime vm task fate.stretch) }) := by
  unfold place
  dsimp only
  rw [← h.turn, h.machine, List.getD_eq_getElem?_getD, h.freeAt]
  dsimp only
  rw [if_neg (hf ▸ Bool.false_ne_true)]
  rfl

theorem Charted.next (h : Charted datacenters d log a) (ha : a.vms ≠ []) :
    ∃ slot vm free, a.Next slot vm free ∧ BackToBack 0 (stint slot log) free := by
  have hslot : a.turns % a.vms.length < a.vms.length := Nat.mod_lt _ (List.length_pos_iff.2 ha)
  obtain ⟨free, hfree, hstint⟩ := h.stints _ hslot
  exact ⟨_, _, free, ⟨rfl, List.getElem?_eq_getElem hslot, hfree⟩, hstint⟩

/-- a result that tells of its machine, of a task that has just taken its turn -/
theorem Charted.bound (h : Charted datacenters d log a) (hdc : 0 < datacenters) (next : a.Next slot vm free)
    (hstint : BackToBack 0 (stint slot log) free) {task : Task} {fate : Fate} {result : TaskResult}
    (hid : result.taskId = task.id) (hvm : result.vmId? = some vm.id)
    (hresource : result.resourceId? = some (vm.id % datacenters)) (hstart : result.startTime = free)
    (hsucceeds : fate.fails = false → result.status = .success ∧ result.cpuTime = cpuTime vm task fate.stretch ∧
      result.finishTime = result.startTime + result.cpuTime)
    (hfails : fate.fails = true → result.status = .failed ∧ result.cpuTime = 0 ∧
      result.finishTime = result.startTime) :
    Execution.Follows datacenters log ⟨⟨d.vms, task, fate⟩, some slot, result⟩ := by
  have hvms : d.vms ≠ [] := by
    rw [← h.vms]
    rintro hempty
    cases hempty ▸ next.machine
  refine ⟨hid, fun hempty => absurd hempty hvms, fun _ => ⟨slot, vm, ?_⟩⟩
  refine ⟨?_, rfl, ?_, hvm, hresource, Nat.mod_lt _ hdc, hstart ▸ hstint, hsucceeds, hfails⟩
  · rw [next.turn, h.turns, h.vms]
  · exact h.vms ▸ next.machine

/-- **One more task**, whatever its fate is. -/
theorem Charted.place (h : Charted datacenters d log a) (hdc : 0 < datacenters) (task : Task) (fate : Fate) :
    ∃ x, Charted datacenters { d with jobs := d.jobs ++ [⟨d.vms, task, fate⟩] } (log ++ [x])
      (record (a.place datacenters task fate)) := by
  by_cases ha : a.vms = []
  case pos =>
    have hvms : d.vms = [] := h.vms ▸ ha
    rw [place_idle task fate ha]
    have follows : Execution.Follows datacenters log ⟨⟨d.vms, task, fate⟩, none, .failed task.id 0⟩ :=
      ⟨rfl, fun _ => ⟨rfl, rfl⟩, fun hsome => absurd hvms hsome⟩
    refine ⟨_, h.snoc (b := record (.failed task.id 0, a)) follows rfl rfl rfl ?_ rfl ?_⟩
    · rw [hvms]
      rfl
    · rw [ha]
      exact fun _ hslot => absurd hslot (Nat.not_lt_zero _)
  case neg =>
    have hturn : (if d.vms.isEmpty then 0 else 1) = 1 := by
      rw [← h.vms, List.isEmpty_eq_false_iff.2 ha]
      rfl
    obtain ⟨slot, vm, free, next, hstint⟩ := h.next ha
    cases hf : fate.fails with
    | true =>
      -- the machine is as free as it was
      rw [next.place_fails task hf]
      refine ⟨⟨⟨d.vms, task, fate⟩, some slot, _⟩,
        h.snoc (h.bound hdc next hstint rfl rfl rfl rfl ?_ fun _ => ⟨rfl, rfl, rfl⟩) rfl rfl rfl ?_ rfl ?_⟩
      · exact fun hnot => absurd (hf.symm.trans hnot) (by decide)
      · rw [hturn]
        rfl
      · intro other hother
        rw [stint_snoc, if_neg (by simp [TaskResult.failed, TaskStatus.isSuccess]), List.append_nil]
        exact h.stints other hother
    | false =>
      rw [next.place_succeeds task hf]
      refine ⟨⟨⟨d.vms, task, fate⟩, some slot, _⟩,
        h.snoc (h.bound hdc next hstint rfl rfl rfl rfl (fun _ => ⟨rfl, rfl, rfl⟩) ?_) rfl rfl rfl ?_ ?_ ?_⟩
      · exact fun hnot => absurd (hf.symm.trans hnot) (by decide)
      · rw [hturn]
        rfl
      · exact List.length_set ..
      · intro other hother
        rw [stint_snoc]
        by_cases hsame : slot = other
        · subst hsame
          have hthere : slot < a.freeAt.length := (List.getElem?_eq_some_iff.1 next.freeAt).1
          rw [if_pos (by simp [TaskStatus.isSuccess])]
          exact ⟨_, List.getElem?_set_self hthere, hstint.snoc rfl rfl⟩
        · obtain ⟨ready, hready, hother⟩ := h.stints other hother
          rw [if_neg (by simp [hsame]), List.append_nil]
          exact ⟨ready, (List.getElem?_set_ne hsame).trans hready, hother⟩

end Account

/-! ## Requests -/

namespace Timetable

/-- what may be asked of a timetable, for a subordinate, that can change it -/
inductive Request where
  | submitVms (id : EntityId) (vms : List Vm)
  | submitTasks (id : EntityId) (tasks : List Task)
  | applyStrategy (id : EntityId) (strategy : Strategy)

namespace Request

def call : Request → Call Timetable Unit
  | submitVms id vms => ExecutionService.submitVms id vms
  | submitTasks id tasks => ExecutionService.submitTasks id tasks
  | applyStrategy id strategy => ExecutionService.applyStrategy id strategy

end Request

/-- the timetable after one request -/
def serve (t : Timetable) (r : Request) : Timetable := (r.call t).2.1

/-- the timetable after requests, first one first -/
def after (t : Timetable) (requests : List Request) : Timetable := requests.foldl serve t

end Timetable

namespace Docket

/-- one more task of the subordinate, or of somebody else, for whom there is a draw as well -/
def draw (x : ExecutorSettings) (mine : Bool) (d : Docket) (task : Task) : Docket :=
  let (fate, stream) := Timetable.drawFate x d.stream
  { d with stream, jobs := if mine then d.jobs ++ [⟨d.vms, task, fate⟩] else d.jobs }

/-- what a request adds -/
def enter (x : ExecutorSettings) (id : EntityId) (d : Docket) : Timetable.Request → Docket
  | .submitVms owner vms => if owner = id then { d with vms := d.vms ++ vms } else d
  | .submitTasks owner tasks => tasks.foldl (draw x (owner = id)) d
  | .applyStrategy .. => d

/-- what requests tell of a subordinate -/
def ofRequests (x : ExecutorSettings) (id : EntityId) (requests : List Timetable.Request) : Docket :=
  requests.foldl (enter x id) { stream := .ofSeed x.seed }

end Docket

/-- a timetable has somewhere to execute -/
theorem ExecutorSettings.datacenters_pos {x : ExecutorSettings} {t : Timetable} (h : x.timetable = .ok t) :
    0 < x.datacenterCount.toNat := by
  refine Nat.pos_of_ne_zero fun hzero => ?_
  have hzero : x.datacenterCount = 0 := UInt64.toNat_inj.1 hzero
  unfold timetable fault? at h
  rw [if_pos hzero] at h
  split_ifs at h

namespace Timetable

variable {d : Docket} {log : List Execution} {t : Timetable}

theorem account_setAccount (id : EntityId) (a : Account) (t : Timetable) : (t.setAccount id a).account id = a :=
  account_eq ((account?_setAccount id id a t).trans (if_pos rfl))

/-- a timetable that keeps to the docket of a subordinate -/
structure Kept (x : ExecutorSettings) (id : EntityId) (d : Docket) (log : List Execution) (t : Timetable) : Prop where
  settings : t.settings = x
  stream : t.stream = d.stream
  account : Account.Charted x.datacenterCount.toNat d log (t.account id)

namespace Kept

variable {x : ExecutorSettings} {id : EntityId}

/-- nobody has an account at first -/
theorem start (h : x.timetable = .ok t) (id : EntityId) : Kept x id { stream := .ofSeed x.seed } [] t := by
  have hnone := (x.timetable_ok h).2 id
  unfold ExecutorSettings.timetable at h
  split at h
  · cases h
  · cases h
    refine ⟨rfl, rfl, ?_⟩
    rw [Timetable.account, hnone]
    exact .empty _ _

/-- one more task, whoever it is from -/
theorem execute (h : Kept x id d log t) (hdc : 0 < x.datacenterCount.toNat) (owner : EntityId) (task : Task) :
    ∃ new, Kept x id (d.draw x (owner = id) task) (log ++ new) (t.execute owner task) := by
  have hsettings : (t.execute owner task).settings = x := (apart_execute owner task t).settings.trans h.settings
  have hfate : drawFate t.settings t.stream = drawFate x d.stream := by rw [h.settings, h.stream]
  have hstream : (t.execute owner task).stream = (drawFate x d.stream).2 := congrArg Prod.snd hfate
  by_cases hid : owner = id
  case pos =>
    subst hid
    have hplaced : (t.execute owner task).account owner =
        Account.record ((t.account owner).place x.datacenterCount.toNat task (drawFate x d.stream).1) := by
      rw [← hfate, ← h.settings]
      exact account_setAccount ..
    obtain ⟨x, hx⟩ := h.account.place hdc task (drawFate x d.stream).1
    rw [decide_eq_true rfl]
    exact ⟨[x], hsettings, hstream, hplaced ▸ hx.redraw _⟩
  case neg =>
    have hsame : (t.execute owner task).account id = t.account id := by
      rw [Timetable.account, Timetable.account, (apart_execute owner task t).others id (Ne.symm hid)]
    rw [decide_eq_false hid]
    refine ⟨[], hsettings, hstream, ?_⟩
    rw [hsame, List.append_nil]
    exact h.account.redraw _

theorem foldl_execute (h : Kept x id d log t) (hdc : 0 < x.datacenterCount.toNat) (owner : EntityId)
    (tasks : List Task) :
    ∃ new, Kept x id (tasks.foldl (Docket.draw x (owner = id)) d) (log ++ new)
      (tasks.foldl (Timetable.execute owner) t) := by
  induction tasks generalizing t d log with
  | nil => exact ⟨[], (List.append_nil log).symm ▸ h⟩
  | cons task tasks ih =>
    obtain ⟨first, hfirst⟩ := h.execute hdc owner task
    obtain ⟨rest, hrest⟩ := ih hfirst
    exact ⟨first ++ rest, List.append_assoc .. ▸ hrest⟩

/-- somebody's account is replaced; nothing is new to others -/
theorem setAccount (h : Kept x id d log t) {owner : EntityId} {a : Account}
    (mine : owner = id → Account.Charted x.datacenterCount.toNat d log a) : Kept x id d log (t.setAccount owner a) := by
  refine ⟨h.settings, h.stream, ?_⟩
  by_cases hid : owner = id
  · subst hid
    rw [account_setAccount]
    exact mine rfl
  · rw [Timetable.account, (apart_setAccount owner a t).others id (Ne.symm hid)]
    exact h.account

/-- **Any request** keeps an account in order, whoever it is from. -/
theorem serve (h : Kept x id d log t) (hdc : 0 < x.datacenterCount.toNat) (r : Request) :
    ∃ new, Kept x id (d.enter x id r) (log ++ new) (t.serve r) := by
  cases r with
  | submitVms owner vms =>
    refine ⟨[], (List.append_nil log).symm ▸ ?_⟩
    unfold Docket.enter
    dsimp only
    split_ifs with hid
    · subst hid
      refine ⟨h.settings, h.stream, ?_⟩
      change Account.Charted _ _ _ ((t.setAccount owner ((t.account owner).addVms vms)).account owner)
      rw [account_setAccount]
      exact h.account.addVms vms
    · exact h.setAccount fun hsame => absurd hsame hid
  | submitTasks owner tasks =>
    have opened : Kept x id d log (t.setAccount owner (t.account owner)) :=
      h.setAccount fun hsame => hsame ▸ h.account
    exact opened.foldl_execute hdc owner tasks
  | applyStrategy owner strategy =>
    refine ⟨[], (List.append_nil log).symm ▸ ?_⟩
    rw [Timetable.serve, Request.call, call_applyStrategy]
    cases ha : t.account? owner with
    | none => exact h
    | some a => exact h.setAccount fun hsame => (account_eq ha ▸ hsame ▸ h.account).direct _

theorem after (h : Kept x id d log t) (hdc : 0 < x.datacenterCount.toNat) (requests : List Request) :
    ∃ new, Kept x id (requests.foldl (Docket.enter x id) d) (log ++ new) (t.after requests) := by
  induction requests generalizing t d log with
  | nil => exact ⟨[], (List.append_nil log).symm ▸ h⟩
  | cons r requests ih =>
    obtain ⟨first, hfirst⟩ := h.serve hdc r
    obtain ⟨rest, hrest⟩ := ih hfirst
    exact ⟨first ++ rest, List.append_assoc .. ▸ hrest⟩

end Kept

/-! ## Any requests -/

/-- **Turns.** Whatever is asked of a timetable, and by whom, every subordinate's tasks take its machines in turn, and
    every machine runs its tasks back to back. -/
theorem tasks_take_turns {x : ExecutorSettings} (h : x.timetable = .ok t) (requests : List Request) (id : EntityId) :
    ∃ log, Account.Charted x.datacenterCount.toNat (Docket.ofRequests x id requests) log
      ((t.after requests).account id) := by
  obtain ⟨log, kept⟩ := (Kept.start h id).after (x.datacenters_pos h) requests
  exact ⟨log, kept.account⟩

/-- one task in two fails -/
def fickle : ExecutorSettings := { failureRate := 0.5, datacenterCount := 2 }

/-- machines come late and twice, another subordinate comes between, and a third one has nothing -/
def shift : List Request :=
  let vm (id mips : Nat) : Vm := ⟨id, mips, 2, 512, 1000, 10000, "Xen"⟩
  let task (id length : Nat) : Task := ⟨id, length, 1, 300, 300⟩
  [.submitTasks 7 [task 0 100], .submitVms 7 [vm 5 100, vm 6 50], .submitTasks 7 [task 1 100, task 2 100, task 3 200],
    .submitVms 8 [vm 5 10], .applyStrategy 9 .roundRobin, .submitTasks 8 [task 0 10], .submitVms 7 [vm 9 25],
    .submitTasks 7 [task 4 50, task 5 100]]

theorem tasks_take_turns_of_shift :
    ∃ t log, fickle.timetable = .ok t ∧
      Account.Charted 2 (Docket.ofRequests fickle 7 shift) log ((t.after shift).account 7) ∧
      log.map (fun x => (x.result.vmId?, x.result.startTime, x.result.finishTime)) =
        [(none, 0, 0), (some 5, 0, 1), (some 6, 0, 2), (some 5, 1, 1), (some 5, 1, 1), (some 6, 2, 4)] := by
  obtain ⟨log, charted⟩ := tasks_take_turns (x := fickle) rfl shift 7
  have hresults := congrArg (List.map fun r => (r.vmId?, r.startTime, r.finishTime)) charted.results
  rw [List.map_map] at hresults
  exact ⟨_, log, rfl, charted, hresults.symm.trans (by decide +kernel)⟩

end Timetable

end BrokerSim
