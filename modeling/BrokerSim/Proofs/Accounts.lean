/-
What the timetable keeps for each subordinate.
- `Account.Executed`: what tasks do to an account: one result for each, in turn, and nothing else that is kept changes.
- `Timetable.submit_spec`: whoever hands in a bundle with machines for the first time has a result for each task; where
  the failure rate is one or zero, there is no doubt how the task ended (`TaskResult.Befits`). Other accounts stay as
  they are (`Timetable.Apart`).
- `Manager.redistribute_spec`: a strategy is put down for everybody whom the manager has a record of, and nobody else.
-/
import BrokerSim.Proofs.Broker
import BrokerSim.Proofs.Clock

namespace BrokerSim

open Float.Model

/-! ## Certainties -/

theorem Time.compare_of_beq {a b : Float} (h : (a == b) = true) :
    a.toModel.unpack.compare b.toModel.unpack = some .eq := by
  change a.toModel.unpack.beq b.toModel.unpack = true at h
  rwa [UnpackedFloat.beq, beq_iff_eq] at h

theorem Time.zero_lt_of_beq_one {p : Float} (h : (p == 1) = true) : 0 < p := by
  have hone : (1 : Float) ≤ p := by
    rw [Time.le_iff_unpack, UnpackedFloat.le, Binary64.compare_swap, Time.compare_of_beq h]
    rfl
  exact Time.lt_of_lt_of_le (by decide) hone

theorem Time.not_zero_lt_of_beq_zero {p : Float} (h : (p == 0) = true) : ¬ 0 < p := by
  rw [Time.lt_iff_unpack, UnpackedFloat.lt, Binary64.compare_swap, Time.compare_of_beq h]
  decide

/-- a result of which a failure rate of one or zero leaves no doubt -/
structure TaskResult.Befits (x : ExecutorSettings) (r : TaskResult) : Prop where
  fails : (x.failureRate == 1) = true → r.status.isSuccess = false
  succeeds : (x.failureRate == 0) = true → r.status.isSuccess = true

theorem Timetable.drawFate_fails (x : ExecutorSettings) (stream : Random.Stream) :
    ((x.failureRate == 1) = true → (drawFate x stream).1.fails = true) ∧
      ((x.failureRate == 0) = true → (drawFate x stream).1.fails = false) := by
  have drawn : (drawFate x stream).1.fails =
      (if 0 < x.failureRate then stream.chance x.failureRate else (false, stream)).1 := by
    unfold drawFate
    dsimp only
    split_ifs <;> rfl
  rw [drawn]
  constructor
  · intro h
    rw [if_pos (Time.zero_lt_of_beq_one h), Random.Stream.chance, if_pos h]
  · intro h
    rw [if_neg (Time.not_zero_lt_of_beq_zero h)]

/-! ## Accounts -/

namespace Account

/-- a machine is there: the task has its result, which is a failure just if its fate says so -/
theorem place_spec (datacenters : Nat) (task : Task) (fate : Fate) {a : Account} (ha : a.vms ≠ []) :
    (a.place datacenters task fate).1.taskId = task.id ∧
      (a.place datacenters task fate).1.status.isSuccess = !fate.fails ∧
      (a.place datacenters task fate).2.results = a.results ∧
      (a.place datacenters task fate).2.strategies = a.strategies ∧
      (a.place datacenters task fate).2.vms = a.vms := by
  have hslot : a.turns % a.vms.length < a.vms.length := Nat.mod_lt _ (List.length_pos_iff.2 ha)
  unfold place
  simp only [List.getElem?_eq_getElem hslot]
  cases fate.fails with
  | true => exact ⟨rfl, rfl, rfl, rfl, rfl⟩
  | false => exact ⟨rfl, rfl, rfl, rfl, rfl⟩

/-- `b` is `a` after these tasks: each has its result -/
structure Executed (x : ExecutorSettings) (tasks : List Task) (a b : Account) : Prop where
  vms : b.vms = a.vms
  strategies : b.strategies = a.strategies
  results : ∃ new, b.results = a.results ++ new ∧ new.map TaskResult.taskId = tasks.map Task.id ∧
    ∀ r ∈ new, r.Befits x

variable {x : ExecutorSettings} {a b c : Account}

theorem Executed.refl (x : ExecutorSettings) (a : Account) : Executed x [] a a :=
  ⟨rfl, rfl, [], (List.append_nil _).symm, rfl, fun _ h => nomatch h⟩

theorem Executed.trans {tasks more : List Task} (h : Executed x tasks a b) (k : Executed x more b c) :
    Executed x (tasks ++ more) a c := by
  obtain ⟨new, hnew, hids, hbefit⟩ := h.results
  obtain ⟨new', hnew', hids', hbefit'⟩ := k.results
  refine ⟨k.vms.trans h.vms, k.strategies.trans h.strategies, new ++ new', ?_, ?_, ?_⟩
  · rw [hnew', hnew, List.append_assoc]
  · rw [List.map_append, List.map_append, hids, hids']
  · exact fun r hr => (List.mem_append.1 hr).elim (hbefit r) (hbefit' r)

end Account

/-! ## The timetable -/

namespace Timetable

/-- two timetables that differ in one account, and in what is still to be drawn, at most -/
structure Apart (id : EntityId) (t u : Timetable) : Prop where
  settings : u.settings = t.settings
  others : ∀ key, key ≠ id → u.account? key = t.account? key

variable {id : EntityId} {t u v : Timetable}

theorem Apart.refl (id : EntityId) (t : Timetable) : Apart id t t := ⟨rfl, fun _ _ => rfl⟩

theorem Apart.trans (h : Apart id t u) (k : Apart id u v) : Apart id t v :=
  ⟨k.settings.trans h.settings, fun key hkey => (k.others key hkey).trans (h.others key hkey)⟩

theorem apart_setAccount (id : EntityId) (a : Account) (t : Timetable) : Apart id t (t.setAccount id a) :=
  ⟨rfl, fun key hkey => (account?_setAccount id key a t).trans (if_neg (Ne.symm hkey))⟩

theorem apart_execute (id : EntityId) (task : Task) (t : Timetable) : Apart id t (t.execute id task) :=
  let next : Timetable := { t with stream := (drawFate t.settings t.stream).2 }
  have same : Apart id t next := ⟨rfl, fun _ _ => rfl⟩
  same.trans (apart_setAccount id _ next)

/-- one task of an account with machines -/
theorem execute_spec {a : Account} (h : t.account? id = some a) (ha : a.vms ≠ []) (task : Task) :
    Apart id t (t.execute id task) ∧
      ∃ b, (t.execute id task).account? id = some b ∧ Account.Executed t.settings [task] a b := by
  let fate := (drawFate t.settings t.stream).1
  let placed := a.place t.settings.datacenterCount.toNat task fate
  let next : Timetable := { t with stream := (drawFate t.settings t.stream).2 }
  obtain ⟨hid, hstatus, hresults, hstrategies, hvms⟩ :=
    Account.place_spec t.settings.datacenterCount.toNat task fate ha
  have heq : t.execute id task = next.setAccount id { placed.2 with results := placed.2.results ++ [placed.1] } := by
    unfold execute
    rw [account_eq h]
  have hfate := drawFate_fails t.settings t.stream
  have befits : placed.1.Befits t.settings := by
    constructor
    · intro hone
      rw [hstatus, hfate.1 hone]
      rfl
    · intro hzero
      rw [hstatus, hfate.2 hzero]
      rfl
  refine ⟨apart_execute id task t, ?_⟩
  rw [heq]
  refine ⟨_, (account?_setAccount id id _ next).trans (if_pos rfl), hvms, hstrategies, [placed.1], ?_, ?_, ?_⟩
  · rw [hresults]
  · rw [List.map_singleton, hid, List.map_singleton]
  · intro r hr
    rw [List.mem_singleton.1 hr]
    exact befits

theorem foldl_execute_spec {a : Account} (h : t.account? id = some a) (ha : a.vms ≠ []) (tasks : List Task) :
    Apart id t (tasks.foldl (execute id) t) ∧
      ∃ b, (tasks.foldl (execute id) t).account? id = some b ∧ Account.Executed t.settings tasks a b := by
  induction tasks generalizing t a with
  | nil => exact ⟨.refl id t, a, h, .refl _ a⟩
  | cons task tasks ih =>
    obtain ⟨apart, b, hb, executed⟩ := execute_spec h ha task
    obtain ⟨apart', c, hc, executed'⟩ := ih hb (executed.vms ▸ ha)
    rw [apart.settings] at executed'
    exact ⟨apart.trans apart', c, hc, executed.trans executed'⟩

/-- **A first bundle.** Whoever has no account and hands in machines and tasks has a result for each task then. -/
theorem submit_spec {vms : List Vm} (h : t.account? id = none) (hvms : vms ≠ []) (tasks : List Task) :
    Apart id t ((t.submitVms id vms).submitTasks id tasks) ∧
      ∃ a, ((t.submitVms id vms).submitTasks id tasks).account? id = some a ∧ a.strategies = [] ∧
        a.results.map TaskResult.taskId = tasks.map Task.id ∧ ∀ r ∈ a.results, r.Befits t.settings := by
  let first : Account := ({} : Account).addVms vms
  have hfirst : t.submitVms id vms = t.setAccount id first := by
    unfold submitVms account
    rw [h]
    rfl
  have hslot : (t.setAccount id first).account? id = some first := (account?_setAccount id id _ t).trans (if_pos rfl)
  let ready := (t.setAccount id first).setAccount id first
  have hready : (t.submitVms id vms).submitTasks id tasks = tasks.foldl (execute id) ready := by
    unfold submitTasks
    rw [hfirst, account_eq hslot]
  have hfirst' : first.vms ≠ [] := hvms
  obtain ⟨apart, a, ha, executed⟩ :=
    foldl_execute_spec ((account?_setAccount id id first (t.setAccount id first)).trans (if_pos rfl)) hfirst' tasks
  have apart' : Apart id t ready := (apart_setAccount id first t).trans (apart_setAccount id first _)
  obtain ⟨new, hresults, hids, befits⟩ := executed.results
  have hresults : a.results = new := hresults
  subst hresults
  rw [hready]
  exact ⟨apart'.trans apart, a, ha, executed.strategies, hids, befits⟩

/-! ## Strategies -/

/-- an account to which a strategy is applied -/
def directed (strategy : Strategy) (a : Account) : Account := { a with strategies := a.strategies ++ [strategy] }

/-- `u` is `t` after a strategy was applied to these -/
structure Directed (strategy : Strategy) (ids : List EntityId) (t u : Timetable) : Prop where
  settings : u.settings = t.settings
  accounts : ∀ key, u.account? key = (t.account? key).map fun a => if key ∈ ids then directed strategy a else a

theorem Directed.nil (strategy : Strategy) (t : Timetable) : Directed strategy [] t t := by
  refine ⟨rfl, fun key => ?_⟩
  simp only [List.not_mem_nil, if_false, Option.map_id']

theorem Directed.cons {strategy : Strategy} {ids : List EntityId} (h : Directed strategy [id] t u) (hid : id ∉ ids)
    (k : Directed strategy ids u v) : Directed strategy (id :: ids) t v := by
  refine ⟨k.settings.trans h.settings, fun key => ?_⟩
  rw [k.accounts, h.accounts, Option.map_map]
  refine congrArg (Option.map · (t.account? key)) (funext fun a => ?_)
  by_cases hkey : key = id
  · subst hkey
    simp only [Function.comp_apply, List.mem_cons, true_or, if_true, hid, if_false]
  · simp only [Function.comp_apply, List.mem_cons, List.not_mem_nil, hkey, false_or, if_false]

/-- a strategy is put down for somebody who has an account, and refused to others -/
theorem applyStrategy_spec (id : EntityId) (strategy : Strategy) (t : Timetable) :
    Directed strategy [id] t ((ExecutionService.applyStrategy id strategy : Call Timetable Unit) t).2.1 := by
  rw [call_applyStrategy]
  cases h : t.account? id with
  | none =>
    refine ⟨rfl, fun key => ?_⟩
    change t.account? key = _
    by_cases hkey : key = id
    · subst hkey
      simp only [h, Option.map_none]
    · simp only [List.mem_singleton, hkey, if_false, Option.map_id']
  | some a =>
    refine ⟨rfl, fun key => ?_⟩
    change (t.setAccount id (directed strategy a)).account? key = _
    rw [account?_setAccount]
    by_cases hkey : id = key
    · subst hkey
      simp only [h, List.mem_singleton, if_true, Option.map_some]
    · simp only [hkey, List.mem_singleton, Ne.symm hkey, if_false, Option.map_id']

end Timetable

open Timetable in
/-- **A switch of strategy** reaches everybody whom the manager has a record of, and nobody else. -/
theorem Manager.redistribute_spec (now : Time) (m : Manager) (t : Timetable) (h : m.subordinateIds.Nodup) :
    Directed m.cycle.current.next m.subordinateIds t (redistribute now m t).2.1 := by
  let next := m.cycle.current.next
  have applied : ∀ (ids : List EntityId) (t : Timetable), ids.Nodup →
      Directed next ids t ((ids.forM (applyTo next) : Exchange Timetable Unit) t).2.1 := by
    intro ids
    induction ids with
    | nil => exact fun t _ => .nil _ t
    | cons id ids ih =>
      intro t hids
      obtain ⟨hid, hids⟩ := List.nodup_cons.1 hids
      have first : Directed next [id] t ((applyTo next id : Exchange Timetable Unit) t).2.1 := by
        have logged : ((applyTo next id : Exchange Timetable Unit) t).2.1 =
            ((ExecutionService.applyStrategy id next : Call Timetable Unit) t).2.1 := by
          unfold applyTo
          simp only [bind]
          rcases (ExecutionService.applyStrategy id next : Call Timetable Unit) t with ⟨_ | _, u, _⟩
          · rfl
          · rfl
        rw [logged]
        exact applyStrategy_spec id _ t
      exact first.cons hid (ih _ hids)
  exact applied m.subordinateIds t h

end BrokerSim
