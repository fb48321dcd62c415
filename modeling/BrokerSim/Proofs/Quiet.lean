/-
Runs in which nothing is drawn. Where no task fails and no time is stretched, the seed and the number of datacenters
show in the results' datacenters alone, and nobody acts on those.
- `Timetable.Like`: two timetables that draw nothing and hold the same, but for the datacenters in their results
  (`TaskResult.anywhere`). Every call does the same on both (`concur_submitTasks` and so on).
- `Agent.concord`: managers, and subordinates that are the same but for the datacenters in their results, do the same.
- `Scenario.summary_regardless_of_draws`: so the summary of a run does not depend on the seed and the datacenters.
-/
import Mathlib.Tactic
import BrokerSim.Proofs.Kernel.Twins
import BrokerSim.Proofs.Records

namespace BrokerSim

open Simulation

/-! ## Results but for their datacenters -/

/-- a result without the datacenter in it -/
def TaskResult.anywhere (r : TaskResult) : TaskResult := { r with resourceId? := none }

/-- the figures of results do not tell of datacenters -/
theorem SubordinateStats.ofResults_anywhere (id : EntityId) (name : String) (results : List TaskResult) :
    ofResults id name (results.map TaskResult.anywhere) = ofResults id name results := by
  have hfilter : ∀ p : TaskStatus → Bool, (results.map TaskResult.anywhere).filter (fun r => p r.status) =
      (results.filter fun r => p r.status).map TaskResult.anywhere := fun p => List.filter_map
  unfold ofResults
  simp only [hfilter fun status => status.isSuccess, hfilter fun status => !status.isSuccess, List.length_map,
    List.map_map]
  rfl

namespace Account

/-- an account without the datacenters in its results -/
def anywhere (a : Account) : Account := { a with results := a.results.map TaskResult.anywhere }

/-- an account that is another but for datacenters differs from it in its results alone -/
theorem eq_of_anywhere {a b : Account} (h : a.anywhere = b.anywhere) :
    ∃ results, b = { a with results } ∧ results.map TaskResult.anywhere = a.results.map TaskResult.anywhere := by
  obtain ⟨vms, freeAt, turns, results, strategies⟩ := a
  obtain ⟨vms', freeAt', turns', results', strategies'⟩ := b
  simp only [anywhere, mk.injEq] at h
  obtain ⟨rfl, rfl, rfl, hresults, rfl⟩ := h
  exact ⟨results', rfl, hresults.symm⟩

/-- whatever the number of datacenters, a task is placed in the same way -/
theorem record_place_anywhere {a b : Account} (h : a.anywhere = b.anywhere) (datacenters datacenters' : Nat)
    (task : Task) (fate : Fate) :
    (record (a.place datacenters task fate)).anywhere = (record (b.place datacenters' task fate)).anywhere := by
  obtain ⟨results, rfl, hresults⟩ := eq_of_anywhere h
  unfold record place
  dsimp only
  cases a.vms[a.turns % a.vms.length]? with
  | none => simp only [anywhere, List.map_append, hresults]
  | some vm =>
    dsimp only
    split_ifs
    · simp only [anywhere, List.map_append, hresults, List.map_singleton, TaskResult.anywhere]
    · simp only [anywhere, List.map_append, hresults, List.map_singleton, TaskResult.anywhere]

end Account

/-! ## Timetables -/

/-- settings under which no task fails, and none takes another time than its own -/
structure ExecutorSettings.Quiet (x : ExecutorSettings) : Prop where
  fails : ¬ 0 < x.failureRate
  noise : x.isNoisy = false

namespace Timetable

theorem drawFate_quiet {x : ExecutorSettings} (h : x.Quiet) (stream : Random.Stream) :
    drawFate x stream = (⟨false, 1⟩, stream) := by
  unfold drawFate
  rw [if_neg h.fails]
  dsimp only
  rw [if_neg (h.noise ▸ Bool.false_ne_true)]

/-- two timetables that draw nothing, and hold the same but for datacenters -/
structure Like (t u : Timetable) : Prop where
  left : t.settings.Quiet
  right : u.settings.Quiet
  accounts : ∀ id, (t.account? id).map Account.anywhere = (u.account? id).map Account.anywhere

variable {t u : Timetable}

/-- a subordinate has an account in both, or in neither -/
theorem Like.cases (h : Like t u) (id : EntityId) :
    t.account? id = none ∧ u.account? id = none ∨
      ∃ a b, t.account? id = some a ∧ u.account? id = some b ∧ a.anywhere = b.anywhere := by
  have hid := h.accounts id
  cases ht : t.account? id <;> cases hu : u.account? id <;> rw [ht, hu] at hid
  case none.none => exact .inl ⟨rfl, rfl⟩
  case some.some => exact .inr ⟨_, _, rfl, rfl, Option.some.inj hid⟩
  all_goals cases hid

theorem Like.account (h : Like t u) (id : EntityId) : (t.account id).anywhere = (u.account id).anywhere := by
  obtain ⟨ht, hu⟩ | ⟨a, b, ht, hu, hab⟩ := h.cases id
  · rw [Timetable.account, Timetable.account, ht, hu]
  · rw [account_eq ht, account_eq hu, hab]

theorem Like.setAccount (h : Like t u) (id : EntityId) {a b : Account} (hab : a.anywhere = b.anywhere) :
    Like (t.setAccount id a) (u.setAccount id b) := by
  refine ⟨h.left, h.right, fun key => ?_⟩
  rw [account?_setAccount, account?_setAccount]
  split_ifs
  · rw [Option.map_some, Option.map_some, hab]
  · exact h.accounts key

theorem Like.execute (h : Like t u) (id : EntityId) (task : Task) : Like (t.execute id task) (u.execute id task) := by
  unfold Timetable.execute
  rw [drawFate_quiet h.left, drawFate_quiet h.right]
  have hsame : Like { t with stream := t.stream } { u with stream := u.stream } := h
  exact hsame.setAccount id (Account.record_place_anywhere (h.account id) _ _ task _)

theorem Like.submitTasks (h : Like t u) (id : EntityId) (tasks : List Task) :
    Like (t.submitTasks id tasks) (u.submitTasks id tasks) := by
  have executed : ∀ {t u : Timetable}, Like t u →
      Like (tasks.foldl (Timetable.execute id) t) (tasks.foldl (Timetable.execute id) u) := by
    induction tasks with
    | nil => exact fun h => h
    | cons task tasks ih => exact fun h => ih (h.execute id task)
  exact executed (h.setAccount id (h.account id))

theorem Like.submitVms (h : Like t u) (id : EntityId) (vms : List Vm) :
    Like (t.submitVms id vms) (u.submitVms id vms) :=
  h.setAccount id (congrArg (Account.addVms vms) (h.account id) :)

theorem concur_submitVms (id : EntityId) (vms : List Vm) :
    Exchange.Concur Like (Agree Eq) (ExecutionService.submitVms id vms : Call Timetable Unit)
      (ExecutionService.submitVms id vms) :=
  fun _ _ h => ⟨.ok rfl, h.submitVms id vms⟩

theorem concur_submitTasks (id : EntityId) (tasks : List Task) :
    Exchange.Concur Like (Agree Eq) (ExecutionService.submitTasks id tasks : Call Timetable Unit)
      (ExecutionService.submitTasks id tasks) :=
  fun _ _ h => ⟨.ok rfl, h.submitTasks id tasks⟩

theorem concur_completedTasks (id : EntityId) :
    Exchange.Concur Like (Agree fun l k => l.map TaskResult.anywhere = k.map TaskResult.anywhere)
      (ExecutionService.completedTasks id : Call Timetable (List TaskResult)) (ExecutionService.completedTasks id) := by
  intro t u h
  refine ⟨?_, h⟩
  change Agree _ (t.completedTasks id) (u.completedTasks id)
  obtain ⟨ht, hu⟩ | ⟨a, b, ht, hu, hab⟩ := h.cases id
  · rw [completedTasks, completedTasks, ht, hu]
    exact .error _
  · rw [completedTasks_eq ht, completedTasks_eq hu]
    exact .ok (congrArg Account.results hab)

theorem concur_applyStrategy (id : EntityId) (strategy : Strategy) :
    Exchange.Concur Like (Agree Eq) (ExecutionService.applyStrategy id strategy : Call Timetable Unit)
      (ExecutionService.applyStrategy id strategy) := by
  intro t u h
  change Agree Eq ((Request.applyStrategy id strategy).call t).1 ((Request.applyStrategy id strategy).call u).1 ∧
    Like ((Request.applyStrategy id strategy).call t).2.1 ((Request.applyStrategy id strategy).call u).2.1
  obtain ⟨ht, hu⟩ | ⟨a, b, ht, hu, hab⟩ := h.cases id
  · rw [call_applyStrategy_unknown ht, call_applyStrategy_unknown hu]
    exact ⟨.error _, h⟩
  · rw [call_applyStrategy_known ht, call_applyStrategy_known hu]
    exact ⟨.ok rfl, h.setAccount id (congrArg (directed strategy) hab :)⟩

end Timetable

/-! ## Subordinates -/

open Timetable Reaction

namespace Subordinate

/-- a subordinate without the datacenters in its results -/
def anywhere (sub : Subordinate) : Subordinate := { sub with results := sub.results.map TaskResult.anywhere }

theorem eq_of_anywhere {sub other : Subordinate} (h : sub.anywhere = other.anywhere) :
    ∃ results, other = { sub with results } ∧
      results.map TaskResult.anywhere = sub.results.map TaskResult.anywhere := by
  obtain ⟨name, bundle, policy, deadline?, results, collected, timedOut⟩ := sub
  obtain ⟨name', bundle', policy', deadline?', results', collected', timedOut'⟩ := other
  simp only [anywhere, mk.injEq] at h
  obtain ⟨rfl, rfl, rfl, rfl, hresults, rfl, rfl⟩ := h
  exact ⟨results', rfl, hresults.symm⟩

/-- subordinates that are the same but for datacenters -/
def Like (sub other : Subordinate) : Prop := sub.anywhere = other.anywhere

/-- results that are the same but for datacenters -/
theorem Like.results (sub : Subordinate) {results results' : List TaskResult}
    (h : results.map TaskResult.anywhere = results'.map TaskResult.anywhere) :
    Like { sub with results } { sub with results := results' } := by
  unfold Like anywhere
  rw [h]

/-- a change that has nothing to do with results -/
theorem Like.change {sub other : Subordinate} (h : Like sub other) {f : Subordinate → Subordinate}
    (hf : ∀ sub, (f sub).anywhere = f sub.anywhere) : Like (f sub) (f other) :=
  (hf sub).trans ((congrArg f h).trans (hf other).symm)

variable {ε : Type} {E : ε → ε → Prop}

theorem start_concur :
    Reaction.Concur E Timetable.Like Like Eq (start : Reaction Subordinate ε Signal Timetable Unit) start := by
  refine .bind .get fun sub other hsub => .bind .view fun v w hv => ?_
  obtain ⟨results, rfl, -⟩ := eq_of_anywhere hsub
  rw [hv.self]
  refine .bind (.call (concur_submitVms _ _)) fun _ _ _ => ?_
  refine .bind (.call (concur_submitTasks _ _)) fun _ _ _ => ?_
  refine .bind .remark fun _ _ _ => ?_
  refine .bind (.scheduleSelf _ _) fun _ _ _ => ?_
  refine .bind (.scheduleSelf _ _) fun deadline _ hdeadline => ?_
  subst hdeadline
  exact .modify fun _ _ h => h.change (f := fun sub => { sub with deadline? := some deadline }) fun _ => rfl

theorem conclude_concur :
    Reaction.Concur E Timetable.Like Like Eq (conclude : Reaction Subordinate ε Signal Timetable Unit) conclude := by
  refine .bind .get fun sub other hsub => ?_
  have hset := hsub.change (f := fun sub => { sub with collected := true, deadline? := none }) fun _ => rfl
  refine .bind (.set hset) fun _ _ _ => ?_
  obtain ⟨results, rfl, -⟩ := eq_of_anywhere hsub
  dsimp only
  cases sub.deadline? with
  | none => exact .bind .view fun _ _ _ => .remark
  | some deadline => exact .bind (.cancel deadline) fun _ _ _ => .bind .view fun _ _ _ => .remark

theorem collect_concur :
    Reaction.Concur E Timetable.Like Like Eq (collect : Reaction Subordinate ε Signal Timetable Unit) collect := by
  refine .bind .get fun sub other hsub => ?_
  obtain ⟨before, rfl, -⟩ := eq_of_anywhere hsub
  dsimp only
  split_ifs
  · exact .pure rfl
  · refine .bind .view fun v w hv => ?_
    rw [hv.self]
    refine .bind (.call (concur_completedTasks _)) fun results results' hresults => ?_
    refine .bind (.set (.results sub hresults)) fun _ _ _ => ?_
    have hlength : results.length = results'.length := by
      have := congrArg List.length hresults
      rwa [List.length_map, List.length_map] at this
    unfold isComplete
    dsimp only
    rw [hlength]
    split_ifs
    · exact conclude_concur
    · exact .bind (.scheduleSelf _ _) fun _ _ _ => .pure rfl

theorem giveUp_concur :
    Reaction.Concur E Timetable.Like Like Eq (giveUp : Reaction Subordinate ε Signal Timetable Unit) giveUp := by
  refine .bind .get fun sub other hsub => ?_
  have hsettled := hsub.change (f := fun sub => { sub with deadline? := none }) fun _ => rfl
  have hgiven := hsub.change (f := fun sub => { sub with deadline? := none, timedOut := true }) fun _ => rfl
  obtain ⟨results, rfl, -⟩ := eq_of_anywhere hsub
  dsimp only
  split_ifs
  · exact .set hsettled
  · exact .bind (.set hgiven) fun _ _ _ => .bind .view fun _ _ _ => .remark

theorem react_concur (e : Event Signal) :
    Reaction.Concur E Timetable.Like Like Eq (react e : Reaction Subordinate ε Signal Timetable Unit) (react e) := by
  unfold react
  cases e.message with
  | collectResults => exact collect_concur
  | resultsDeadline => exact giveUp_concur
  | createSubordinate | monitorResources | redistributeWorkload | analyzePerformance =>
    refine .bind .view fun v w hv => ?_
    rw [hv.self]
    exact .throw _

theorem shutdown_concur (now : Time) {sub other : Subordinate} (h : Like sub other) :
    Exchange.Concur Timetable.Like Like (shutdown now sub) (shutdown now other) := by
  refine .bind .remark fun _ _ _ => ?_
  have hresults : List.Forall₂ (fun r q => r.anywhere = q.anywhere) sub.results other.results :=
    List.forall₂_map_left_iff.1 (List.forall₂_map_right_iff.1 (List.forall₂_eq_eq_eq ▸ congrArg Subordinate.results h))
  exact .bind (.forM₂ (fun _ _ _ => .remark) hresults) fun _ _ _ => .pure h

end Subordinate

/-! ## Managers -/

namespace Manager

variable {ε : Type} {E : ε → ε → Prop}

theorem create_concur {enlist : Subordinate → ε} (he : ∀ sub, E (enlist sub) (enlist sub)) (workload : Option String)
    (c : WorkloadClass) :
    Reaction.Concur E Timetable.Like Eq Eq
      (create enlist workload c : Reaction Manager ε Signal Timetable Unit) (create enlist workload c) := by
  refine .bind .get fun m m' hm => .bind .view fun v w hv => ?_
  subst hm
  rw [hv.nextId, hv.now]
  split_ifs
  · exact .bind .remark fun _ _ _ => .bind (.spawn (he _)) fun _ _ _ => .bind .remark fun _ _ _ => .set rfl
  · exact .bind (.spawn (he _)) fun _ _ _ => .bind .remark fun _ _ _ => .set rfl

theorem request_concur {enlist : Subordinate → ε} (he : ∀ sub, E (enlist sub) (enlist sub))
    (workload : Option String) :
    Reaction.Concur E Timetable.Like Eq Eq
      (request enlist workload : Reaction Manager ε Signal Timetable Unit) (request enlist workload) := by
  refine .bind .get fun m m' hm => ?_
  subst hm
  cases m.grant workload with
  | error failure => exact .bind (.set rfl) fun _ _ _ => .throw _
  | ok c => exact create_concur he workload c

theorem monitor_concur (now : Time) (m : Manager) :
    Exchange.Concur Timetable.Like Eq (monitor now m : Exchange Timetable Unit) (monitor now m) := by
  exact .bind .remark fun _ _ _ => .bind (.forM (fun _ => .remark) _) fun _ _ _ => .remark

theorem applyTo_concur (strategy : Strategy) (id : EntityId) :
    Exchange.Concur Timetable.Like Eq (applyTo strategy id : Exchange Timetable Unit) (applyTo strategy id) := by
  refine .bind (concur_applyStrategy id strategy) fun r q hr => ?_
  cases hr with
  | ok => exact .remark
  | error => exact .remark

theorem redistribute_concur (now : Time) (m : Manager) :
    Exchange.Concur Timetable.Like Eq (redistribute now m : Exchange Timetable Manager) (redistribute now m) := by
  exact .bind .remark fun _ _ _ => .bind (.forM (applyTo_concur _) _) fun _ _ _ => .pure rfl

/-- figures do not tell of datacenters -/
theorem statsOf_concur (r : ManagedRecord) :
    Exchange.Concur Timetable.Like Eq (statsOf r : Exchange Timetable SubordinateStats) (statsOf r) := by
  refine .bind (concur_completedTasks r.subordinateId) fun x y hxy => ?_
  cases hxy with
  | error => exact .bind .remark fun _ _ _ => .pure rfl
  | @ok results results' hresults =>
    refine .pure ?_
    rw [← SubordinateStats.ofResults_anywhere, hresults, SubordinateStats.ofResults_anywhere]

theorem analyze_concur (now : Time) (m : Manager) :
    Exchange.Concur Timetable.Like Eq (analyze now m : Exchange Timetable (PerformanceReport × Manager))
      (analyze now m) := by
  refine .bind (.mapM statsOf_concur m.records) fun stats stats' hstats => ?_
  subst hstats
  have logged : Exchange.Concur Timetable.Like Eq (logReport now (.ofStats now stats) : Exchange Timetable Unit)
      (logReport now (.ofStats now stats)) := .bind (.forM (fun _ => .remark) _) fun _ _ _ => .remark
  exact .bind logged fun _ _ _ => .pure rfl

theorem start_concur :
    Reaction.Concur E Timetable.Like Eq Eq (start : Reaction Manager ε Signal Timetable Unit) start := by
  refine .bind .get fun m m' hm => .bind .view fun v w hv => .bind .remark fun _ _ _ => ?_
  subst hm
  exact .forM (fun scheduled => .bind (.scheduleSelf _ _) fun _ _ _ => .pure rfl) _

theorem react_concur {enlist : Subordinate → ε} (he : ∀ sub, E (enlist sub) (enlist sub)) (e : Event Signal) :
    Reaction.Concur E Timetable.Like Eq Eq (react enlist e : Reaction Manager ε Signal Timetable Unit)
      (react enlist e) := by
  refine .bind .get fun m m' hm => .bind .view fun v w hv => ?_
  subst hm
  rw [hv.now, hv.self]
  cases e.message with
  | createSubordinate workload => exact request_concur he workload
  | monitorResources => exact .exchange (monitor_concur w.now m)
  | redistributeWorkload =>
    refine .bind (.exchange (redistribute_concur w.now m)) fun m m' hm => ?_
    exact .set hm
  | analyzePerformance =>
    refine .bind (.exchange (analyze_concur w.now m)) fun p q hp => ?_
    subst hp
    exact .set rfl
  | collectResults | resultsDeadline => exact .throw _

theorem shutdown_concur (now : Time) (m : Manager) :
    Exchange.Concur Timetable.Like Eq (shutdown now m : Exchange Timetable Manager) (shutdown now m) := by
  refine .bind .remark fun _ _ _ => .bind (analyze_concur now m) fun p q hp => ?_
  subst hp
  exact .pure rfl

end Manager

/-! ## Agents -/

namespace Agent

/-- agents that are the same but for datacenters -/
inductive Like : Agent Empty → Agent Empty → Prop where
  | manager (m : Manager) : Like (.manager m) (.manager m)
  | subordinate {sub other : Subordinate} (h : sub.Like other) : Like (.subordinate sub) (.subordinate other)

theorem Like.manager? {a b : Agent Empty} (h : Like a b) : a.manager? = b.manager? := by
  cases h with
  | manager m => rfl
  | subordinate h => rfl

/-- **Nobody acts on datacenters.** -/
theorem concord : Entity.Concord Signal Like Timetable.Like where
  name x y h := by
    cases h with
    | manager => rfl
    | @subordinate sub other h => exact (congrArg Subordinate.name (h : sub.anywhere = other.anywhere) :)
  start := by
    refine .bind .get fun x y h => ?_
    cases h with
    | manager m => exact .within (fun _ _ h => h ▸ .manager _) rfl Manager.start_concur
    | subordinate h => exact .within (fun _ _ h => .subordinate h) h Subordinate.start_concur
  react e := by
    refine .bind .get fun x y h => ?_
    cases h with
    | manager m =>
      exact .within (fun _ _ h => h ▸ .manager _) rfl (Manager.react_concur (fun _ => .subordinate rfl) e)
    | subordinate h => exact .within (fun _ _ h => .subordinate h) h (Subordinate.react_concur e)
  shutdown now x y h := by
    cases h with
    | manager m => exact .bind (Manager.shutdown_concur now m) fun p q hp => .pure (hp ▸ .manager p)
    | subordinate h => exact .bind (Subordinate.shutdown_concur now h) fun p q hp => .pure (.subordinate hp)

end Agent

/-! ## Settings -/

open Float.Model in
/-- equal numbers are bounds of each other -/
theorem Time.le_of_beq {a b : Float} (h : (a == b) = true) : a ≤ b ∧ b ≤ a := by
  have hcompare := Time.compare_of_beq h
  constructor
  · rw [Time.le_iff_unpack, UnpackedFloat.le, hcompare]
    rfl
  · rw [Time.le_iff_unpack, UnpackedFloat.le, Binary64.compare_swap, hcompare]
    rfl

namespace ExecutorSettings

variable {x : ExecutorSettings}

theorem quiet (hfails : (x.failureRate == 0) = true) (hjitter : ¬ 0 < x.jitter) : x.Quiet :=
  ⟨Time.not_zero_lt_of_beq_zero hfails, decide_eq_false hjitter⟩

/-- no failures and no noise, and somewhere to execute: nothing is wrong with that -/
theorem timetable_eq (hfails : (x.failureRate == 0) = true) (hjitter : ¬ 0 < x.jitter)
    (hcount : x.datacenterCount ≠ 0) : x.timetable = .ok { settings := x, stream := .ofSeed x.seed } := by
  obtain ⟨hhigh, hlow⟩ := Time.le_of_beq hfails
  have hhigh : x.failureRate ≤ 1 := Time.le_trans hhigh (by decide)
  have hfault : x.fault? = none := by
    unfold fault?
    rw [(quiet hfails hjitter).noise, if_neg (by simp [hlow, hhigh]), if_neg hcount]
    rfl
  unfold timetable
  rw [hfault]

end ExecutorSettings

/-- settings with another seed and another number of datacenters -/
def RunSettings.redrawn (seed count : UInt64) (settings : RunSettings) : RunSettings :=
  { settings with executor := { settings.executor with seed, datacenterCount := count } }

/-! ## Runs -/

namespace Scenario

/-- runs that look the same have the same manager -/
theorem manager?_twin {s t : Run} (h : Twin Agent.Like Timetable.Like s t) : manager? s = manager? t := by
  have hmanagers : s.entities.toList.map (fun slot => slot.entity.manager?) =
      t.entities.toList.map fun slot => slot.entity.manager? := by
    refine List.ext_getElem? fun id => ?_
    rw [List.getElem?_map, List.getElem?_map, Array.getElem?_toList, Array.getElem?_toList]
    obtain ⟨hs, ht⟩ | ⟨a, b, hs, ht, hab⟩ := rel_cases (h.slots id)
    · rw [hs, ht]
    · rw [hs, ht, Option.map_some, Option.map_some, hab.entity.manager?]
  have hfirst := congrArg (List.findSome? id) hmanagers
  rw [List.findSome?_map, List.findSome?_map] at hfirst
  exact hfirst

theorem summarize_twin (settings : RunSettings) (r : Except SimError RunOutcome) {s t : Run}
    (h : Twin Agent.Like Timetable.Like s t) : summarize settings r s = summarize settings r t := by
  unfold summarize
  rw [manager?_twin h, h.stats]

/-- registered and run to the end on timetables that look the same -/
theorem play_twin (settings : RunSettings) (fuel : Nat) {t u : Timetable} (h : Timetable.Like t u) :
    Option.Rel (Same Agent.Like Timetable.Like) (play settings fuel t) (play settings fuel u) := by
  have fresh : Twin (μ := Signal) Agent.Like Timetable.Like (.fresh settings.limits t) (.fresh settings.limits u) :=
    ⟨rfl, rfl, fun _ => .none, .nil, h⟩
  unfold play
  dsimp only
  obtain ⟨hp, hq⟩ | ⟨p, q, hp, hq, hsame⟩ :=
    rel_cases ((fresh.note _ _).register Agent.concord fuel (.manager (.ofSettings settings.manager)))
  · rw [hp, hq]
    exact .none
  · rw [hp, hq]
    obtain ⟨_, v, w, rfl, rfl, twin⟩ | ⟨e, v, w, rfl, rfl, twin⟩ := hsame.cases
    · exact twin.run Agent.concord fuel
    · exact .some ⟨rfl, twin⟩

theorem run_of_timetable {settings : RunSettings} {t : Timetable} (h : settings.executor.timetable = .ok t)
    (fuel : Nat) :
    run settings fuel =
      (play settings fuel t).map fun p => .ok (summarize settings p.1 p.2, logHalt settings p.1 p.2) := by
  unfold run
  rw [h]
  dsimp only
  cases play settings fuel t <;> rfl

/-- more fuel does not change what a run comes to -/
theorem run_mono {settings : RunSettings} {fuel more : Nat} {x : Except SimError (RunSummary × Run)}
    (h : run settings fuel = some x) (hle : fuel ≤ more) : run settings more = some x := by
  cases ht : settings.executor.timetable with
  | error e =>
    rw [run_refused ht] at h ⊢
    exact h
  | ok t =>
    rw [run_of_timetable ht] at h ⊢
    obtain ⟨p, hp, rfl⟩ := Option.map_eq_some_iff.1 h
    unfold play at hp ⊢
    dsimp only at hp ⊢
    obtain ⟨⟨r, s⟩, hr, hp⟩ := Option.bind_eq_some_iff.1 hp
    rw [register_mono hr hle]
    cases r with
    | error e =>
      cases hp
      rfl
    | ok id =>
      obtain ⟨q, hq, rfl⟩ := Option.map_eq_some_iff.1 (show s.run fuel = some p from hp)
      change Option.map _ (s.run more) = _
      unfold Simulation.run
      rw [loop_mono hq hle]
      rfl

/-- the same fuel lasts on both sides, or on neither -/
theorem run_redrawn (settings : RunSettings) (seed : UInt64) {count : UInt64}
    (hfails : (settings.executor.failureRate == 0) = true) (hjitter : ¬ 0 < settings.executor.jitter)
    (hcount : settings.executor.datacenterCount ≠ 0) (hcount' : count ≠ 0) (fuel : Nat) :
    Option.Rel (fun x y => ∃ summary s t, x = .ok (summary, s) ∧ y = .ok (summary, t)) (run settings fuel)
      (run (settings.redrawn seed count) fuel) := by
  let other := settings.redrawn seed count
  let t : Timetable := { settings := settings.executor, stream := .ofSeed settings.executor.seed }
  let u : Timetable := { settings := other.executor, stream := .ofSeed seed }
  have like : Timetable.Like t u :=
    ⟨settings.executor.quiet hfails hjitter, other.executor.quiet hfails hjitter, fun _ => rfl⟩
  -- apart from its timetable, a run asks the settings for what they have in common
  have hright : run other fuel =
      (play settings fuel u).map fun p => .ok (summarize settings p.1 p.2, logHalt settings p.1 p.2) :=
    run_of_timetable (other.executor.timetable_eq hfails hjitter hcount') fuel
  rw [hright, run_of_timetable (settings.executor.timetable_eq hfails hjitter hcount)]
  obtain ⟨hp, hq⟩ | ⟨p, q, hp, hq, hsame⟩ := rel_cases (play_twin settings fuel like)
  · rw [hp, hq]
    exact .none
  · rw [hp, hq]
    have hsummary : summarize settings p.1 p.2 = summarize settings q.1 q.2 := by
      rw [summarize_twin settings p.1 hsame.twin, hsame.outcome]
    exact .some ⟨_, logHalt settings p.1 p.2, logHalt settings q.1 q.2, rfl, by rw [hsummary]⟩

/-- **Draws.** Where no task fails and there is no noise, neither the seed nor the number of datacenters tells in
    whether a run ends, nor in its summary. -/
theorem summary_regardless_of_draws (settings : RunSettings) (seed count : UInt64)
    (hfails : (settings.executor.failureRate == 0) = true) (hjitter : ¬ 0 < settings.executor.jitter)
    (hcount : settings.executor.datacenterCount ≠ 0) (hcount' : count ≠ 0) :
    (∀ fuel, (run settings fuel).isSome = (run (settings.redrawn seed count) fuel).isSome) ∧
      ∀ fuel fuel' x y, run settings fuel = some x → run (settings.redrawn seed count) fuel' = some y →
        ∃ summary s t, x = .ok (summary, s) ∧ y = .ok (summary, t) := by
  have same := run_redrawn settings seed hfails hjitter hcount hcount'
  constructor
  · intro fuel
    obtain ⟨hx, hy⟩ | ⟨x, y, hx, hy, -⟩ := rel_cases (same fuel)
    · rw [hx, hy]
    · rw [hx, hy]
      rfl
  · intro fuel fuel' x y hx hy
    have hx := run_mono hx (Nat.le_max_left fuel fuel')
    have hy := run_mono hy (Nat.le_max_right fuel fuel')
    have hsame := same (max fuel fuel')
    rw [hx, hy] at hsame
    cases hsame with
    | some h => exact h

/-- two subordinates, a refusal, a switch of strategy and a report, in a run without noise -/
def stillSettings : RunSettings where
  manager := {
    schedule := [⟨0, .createSubordinate (some "light")⟩, ⟨1, .createSubordinate none⟩,
      ⟨2, .createSubordinate (some "heavy")⟩, ⟨5, .redistributeWorkload⟩, ⟨30, .analyzePerformance⟩] }
  executor := { jitter := 0 / 0 }

/-- where the tasks of the first subordinate were executed -/
def firstPlaces (s : Run) : List (Option Nat) := (s.world.account 1).results.map TaskResult.resourceId?

theorem summary_regardless_of_draws_of_still :
    ∃ summary s t, run stillSettings 20 = some (.ok (summary, s)) ∧
      run (stillSettings.redrawn 7 1) 20 = some (.ok (summary, t)) ∧ summary.records.length = 2 ∧
      firstPlaces s = [some 0, some 1, some 0] ∧ firstPlaces t = [some 0, some 0, some 0] := by
  obtain ⟨-, same⟩ :=
    summary_regardless_of_draws stillSettings 7 1 (by decide) (by decide) (by decide) (by decide)
  have left : (run stillSettings 20).map (fun r => r.map fun (summary, s) => (summary.records.length, firstPlaces s)) =
      some (.ok (2, [some 0, some 1, some 0])) := by decide +kernel
  have right : (run (stillSettings.redrawn 7 1) 20).map (fun r => r.map fun (_, t) => firstPlaces t) =
      some (.ok [some 0, some 0, some 0]) := by decide +kernel
  obtain ⟨x, hx, hleft⟩ := Option.map_eq_some_iff.1 left
  obtain ⟨y, hy, hright⟩ := Option.map_eq_some_iff.1 right
  obtain ⟨summary, s, t, rfl, rfl⟩ := same 20 20 x y hx hy
  obtain ⟨hrecords, hplaces⟩ := Prod.mk.inj (Except.ok.inj hleft)
  exact ⟨summary, s, t, hx, hy, hrecords, hplaces, Except.ok.inj hright⟩

end Scenario

end BrokerSim
