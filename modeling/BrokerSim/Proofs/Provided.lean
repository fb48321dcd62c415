/-
One manager on a timetable: what the accounts say of its records and plans.
- `Provided`: everybody behind the manager has an account and nobody else has; it holds a result for each task of the
  record, and the strategies of the plans that list the subordinate.
- `Provided.step`: every step keeps it. Accounts are opened when subordinates start (`Subordinate.world_start`),
  strategies are put down when the manager switches (`Manager.redistribute_spec`), and nothing else touches the
  timetable.
-/
import BrokerSim.Proofs.Accounts
import BrokerSim.Proofs.Solo

namespace BrokerSim

/-! ## What touches the timetable -/

namespace Subordinate

/-- a subordinate that starts hands in its machines and then its tasks, whatever becomes of its plans -/
theorem world_start {ε : Type} (self : EntityId) (sub : Subordinate) (s : Simulation ε Signal Timetable) :
    ((start : Reaction Subordinate ε Signal Timetable Unit).play self sub s).2.world =
      (s.world.submitVms self sub.bundle.vms).submitTasks self sub.bundle.tasks := by
  have planned : ∀ (delay : Float) (message : Signal) (t : Simulation ε Signal Timetable),
      (t.schedule delay self self message).2.world = t.world := by
    intro delay message t
    unfold Simulation.schedule
    split <;> rfl
  unfold start
  simp only [Reaction.play_bind, Reaction.play_get, Reaction.play_view]
  have hv : ∀ u : Simulation ε Signal Timetable,
      (u.exchange (ExecutionService.submitVms (s.view self).self sub.bundle.vms)).1 = .ok () := fun _ => rfl
  have ht : ∀ u : Simulation ε Signal Timetable,
      (u.exchange (ExecutionService.submitTasks (s.view self).self sub.bundle.tasks)).1 = .ok () := fun _ => rfl
  simp only [Reaction.play_call, hv, ht, Reaction.play_remark, Reaction.play_scheduleSelf, Reaction.play_modify]
  generalize hu : Simulation.note _ _ = u
  have hw : u.world = (s.world.submitVms self sub.bundle.vms).submitTasks self sub.bundle.tasks := hu ▸ rfl
  clear hu
  have first := planned sub.policy.interval .collectResults u
  generalize u.schedule sub.policy.interval self self .collectResults = scheduled at first ⊢
  obtain ⟨_ | _, v⟩ := scheduled
  · exact first.trans hw
  have second := planned sub.policy.timeout .resultsDeadline v
  dsimp only
  generalize v.schedule sub.policy.timeout self self .resultsDeadline = scheduled at second ⊢
  obtain ⟨_ | _, w⟩ := scheduled
  · exact second.trans (first.trans hw)
  · exact second.trans (first.trans hw)

/-- to ask for results is all that it does later -/
theorem world_react {ε : Type} (self : EntityId) (sub : Subordinate) (e : Event Signal)
    (s : Simulation ε Signal Timetable) :
    ((react e : Reaction Subordinate ε Signal Timetable Unit).play self sub s).2.world = s.world := by
  have lenient : Reaction.Lenient fun s t : Simulation ε Signal Timetable => t.world = s.world :=
    ⟨fun _ => rfl, fun h k => k.trans h, fun _ _ => rfl, fun _ _ => rfl⟩
  exact react_leads lenient (fun _ _ => rfl) e self sub s

end Subordinate

/-- reports only read the timetable -/
theorem Manager.world_analyze (now : Time) (m : Manager) (t : Timetable) : (analyze now m t).2.1 = t :=
  (analyze_within (R := Eq) (fun _ => .read _) now m t).symm

open Exchange in
/-- and so do last words -/
theorem Agent.shutdown_within (now : Time) (e : Agent Empty) :
    Within Eq (Entity.shutdown Signal now e : Exchange Timetable (Agent Empty)) := by
  cases e with
  | manager m =>
    have reports : Within Eq (m.shutdown now : Exchange Timetable Manager) :=
      .bind (.remark _ _) fun _ => .bind (Manager.analyze_within (fun _ => .read _) now m) fun _ => .pure _
    exact fun t => reports t
  | subordinate sub =>
    have remarks : Within Eq (sub.shutdown now : Exchange Timetable Subordinate) :=
      .bind (.remark _ _) fun _ => .bind (.forM (fun _ => .remark _ _) _) fun _ => .pure _
    exact fun t => remarks t
  | guest g => exact g.elim

theorem WorkloadClass.vms_ne_nil (c : WorkloadClass) (firstVm firstTask : Nat) :
    (c.bundle firstVm firstTask).vms ≠ [] := by
  cases c <;> exact List.cons_ne_nil _ _

/-! ## Accounts and records -/

/-- the accounts agree with the records and the plans of the manager -/
structure Provided (x : ExecutorSettings) (m : Manager) (s : Scenario.Run) : Prop where
  settings : s.world.settings = x
  present : ∀ id, (∃ a, s.world.account? id = some a) ↔ 0 < id ∧ id < s.entities.size
  equipped : ∀ r ∈ m.entries, r.vms ≠ []
  results : ∀ r ∈ m.entries, ∀ a, s.world.account? r.subordinateId = some a →
    a.results.map TaskResult.taskId = r.tasks.map Task.id ∧ ∀ result ∈ a.results, result.Befits x
  /-- plans list subordinates that have a place -/
  listed : ∀ p ∈ m.plans, ∀ id ∈ p.affected, 0 < id ∧ id < s.entities.size
  strategies : ∀ id a, s.world.account? id = some a →
    a.strategies = (m.plans.filter fun p => id ∈ p.affected).map Strategy.Plan.strategy

namespace Provided

variable {x : ExecutorSettings} {settings : ManagerSettings} {m m' : Manager} {s t : Scenario.Run}

theorem start (hx : s.world.settings = x) (empty : ∀ id, s.world.account? id = none) (hs : s.entities.size = 1) :
    Provided x (.ofSettings settings) s where
  settings := hx
  present id := by
    rw [hs]
    refine iff_of_false ?_ ?_
    · rintro ⟨a, ha⟩
      cases (empty id).symm.trans ha
    · rintro ⟨hpos, hlt⟩
      exact absurd (Nat.lt_one_iff.1 hlt) hpos.ne'
  equipped _ h := nomatch h
  results _ h := nomatch h
  listed _ h := nomatch h
  strategies id a ha := by cases (empty id).symm.trans ha

/-- when everybody has a place, every record has its account -/
theorem account (h : Provided x m s) (solo : Solo settings m s) (full : s.nextId = s.entities.size)
    {r : ManagedRecord} (hr : r ∈ m.entries) : ∃ a, s.world.account? r.subordinateId = some a := by
  rw [h.present, ← full, ← solo.mem_ids]
  exact Manager.mem_subordinateIds hr

/-- what was applied to a subordinate, also to one that does not exist -/
theorem applied (h : Provided x m s) (id : EntityId) :
    s.world.strategiesApplied id = (m.plans.filter fun p => id ∈ p.affected).map Strategy.Plan.strategy := by
  unfold Timetable.strategiesApplied
  cases ha : s.world.account? id with
  | some a =>
    rw [Timetable.account_eq ha]
    exact h.strategies id a ha
  | none =>
    have nobody : (m.plans.filter fun p => id ∈ p.affected) = [] := by
      refine List.filter_eq_nil_iff.2 fun p hp hmem => ?_
      obtain ⟨a, ha'⟩ := (h.present id).2 (h.listed p hp id (of_decide_eq_true hmem))
      cases ha.symm.trans ha'
    rw [nobody, Timetable.account, ha]
    rfl

/-- nothing has changed that the accounts are compared with -/
theorem same (h : Provided x m s) (world : t.world = s.world) (size : t.entities.size = s.entities.size)
    (entries : m'.entries = m.entries) (plans : m'.plans = m.plans) : Provided x m' t where
  settings := world ▸ h.settings
  present := by rw [world, size]; exact h.present
  equipped := entries ▸ h.equipped
  results := by rw [world, entries]; exact h.results
  listed := by rw [size, plans]; exact h.listed
  strategies := by rw [world, plans]; exact h.strategies

/-- the subordinate of a record has a place now, and has handed in what the record says -/
theorem opened (h : Provided x m s) (solo : Solo settings m s) {r : ManagedRecord} (hr : r ∈ m.entries)
    (place : r.subordinateId = s.entities.size) (size : t.entities.size = s.entities.size + 1)
    (world : t.world = (s.world.submitVms r.subordinateId r.vms).submitTasks r.subordinateId r.tasks) :
    Provided x m t := by
  have none : s.world.account? r.subordinateId = none := by
    by_contra hsome
    obtain ⟨a, ha⟩ := Option.ne_none_iff_exists'.1 hsome
    exact absurd place ((h.present _).1 ⟨a, ha⟩).2.ne
  have hpos : 0 < r.subordinateId := solo.positive hr
  obtain ⟨apart, b, hb, hstrategies, hids, befits⟩ := Timetable.submit_spec none (h.equipped r hr) r.tasks
  rw [h.settings] at befits
  rw [← world] at apart hb
  refine ⟨apart.settings.trans h.settings, fun id => ?_, h.equipped, fun r' hr' a ha => ?_, fun p hp id hid => ?_,
    fun id a ha => ?_⟩
  · rw [size, Nat.lt_succ_iff_lt_or_eq]
    by_cases hid : id = r.subordinateId
    · subst hid
      exact iff_of_true ⟨b, hb⟩ ⟨hpos, .inr place⟩
    · rw [apart.others id hid, h.present, ← place, or_iff_left hid]
  · by_cases hid : r'.subordinateId = r.subordinateId
    · obtain rfl := solo.injective hr' hr hid
      cases hb.symm.trans ha
      exact ⟨hids, befits⟩
    · exact h.results r' hr' a (apart.others _ hid ▸ ha)
  · rw [size]
    exact ⟨(h.listed p hp id hid).1, Nat.lt_succ_of_lt (h.listed p hp id hid).2⟩
  · by_cases hid : id = r.subordinateId
    · subst hid
      cases hb.symm.trans ha
      have nobody : (m.plans.filter fun p => r.subordinateId ∈ p.affected) = [] := by
        refine List.filter_eq_nil_iff.2 fun p hp hmem => ?_
        exact absurd place (h.listed p hp _ (of_decide_eq_true hmem)).2.ne
      rw [hstrategies, nobody, List.map_nil]
    · exact h.strategies id a (apart.others _ hid ▸ ha)

/-- a record for somebody who has no place yet -/
theorem hired (h : Provided x m s) {r : ManagedRecord} (hid : r.subordinateId = s.entities.size) (hvms : r.vms ≠ [])
    (world : t.world = s.world) (size : t.entities.size = s.entities.size) : Provided x (m.keep r) t := by
  refine ⟨world ▸ h.settings, by rw [world, size]; exact h.present, ?_, ?_, by rw [size]; exact h.listed,
    by rw [world]; exact h.strategies⟩ <;> rw [m.entries_keep]
  · intro r' hr'
    rcases List.mem_append.1 hr' with hr' | hr'
    · exact h.equipped r' hr'
    · cases List.mem_singleton.1 hr'
      exact hvms
  · intro r' hr' a ha
    rw [world] at ha
    rcases List.mem_append.1 hr' with hr' | hr'
    · exact h.results r' hr' a ha
    · cases List.mem_singleton.1 hr'
      exact absurd hid ((h.present _).1 ⟨a, ha⟩).2.ne

/-- a switch of strategy while everybody has a place -/
theorem switched (h : Provided x m s) (solo : Solo settings m s) (full : s.nextId = s.entities.size) (now : Time)
    (world : t.world = (Manager.redistribute now m s.world).2.1) (size : t.entities.size = s.entities.size) :
    Provided x (Manager.redistribute now m s.world).1 t := by
  have hids : ∀ id, id ∈ m.subordinateIds ↔ 0 < id ∧ id < s.entities.size := full ▸ solo.mem_ids
  have directed := m.redistribute_spec now s.world (solo.ids ▸ List.nodup_range')
  rw [← world] at directed
  -- each account is an account of before, with one more strategy if its owner has a record
  have before : ∀ id b, t.world.account? id = some b →
      ∃ a, s.world.account? id = some a ∧ b = Timetable.directed m.cycle.current.next a := by
    intro id b hb
    rw [directed.accounts] at hb
    obtain ⟨a, ha, rfl⟩ := Option.map_eq_some_iff.1 hb
    exact ⟨a, ha, if_pos ((hids id).2 ((h.present id).1 ⟨a, ha⟩))⟩
  rw [m.redistribute_fst]
  refine ⟨directed.settings.trans h.settings, fun id => ?_, h.equipped, fun r hr b hb => ?_, fun p hp id hid => ?_,
    fun id b hb => ?_⟩
  · rw [size, ← h.present, directed.accounts]
    simp only [Option.map_eq_some_iff, exists_and_left, exists_comm, exists_eq', and_true]
  · obtain ⟨a, ha, rfl⟩ := before _ b hb
    exact h.results r hr a ha
  · rw [size]
    rcases List.mem_append.1 hp with hp | hp
    · exact h.listed p hp id hid
    · cases List.mem_singleton.1 hp
      exact (hids id).1 hid
  · obtain ⟨a, ha, rfl⟩ := before id b hb
    have hid : id ∈ m.subordinateIds := (hids id).2 ((h.present id).1 ⟨a, ha⟩)
    change a.strategies ++ [m.cycle.current.next] =
      ((m.plans ++ [Strategy.plan m.cycle.current m.subordinateIds]).filter fun p => id ∈ p.affected).map _
    have last : ([Strategy.plan m.cycle.current m.subordinateIds].filter fun p => id ∈ p.affected) =
        [Strategy.plan m.cycle.current m.subordinateIds] := List.filter_cons_of_pos (decide_eq_true hid)
    rw [List.filter_append, List.map_append, h.strategies id a ha, last]
    rfl

/-- **Every step keeps the accounts in order.** -/
theorem step (h : Provided x m s) (solo : Solo settings m s) (taken : Solo.Step m s m' t) : Provided x m' t := by
  cases taken with
  | idle size world _ => exact h.same world size rfl rfl
  | @started _ v r sub record place hvms htasks size before world _ =>
    refine h.opened solo record place size ?_
    rw [world, Subordinate.world_start, before, hvms, htasks]
  | @polled _ v e sub _ size before world _ =>
    exact h.same (world.trans ((sub.world_react e.target e v).trans before)) size rfl rfl
  | @led m' _ v e r recruits _ full size before next reacted _ =>
    generalize hworld : t.world = world at reacted
    generalize e.message = message at reacted
    cases reacted with
    | @granted workload c _ =>
      have hvms : (m.nextRecord workload c v.nextId v.now).1.vms ≠ [] :=
        c.vms_ne_nil m.numbering.nextVm m.numbering.nextTask
      exact h.hired (next.trans full) hvms (hworld.trans before) size
    | refused => exact h.same (hworld.trans before) size rfl rfl
    | monitored | unhandled => exact h.same (hworld.trans before) size rfl rfl
    | redistributed =>
      rw [before] at hworld ⊢
      exact h.switched solo full v.now hworld size
    | analyzed =>
      refine h.same (hworld.trans ((Manager.world_analyze v.now m v.world).trans before)) size ?_ rfl
      exact Manager.entries_refreshed (Manager.length_gathered v.world m) rfl
  | ended stays =>
    have world : s.finish.world = s.world := (Simulation.finish_within Agent.shutdown_within s).symm
    rcases stays with rfl | ⟨world', rfl⟩
    · exact h.same world (Simulation.size_finish s) rfl rfl
    · exact h.same world (Simulation.size_finish s) (m.entries_shutdown s.now world') rfl

end Provided

end BrokerSim
