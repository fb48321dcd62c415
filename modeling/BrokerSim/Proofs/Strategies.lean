/-
Switches of strategy. A manager and its subordinates are followed through the ids and the reactions of a run as they
came (`Simulation.happenings`).
- `Manager.Follows`: the plans of the manager are those that the signals to redistribute ask for, one for each, and each
  affects the subordinates that were hired before its signal.
- `Follows.onward`, `Follows.switch`: what one happening makes of that. `Follows.step`: so every step keeps it.
- `Managed.switches_reach`: it holds at all times, whatever the service answers; and a timetable has put down exactly
  those strategies for a subordinate whose plans list it.
-/
import BrokerSim.Proofs.Provided

namespace BrokerSim

/-! ## What a manager has been told -/

/-- the id under which a subordinate was hired -/
def Happening.hired? : Happening (Agent Empty) Signal → Option EntityId
  | .handed id (.subordinate _) => some id
  | _ => none

/-- was the manager told to redistribute? -/
def Happening.switches : Happening (Agent Empty) Signal → Bool
  | .reacted e => e.target = 0 && e.message = .redistributeWorkload
  | _ => false

/-- ids of the subordinates that were hired, first one first -/
def hired (story : List (Happening (Agent Empty) Signal)) : List EntityId := story.filterMap Happening.hired?

/-- how often the manager was told to redistribute -/
def switches (story : List (Happening (Agent Empty) Signal)) : Nat := story.countP Happening.switches

theorem hired_append (story more : List (Happening (Agent Empty) Signal)) :
    hired (story ++ more) = hired story ++ hired more := List.filterMap_append

theorem hired_singleton (x : Happening (Agent Empty) Signal) : hired [x] = x.hired?.toList := by
  unfold hired
  cases h : x.hired? with
  | none => exact List.filterMap_cons_none h
  | some id => exact List.filterMap_cons_some h

theorem switches_append (story more : List (Happening (Agent Empty) Signal)) :
    switches (story ++ more) = switches story + switches more := List.countP_append

theorem switches_singleton (x : Happening (Agent Empty) Signal) : switches [x] = x.switches.toNat := by
  unfold switches
  cases h : x.switches with
  | false => exact List.countP_singleton.trans (if_neg (Bool.eq_false_iff.1 h))
  | true => exact List.countP_singleton.trans (if_pos h)

/-- one more at the end: either that is where the list is divided, or the list was divided before -/
theorem split_last {α : Type} {l before after : List α} {x y : α} (h : l ++ [x] = before ++ y :: after) :
    (before = l ∧ y = x ∧ after = []) ∨ ∃ rest, l = before ++ y :: rest ∧ after = rest ++ [x] := by
  rcases List.eq_nil_or_concat after with rfl | ⟨rest, z, rfl⟩
  · obtain ⟨hl, hx⟩ := List.append_inj' h rfl
    cases hx
    exact .inl ⟨hl.symm, rfl, rfl⟩
  · have h : l ++ [x] = (before ++ y :: rest) ++ [z] := by
      rw [h, List.append_assoc, List.cons_append, List.concat_eq_append]
    obtain ⟨hl, hx⟩ := List.append_inj' h rfl
    cases hx
    exact .inr ⟨rest, hl, List.concat_eq_append⟩

/-- the manager follows the story that began when its strategy was the initial one -/
structure Manager.Follows (m : Manager) (initial : Strategy) (story : List (Happening (Agent Empty) Signal)) :
    Prop where
  hired : m.subordinateIds = hired story
  /-- one step for each signal -/
  current : m.cycle.current = Strategy.next^[switches story] initial
  count : m.plans.length = switches story
  /-- each signal has its plan, for those who were there -/
  planned : ∀ before h after, story = before ++ h :: after → h.switches = true →
    m.plans[switches before]? = some (Strategy.plan (Strategy.next^[switches before] initial) (BrokerSim.hired before))
  /-- each plan begins where the last one ended, and the last one ends with the current strategy -/
  chain : m.plans.map Strategy.Plan.previous ++ [m.cycle.current] = initial :: m.plans.map Strategy.Plan.strategy
  steps : ∀ p ∈ m.plans, p.strategy = p.previous.next
  affected : ∀ p ∈ m.plans, p.affected <+: m.subordinateIds

namespace Manager.Follows

variable {m m' : Manager} {initial : Strategy} {story : List (Happening (Agent Empty) Signal)}
  {x : Happening (Agent Empty) Signal}

theorem nil (settings : ManagerSettings) : (ofSettings settings).Follows settings.initialStrategy [] where
  hired := rfl
  current := rfl
  count := rfl
  planned _ _ _ heq := absurd heq.symm (List.append_ne_nil_of_right_ne_nil _ (List.cons_ne_nil _ _))
  chain := rfl
  steps _ h := nomatch h
  affected _ h := nomatch h

/-- a manager that stands as it stood -/
theorem same (h : m.Follows initial story) (ids : m'.subordinateIds = m.subordinateIds)
    (current : m'.cycle.current = m.cycle.current) (plans : m'.plans = m.plans) : m'.Follows initial story where
  hired := ids.trans h.hired
  current := current.trans h.current
  count := plans ▸ h.count
  planned := plans ▸ h.planned
  chain := by rw [plans, current]; exact h.chain
  steps := plans ▸ h.steps
  affected := by rw [plans, ids]; exact h.affected

/-- something happens other than a switch: somebody may be hired -/
theorem onward (h : m.Follows initial story) (hx : x.switches = false)
    (ids : m'.subordinateIds = m.subordinateIds ++ x.hired?.toList) (current : m'.cycle.current = m.cycle.current)
    (plans : m'.plans = m.plans) : m'.Follows initial (story ++ [x]) := by
  have same : switches (story ++ [x]) = switches story := by
    rw [switches_append, switches_singleton, hx]
    rfl
  refine ⟨?_, ?_, ?_, ?_, by rw [plans, current]; exact h.chain, plans ▸ h.steps, ?_⟩
  · rw [ids, h.hired, hired_append, hired_singleton]
  · rw [current, h.current, same]
  · rw [plans, h.count, same]
  · intro before y after heq hy
    obtain ⟨rfl, rfl, -⟩ | ⟨rest, rfl, -⟩ := split_last heq
    · exact absurd hy (Bool.eq_false_iff.1 hx)
    · rw [plans]
      exact h.planned before y rest rfl hy
  · intro p hp
    rw [ids]
    exact (h.affected p (plans ▸ hp)).trans (List.prefix_append _ _)

/-- the manager is told to redistribute -/
theorem switch (h : m.Follows initial story) (hx : x.switches = true) (nobody : x.hired? = none)
    (ids : m'.subordinateIds = m.subordinateIds) (current : m'.cycle.current = m.cycle.current.next)
    (plans : m'.plans = m.plans ++ [Strategy.plan m.cycle.current m.subordinateIds]) :
    m'.Follows initial (story ++ [x]) := by
  have more : switches (story ++ [x]) = switches story + 1 := by
    rw [switches_append, switches_singleton, hx]
    rfl
  refine ⟨?_, ?_, ?_, ?_, ?_, ?_, ?_⟩
  · rw [ids, h.hired, hired_append, hired_singleton, nobody]
    exact (List.append_nil _).symm
  · rw [current, h.current, more, Function.iterate_succ_apply']
  · rw [plans, List.length_append, h.count, more]
    rfl
  · intro before y after heq hy
    rw [plans]
    obtain ⟨rfl, rfl, -⟩ | ⟨rest, rfl, -⟩ := split_last heq
    · rw [← h.count, List.getElem?_concat_length, h.count, h.current, h.hired]
    · have old := h.planned before y rest rfl hy
      rw [List.getElem?_append_left (List.getElem?_eq_some_iff.1 old).1]
      exact old
  · rw [plans, List.map_append, List.map_append, current, ← List.cons_append, ← h.chain]
    rfl
  · intro p hp
    rcases List.mem_append.1 (plans ▸ hp) with hp | hp
    · exact h.steps p hp
    · cases List.mem_singleton.1 hp
      rfl
  · intro p hp
    rw [ids]
    rcases List.mem_append.1 (plans ▸ hp) with hp | hp
    · exact h.affected p hp
    · cases List.mem_singleton.1 hp
      exact List.prefix_rfl

/-- something happens that is no switch, and nobody is hired -/
theorem plain (h : m.Follows initial story) (hx : x.switches = false) (nobody : x.hired? = none)
    (ids : m'.subordinateIds = m.subordinateIds) (current : m'.cycle.current = m.cycle.current)
    (plans : m'.plans = m.plans) : m'.Follows initial (story ++ [x]) := by
  refine h.onward hx ?_ current plans
  rw [ids, nobody]
  exact (List.append_nil _).symm

/-- **Every step follows the story on.** -/
theorem step {W : Type} [ExecutionService W] {s t : Office W} (h : m.Follows initial s.happenings)
    (taken : Solo.Step m s m' t) : m'.Follows initial t.happenings := by
  cases taken with
  | idle _ _ story => exact story ▸ h
  | started _ _ _ _ _ _ _ story => exact story ▸ h
  | @polled _ _ e _ target _ _ _ story =>
    rw [story]
    refine h.plain ?_ rfl rfl rfl rfl
    rw [Happening.switches, decide_eq_false target.ne', Bool.false_and]
  | @led _ _ v e r recruits target _ _ _ next reacted story =>
    have told : (Happening.reacted e : Happening (Agent Empty) Signal).switches =
        decide (e.message = .redistributeWorkload) := by
      rw [Happening.switches, decide_eq_true target, Bool.true_and]
    rw [story]
    generalize t.world = world at reacted
    generalize e.message = message at reacted told
    cases reacted with
    | @granted workload c _ =>
      have first : m.Follows initial (s.happenings ++ [.reacted e]) := h.plain told rfl rfl rfl rfl
      let r := (m.nextRecord workload c v.nextId v.now).1
      let sub := m.recruit workload c v.nextId v.now
      have ids : (m.keep r).subordinateIds = m.subordinateIds ++ [s.nextId] := by
        rw [← next]
        exact List.map_append
      have second :
          (m.keep r).Follows initial (s.happenings ++ [.reacted e] ++ [.handed s.nextId (.subordinate sub)]) :=
        first.onward rfl ids rfl rfl
      rwa [List.append_assoc] at second
    | refused => exact h.plain told rfl rfl rfl rfl
    | monitored => exact h.plain told rfl rfl rfl rfl
    | redistributed => exact h.switch told rfl rfl rfl rfl
    | analyzed =>
      exact h.plain told rfl (entries_eq (entries_refreshed (length_gathered v.world m) rfl)).1 rfl rfl
    | unhandled other =>
      refine h.plain (told.trans ?_) rfl rfl rfl rfl
      rcases other with rfl | rfl <;> rfl
  | ended stays =>
    rw [Simulation.happenings_finish]
    rcases stays with rfl | ⟨world, rfl⟩
    · exact h
    · exact h.same (entries_eq (m.entries_shutdown s.now world)).1 rfl rfl

end Manager.Follows

/-! ## Whole runs -/

open Simulation

/-- a manager is registered with a vacant simulation, nobody else is, and this is seen later -/
structure Managed {W : Type} [ExecutionService W] (drift : W → W → Prop) (settings : ManagerSettings)
    (s t : Office W) : Prop where
  vacant : s.Vacant
  led : ∃ fuel r u, s.register fuel (.manager (.ofSettings settings)) = some (r, u) ∧ Sequel Sealed drift u t

namespace Managed

variable {W : Type} [ExecutionService W] {drift : W → W → Prop} {settings : ManagerSettings}

theorem follows {s t : Office W} (h : Managed drift settings s t) :
    ∃ m, Solo settings m t ∧ m.Follows settings.initialStrategy t.happenings := by
  obtain ⟨fuel, r, u, begun, later⟩ := h.led
  obtain ⟨solo, settled, -, -, story⟩ := Solo.registered h.vacant begun
  have first : (Manager.ofSettings settings).Follows settings.initialStrategy u.happenings :=
    story ▸ (Manager.Follows.nil settings).plain rfl rfl rfl rfl rfl
  exact solo.later (Q := fun m s => m.Follows settings.initialStrategy s.happenings) settled
    (fun _ _ _ _ _ _ taken follows => follows.step taken) (fun _ _ _ _ follows => follows) first later

theorem provided {s t : Scenario.Run} (h : Managed (fun _ _ => False) settings s t)
    (empty : ∀ id, s.world.account? id = none) :
    ∃ m, Solo settings m t ∧ Provided s.world.settings m t := by
  obtain ⟨fuel, r, u, begun, later⟩ := h.led
  obtain ⟨solo, settled, world, size, -⟩ := Solo.registered h.vacant begun
  have first : Provided s.world.settings (.ofSettings settings) u :=
    .start (congrArg Timetable.settings world) (world ▸ empty) size
  exact solo.later settled (fun _ _ _ _ solo _ taken provided => provided.step solo taken)
    (fun _ _ _ turned => turned.elim) first later

/-- a run that is answered -/
theorem after {fuel rest : Nat} {s : Office W} (h : s.Vacant)
    (begun : (s.call fuel (.register (.manager (.ofSettings settings)))).isSome = true)
    (ran : ((s.after fuel (.register (.manager (.ofSettings settings)))).call rest .run).isSome = true) :
    Managed drift settings s ((s.after fuel (.register (.manager (.ofSettings settings)))).after rest .run) := by
  obtain ⟨a, begun⟩ := call_after _ _ _ begun
  obtain ⟨a', ran⟩ := call_after _ _ _ ran
  cases answered begun with
  | register h' =>
    have nobody : Sealed (.run : Simulation.Call (Agent Empty) Signal) a' := fun _ => nofun
    exact ⟨h, _, _, _, h', .single (.call nobody ran)⟩

/-- **Switches of strategy reach exactly the right subordinates.** At all times, whatever the service answers, the
    manager has followed the signals to redistribute (`Manager.Follows`); and on a timetable, which was empty at first,
    the strategies put down for a subordinate are those of the plans that list it. -/
theorem switches_reach (settings : ManagerSettings) :
    (∀ {W : Type} [ExecutionService W] {drift : W → W → Prop} {s t : Office W}, Managed drift settings s t →
      ∃ slot m, t.entities[0]? = some slot ∧ slot.entity = .manager m ∧
        m.Follows settings.initialStrategy t.happenings) ∧
    ∀ {s t : Scenario.Run}, Managed (fun _ _ => False) settings s t → (∀ id, s.world.account? id = none) →
      ∃ slot m, t.entities[0]? = some slot ∧ slot.entity = .manager m ∧
        m.Follows settings.initialStrategy t.happenings ∧
        ∀ id, t.world.strategiesApplied id = (m.plans.filter fun p => id ∈ p.affected).map Strategy.Plan.strategy := by
  constructor
  · intro W _ drift s t managed
    obtain ⟨m, solo, follows⟩ := managed.follows
    obtain ⟨slot, hslot, hm⟩ := solo.manager
    exact ⟨slot, m, hslot, hm, follows⟩
  · intro s t managed empty
    obtain ⟨m, solo, follows⟩ := managed.follows
    obtain ⟨slot, hslot, hm⟩ := solo.manager
    obtain ⟨n, solo', provided⟩ := managed.provided empty
    cases solo.unique solo'
    exact ⟨slot, m, hslot, hm, follows, provided.applied⟩

open Standin

/-- a manager that switches its strategy while subordinates come and a request is refused -/
def restlessSettings : ManagerSettings where
  schedule := [⟨0, .createSubordinate (some "light")⟩, ⟨1, .redistributeWorkload⟩, ⟨1, .createSubordinate none⟩,
    ⟨1, .createSubordinate (some "late")⟩, ⟨1, .redistributeWorkload⟩, ⟨2, .redistributeWorkload⟩]

/-- a timetable, and nobody to use it -/
def desk : Scenario.Run := fresh {} { settings := {}, stream := .ofSeed 42 }

/-- a service that applies no strategy to the first subordinate -/
def stubbornDesk : Office Collaborator :=
  fresh {} ⟨.wrapped { apply := [1] } 0, { settings := {}, stream := .ofSeed 42 }⟩

/-- the restless manager at work -/
def restless {W : Type} [ExecutionService W] (s : Office W) : Office W :=
  (s.after 1 (.register (.manager (.ofSettings restlessSettings)))).after 20 .run

theorem switches_reach_of_restless :
    Managed (fun _ _ => False) restlessSettings stubbornDesk (restless stubbornDesk) ∧
      Managed (fun _ _ => False) restlessSettings desk (restless desk) ∧ (∀ id, desk.world.account? id = none) ∧
      (restless desk).world.strategiesApplied 2 = [.performanceOptimized, .roundRobin] ∧
      (∃ slot m, (restless stubbornDesk).entities[0]? = some slot ∧ slot.entity = .manager m ∧
        m.Follows .roundRobin (restless stubbornDesk).happenings) ∧
      ∃ slot m, (restless desk).entities[0]? = some slot ∧ slot.entity = .manager m ∧
        m.Follows .roundRobin (restless desk).happenings ∧
        ∀ id, (restless desk).world.strategiesApplied id =
          (m.plans.filter fun p => id ∈ p.affected).map Strategy.Plan.strategy := by
  have stubborn : Managed (fun _ _ => False) restlessSettings stubbornDesk (restless stubbornDesk) :=
    .after (.fresh _ _) (by decide +kernel) (by decide +kernel)
  have managed : Managed (fun _ _ => False) restlessSettings desk (restless desk) :=
    .after (.fresh _ _) (by decide +kernel) (by decide +kernel)
  have empty : ∀ id, desk.world.account? id = none := fun id => Std.ExtTreeMap.getElem?_empty
  exact ⟨stubborn, managed, empty, by decide +kernel, (switches_reach restlessSettings).1 stubborn,
    (switches_reach restlessSettings).2 managed empty⟩

end Managed

end BrokerSim
