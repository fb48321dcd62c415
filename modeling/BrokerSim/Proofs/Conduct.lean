/-
What managers and subordinates make of what happens to them, in whatever world they live.
- `Manager.play_reacted`: a manager that reacts does one of six things (`Manager.Reacted`): it recruits a subordinate,
  refuses to, looks at the resources, changes the strategy, reports, or does not know what to do.
- `Manager.play_start_keeps`: a manager that starts touches the agenda at most.
- `Subordinate.play_start_keeps`, `Subordinate.play_react_keeps`: a subordinate keeps its name, its bundle and its
  policy. `Subordinate.start_leads`, `Subordinate.react_leads`: it touches the agenda and the log, and what the service
  touches when it is called.
- `Agent.turn_manager`, `Agent.turn_subordinate`: a manager remains a manager with the same settings, which adds to its
  records and plans and takes nothing back (`Manager.Grows`), and a subordinate the same subordinate. Nobody becomes of
  another kind (`Agent.turn_matures`).
-/
import BrokerSim.Proofs.Kernel.Registry
import BrokerSim.Proofs.Timeline

namespace BrokerSim

open Reaction

/-! ## What a reaction does to the simulation -/

namespace Reaction

variable {σ ε μ W α β : Type} {R : Simulation ε μ W → Simulation ε μ W → Prop}

/-- whoever plays the reaction, the simulation after it is related to the one before it -/
def Leads (R : Simulation ε μ W → Simulation ε μ W → Prop) (r : Reaction σ ε μ W α) : Prop :=
  ∀ self x s, R s (r.play self x s).2

/-- a relation that does not mind lines of the log, nor what becomes of the agenda -/
structure Lenient (R : Simulation ε μ W → Simulation ε μ W → Prop) : Prop where
  refl : ∀ s, R s s
  trans : ∀ {s t u}, R s t → R t u → R s u
  note : ∀ r s, R s (s.note (.remark r))
  agenda : ∀ agenda s, R s { s with agenda }

namespace Leads

theorem pure (hR : Lenient R) (a : α) : Leads R (Pure.pure a : Reaction σ ε μ W α) := fun _ _ s => hR.refl s

theorem throw (hR : Lenient R) (e : SimError) : Leads R (MonadExcept.throw e : Reaction σ ε μ W α) :=
  fun _ _ s => hR.refl s

theorem get (hR : Lenient R) : Leads R (MonadState.get : Reaction σ ε μ W σ) := fun _ _ s => hR.refl s

theorem set (hR : Lenient R) (y : σ) : Leads R (MonadStateOf.set y : Reaction σ ε μ W PUnit) := fun _ _ s => hR.refl s

theorem modify (hR : Lenient R) (f : σ → σ) : Leads R (modify f : Reaction σ ε μ W PUnit) :=
  fun _ _ s => hR.refl s

theorem view (hR : Lenient R) : Leads R (Reaction.view : Reaction σ ε μ W (View W)) := fun _ _ s => hR.refl s

theorem remark (hR : Lenient R) (level : Level) (text : String) :
    Leads R (Reaction.remark level text : Reaction σ ε μ W Unit) := fun _ _ s => hR.note ⟨level, text⟩ s

theorem bind (hR : Lenient R) {r : Reaction σ ε μ W α} {f : α → Reaction σ ε μ W β} (hr : Leads R r)
    (hf : ∀ a, Leads R (f a)) : Leads R (r >>= f) := by
  intro self x s
  rw [play_bind]
  have first := hr self x s
  rcases h : r.play self x s with ⟨⟨_ | a, y⟩, t⟩
  · rw [h] at first
    exact first
  · rw [h] at first
    exact hR.trans first (hf a self y t)

theorem scheduleSelf (hR : Lenient R) (delay : Float) (message : μ) :
    Leads R (Reaction.scheduleSelf delay message : Reaction σ ε μ W Handle) := by
  intro self x s
  rw [play_scheduleSelf]
  unfold Simulation.schedule
  split
  · exact hR.agenda _ s
  · exact hR.refl s

theorem cancel (hR : Lenient R) (h : Handle) : Leads R (Reaction.cancel h : Reaction σ ε μ W Bool) :=
  fun _ _ s => hR.agenda _ s

theorem call {y : Exchange W (Except SimError α)} (h : ∀ s, R s (s.exchange y).2) :
    Leads R (Reaction.call y : Reaction σ ε μ W α) := by
  intro self x s
  rw [play_call]
  exact h s

end Leads

end Reaction

/-! ## Managers -/

namespace Manager

variable {ε W : Type} [ExecutionService W]

/-- the figures that a report is made of -/
def gathered (w : W) (m : Manager) : List SubordinateStats := (m.records.mapM statsOf w).1

theorem length_gathered (w : W) (m : Manager) : (m.gathered w).length = m.records.length :=
  Exchange.length_mapM statsOf m.records w

/-- the manager with the next strategy, and the plan that says so -/
theorem redistribute_fst (now : Time) (w : W) (m : Manager) :
    (redistribute now m w).1 = { m with
      cycle := (m.cycle.redistribute m.subordinateIds).2
      plans := m.plans ++ [(m.cycle.redistribute m.subordinateIds).1] } := rfl

/-- what a manager makes of a signal in view of the simulation: how it ends, the manager and the world after it, and
    whom it has recruited -/
inductive Reacted (m : Manager) (v : View W) :
    Signal → Except SimError Unit → Manager → W → List Subordinate → Prop
  | granted {workload : Option String} {c : WorkloadClass} (h : m.grant workload = .ok c) :
      Reacted m v (.createSubordinate workload) (.ok ()) (m.keep (m.nextRecord workload c v.nextId v.now).1) v.world
        [m.recruit workload c v.nextId v.now]
  | refused {workload : Option String} {failure : CreationFailure} (h : m.grant workload = .error failure) :
      Reacted m v (.createSubordinate workload) (.error (.entityCreation failure))
        { m with creationFailures := m.creationFailures ++ [failure] } v.world []
  | monitored : Reacted m v .monitorResources (.ok ()) m v.world []
  | redistributed :
      Reacted m v .redistributeWorkload (.ok ()) (redistribute v.now m v.world).1 (redistribute v.now m v.world).2.1 []
  | analyzed :
      Reacted m v .analyzePerformance (.ok ())
        { m with
          records := List.zipWith refresh m.records (m.gathered v.world)
          reports := m.reports ++ [.ofStats v.now (m.gathered v.world)] }
        (analyze v.now m v.world).2.1 []
  | unhandled {signal : Signal} (h : signal = .collectResults ∨ signal = .resultsDeadline) :
      Reacted m v signal (.error (.unhandledEvent v.self signal.tag)) m v.world []

variable (self : EntityId) (m : Manager) (enlist : Subordinate → ε)

/-- **What a manager does with a signal.** -/
theorem play_reacted (e : Event Signal) (s : Simulation ε Signal W) :
    ∃ r m' world recruits t, (react enlist e).play self m s = ((r, m'), t) ∧
      Reacted m (s.view self) e.message r m' world recruits ∧
      t.core = { s.core with
        world
        nextId := s.nextId + recruits.length
        waiting := s.waiting ++ numbered s.nextId (recruits.map enlist) } := by
  have idle : ∀ {world : W}, ({ s.core with world } : Simulation ε Signal W) = { s.core with
        world
        nextId := s.nextId + ([] : List Subordinate).length
        waiting := s.waiting ++ numbered s.nextId (([] : List Subordinate).map enlist) } := by
    intro world
    simp only [List.length_nil, Nat.add_zero, List.map_nil, numbered, List.append_nil]
    rfl
  unfold react
  simp only [play_bind, play_get, play_view]
  cases he : e.message with
  | createSubordinate workload =>
    cases hg : m.grant workload with
    | ok c =>
      obtain ⟨t, ht, hcore⟩ := play_granted self m enlist hg s
      exact ⟨_, _, s.world, _, t, ht, .granted hg, hcore⟩
    | error failure =>
      exact ⟨_, _, s.world, [], s, play_refused self m enlist hg s, .refused hg, idle⟩
  | monitorResources =>
    have hw : (monitor s.now m s.world).2.1 = s.world := (monitor_within (R := Eq) s.now m s.world).symm
    refine ⟨_, _, s.world, [], _, play_exchange .., .monitored, ?_⟩
    calc (s.exchange (monitor s.now m)).2.core = { s.core with world := (monitor s.now m s.world).2.1 } := rfl
      _ = { s.core with world := s.world } := by rw [hw]
      _ = _ := idle
  | redistributeWorkload =>
    simp only [play_bind, play_exchange, play_set]
    exact ⟨_, _, _, [], _, rfl, .redistributed, idle⟩
  | analyzePerformance =>
    simp only [play_bind, play_exchange, play_set]
    exact ⟨_, _, _, [], _, rfl, .analyzed, idle⟩
  | collectResults => exact ⟨_, _, s.world, [], s, rfl, .unhandled (.inl rfl), idle⟩
  | resultsDeadline => exact ⟨_, _, s.world, [], s, rfl, .unhandled (.inr rfl), idle⟩

/-- a manager that starts touches the agenda at most, and stays as it is whatever comes of it -/
theorem play_start_keeps (s : Simulation ε Signal W) :
    ∃ r t, (start : Reaction Manager ε Signal W Unit).play self m s = ((r, m), t) ∧
      t.core = { s.core with agenda := t.agenda } := by
  have h : ∀ (l : List ScheduledAction) (s : Simulation ε Signal W),
      ∃ r t, (l.forM fun scheduled => do
          let _ ← Reaction.scheduleSelf scheduled.delay scheduled.action.signal : Reaction Manager ε Signal W Unit).play
            self m s = ((r, m), t) ∧ t.core = { s.core with agenda := t.agenda } := by
    intro l
    induction l with
    | nil => exact fun s => ⟨_, s, rfl, rfl⟩
    | cons a l ih =>
      intro s
      simp only [List.forM, play_bind, play_scheduleSelf, play_pure]
      cases ha : Agenda.accepts a.delay with
      | true =>
        obtain ⟨h, agenda, heq⟩ := Simulation.schedule_accepted ha self self a.action.signal s
        rw [heq]
        obtain ⟨r, t, ht, hcore⟩ := ih { s with agenda }
        exact ⟨r, t, ht, hcore⟩
      | false =>
        obtain ⟨reason, heq⟩ := Simulation.schedule_refused ha self self a.action.signal s
        rw [heq]
        exact ⟨_, s, rfl, rfl⟩
  unfold start
  simp only [play_bind, play_get, play_view, play_remark]
  exact h _ _

/-- a manager's last words are one more report -/
theorem shutdown_fst (now : Time) (w : W) :
    ∃ stats, stats.length = m.records.length ∧ (m.shutdown now w).1 =
      { m with records := List.zipWith refresh m.records stats, finalReport? := some (.ofStats now stats) } :=
  ⟨_, length_gathered w m, rfl⟩

end Manager

/-! ## Subordinates -/

namespace Subordinate

/-- the same subordinate: with the same name, bundle and policy -/
structure Remains (sub sub' : Subordinate) : Prop where
  name : sub'.name = sub.name
  bundle : sub'.bundle = sub.bundle
  policy : sub'.policy = sub.policy

theorem Remains.refl (sub : Subordinate) : sub.Remains sub := ⟨rfl, rfl, rfl⟩

theorem Remains.trans {a b c : Subordinate} (h : a.Remains b) (k : b.Remains c) : a.Remains c :=
  ⟨k.name.trans h.name, k.bundle.trans h.bundle, k.policy.trans h.policy⟩

variable {ε W : Type} [ExecutionService W] (self : EntityId) (sub : Subordinate) (s : Simulation ε Signal W)

/-- whatever the service answers to it -/
theorem play_start_keeps : sub.Remains ((start : Reaction Subordinate ε Signal W Unit).play self sub s).1.2 := by
  unfold start
  simp only [play_bind, play_get, play_view, play_call, play_remark, play_scheduleSelf, play_modify]
  -- four calls may fail, and each failure leaves the subordinate as it was
  generalize s.exchange _ = submitted
  obtain ⟨_ | _, t⟩ := submitted
  · exact .refl sub
  dsimp only
  generalize t.exchange _ = submitted
  obtain ⟨_ | _, t⟩ := submitted
  · exact .refl sub
  dsimp only
  generalize Simulation.schedule sub.policy.interval _ _ _ _ = planned
  obtain ⟨_ | _, t⟩ := planned
  · exact .refl sub
  dsimp only
  generalize Simulation.schedule sub.policy.timeout _ _ _ _ = planned
  obtain ⟨_ | _, t⟩ := planned
  · exact .refl sub
  · exact ⟨rfl, rfl, rfl⟩

theorem play_collect_keeps : sub.Remains ((collect : Reaction Subordinate ε Signal W Unit).play self sub s).1.2 := by
  cases h : sub.collected || sub.timedOut with
  | true =>
    rw [play_collect_settled self sub s h]
    exact .refl sub
  | false =>
    cases hx : (s.exchange (ExecutionService.completedTasks self : Call W (List TaskResult))).1 with
    | error err =>
      rw [play_collect_refused self sub s h hx]
      exact .refl sub
    | ok results =>
      by_cases hl : sub.bundle.tasks.length ≤ results.length
      · obtain ⟨t, ht, -⟩ := play_collect_complete self sub s h hx hl
        rw [ht]
        exact ⟨rfl, rfl, rfl⟩
      · rw [play_collect_incomplete self sub s h hx (not_le.1 hl)]
        exact ⟨rfl, rfl, rfl⟩

omit [ExecutionService W] in
theorem play_giveUp_keeps : sub.Remains ((giveUp : Reaction Subordinate ε Signal W Unit).play self sub s).1.2 := by
  cases h : sub.collected with
  | true =>
    rw [play_giveUp_collected self sub s h]
    exact ⟨rfl, rfl, rfl⟩
  | false =>
    obtain ⟨t, ht, -⟩ := play_giveUp self sub s h
    rw [ht]
    exact ⟨rfl, rfl, rfl⟩

theorem play_react_keeps (e : Event Signal) :
    sub.Remains ((react e : Reaction Subordinate ε Signal W Unit).play self sub s).1.2 := by
  unfold react
  cases e.message with
  | collectResults => exact play_collect_keeps self sub s
  | resultsDeadline => exact play_giveUp_keeps self sub s
  | _ => exact .refl sub

section

variable {R : Simulation ε Signal W → Simulation ε Signal W → Prop} (hR : Lenient R)
include hR

omit [ExecutionService W] in
theorem conclude_leads : Leads R (conclude : Reaction Subordinate ε Signal W Unit) := by
  refine .bind hR (.get hR) fun sub => .bind hR (.set hR _) fun _ => ?_
  cases sub.deadline? with
  | none => exact .bind hR (.view hR) fun _ => .remark hR _ _
  | some deadline => exact .bind hR (.cancel hR deadline) fun _ => .bind hR (.view hR) fun _ => .remark hR _ _

/-- a start leads as far as the service does that takes the bundle -/
theorem start_leads (hvms : ∀ id vms s, R s (s.exchange (ExecutionService.submitVms id vms : Call W Unit)).2)
    (htasks : ∀ id tasks s, R s (s.exchange (ExecutionService.submitTasks id tasks : Call W Unit)).2) :
    Leads R (start : Reaction Subordinate ε Signal W Unit) := by
  refine .bind hR (.get hR) fun sub => .bind hR (.view hR) fun v => ?_
  refine .bind hR (.call (hvms v.self sub.bundle.vms)) fun _ => ?_
  refine .bind hR (.call (htasks v.self sub.bundle.tasks)) fun _ => ?_
  refine .bind hR (.remark hR _ _) fun _ => .bind hR (.scheduleSelf hR _ _) fun _ => ?_
  exact .bind hR (.scheduleSelf hR _ _) fun _ => .modify hR _

/-- and so does a reaction, if the service is asked -/
theorem react_leads (hx : ∀ id s, R s (s.exchange (ExecutionService.completedTasks id : Call W (List TaskResult))).2)
    (e : Event Signal) : Leads R (react e : Reaction Subordinate ε Signal W Unit) := by
  have collects : Leads R (collect : Reaction Subordinate ε Signal W Unit) := by
    refine .bind hR (.get hR) fun sub => ?_
    split_ifs
    · exact .pure hR _
    · refine .bind hR (.view hR) fun v => .bind hR (.call (hx v.self)) fun results => .bind hR (.set hR _) fun _ => ?_
      split_ifs
      · exact conclude_leads hR
      · exact .bind hR (.scheduleSelf hR _ _) fun _ => .pure hR _
  have givesUp : Leads R (giveUp : Reaction Subordinate ε Signal W Unit) := by
    refine .bind hR (.get hR) fun sub => ?_
    split_ifs
    · exact .set hR _
    · exact .bind hR (.set hR _) fun _ => .bind hR (.view hR) fun _ => .remark hR _ _
  unfold react
  cases e.message with
  | collectResults => exact collects
  | resultsDeadline => exact givesUp
  | _ => exact .bind hR (.view hR) fun _ => .throw hR _

end

end Subordinate

/-! ## From turn to turn -/

namespace Manager

/-- a manager and the same manager later: it adds to its records and its plans and takes nothing back; of a record, only
    the figure that is measured may change -/
structure Grows (m n : Manager) : Prop where
  settings : n.settings = m.settings
  records : m.records.map ManagedRecord.unmeasured <+: n.records.map ManagedRecord.unmeasured
  plans : m.plans <+: n.plans

theorem Grows.refl (m : Manager) : m.Grows m := ⟨rfl, List.prefix_rfl, List.prefix_rfl⟩

theorem Grows.trans {l m n : Manager} (h : l.Grows m) (k : m.Grows n) : l.Grows n :=
  ⟨k.settings.trans h.settings, h.records.trans k.records, h.plans.trans k.plans⟩

variable {W : Type} [ExecutionService W]

theorem Reacted.grows {m m' : Manager} {v : View W} {signal : Signal} {r : Except SimError Unit} {world : W}
    {recruits : List Subordinate} (h : m.Reacted v signal r m' world recruits) : m.Grows m' := by
  cases h with
  | granted h =>
    refine ⟨rfl, ?_, List.prefix_rfl⟩
    change _ <+: (m.records ++ [_]).map _
    rw [List.map_append]
    exact List.prefix_append _ _
  | refused h => exact ⟨rfl, List.prefix_rfl, List.prefix_rfl⟩
  | redistributed => exact ⟨rfl, List.prefix_rfl, List.prefix_append _ _⟩
  | analyzed =>
    exact ⟨rfl, (unmeasured_refresh _ _ (length_gathered v.world m)).symm ▸ List.prefix_rfl, List.prefix_rfl⟩
  | monitored | unhandled => exact .refl m

end Manager

namespace Agent

variable {ω W : Type} [ExecutionService W] [Guest ω W] {id : EntityId}

/-- a manager remains a manager -/
theorem turn_manager {m : Manager} {y : Agent ω} (h : Turn Signal W id (.manager m) y) :
    ∃ n, y = .manager n ∧ m.Grows n := by
  cases h with
  | start x s =>
    obtain ⟨r, t, ht, -⟩ := Manager.play_start_keeps id m s
    have hplay := play_start_manager id s m
    rw [ht] at hplay
    exact ⟨m, congrArg (·.1.2) hplay, .refl m⟩
  | react e x s h =>
    obtain ⟨r, m', world, recruits, t, ht, hreacted, -⟩ := Manager.play_reacted id m subordinate e s
    have hplay := play_react_manager id s e m
    rw [ht] at hplay
    exact ⟨m', congrArg (·.1.2) hplay, hreacted.grows⟩
  | shutdown now x world =>
    obtain ⟨stats, hl, heq⟩ := m.shutdown_fst now world
    refine ⟨_, rfl, ?_⟩
    rw [heq]
    exact ⟨rfl, (Manager.unmeasured_refresh _ _ hl).symm ▸ List.prefix_rfl, List.prefix_rfl⟩

/-- a subordinate remains the same subordinate -/
theorem turn_subordinate {sub : Subordinate} {y : Agent ω} (h : Turn Signal W id (.subordinate sub) y) :
    ∃ sub', y = .subordinate sub' ∧ sub.Remains sub' := by
  cases h with
  | start x s =>
    exact ⟨_, congrArg (·.1.2) (play_start_subordinate id s sub), Subordinate.play_start_keeps id sub s⟩
  | react e x s h =>
    exact ⟨_, congrArg (·.1.2) (play_react_subordinate id s e sub), Subordinate.play_react_keeps id sub s e⟩
  | shutdown now x world => exact ⟨sub, rfl, .refl sub⟩

/-- a guest remains a guest -/
theorem turn_guest {g : ω} {y : Agent ω} (h : Turn Signal W id (.guest g) y) : ∃ g', y = .guest g' := by
  have part : ∀ {r : Reaction ω (Agent ω) Signal W Unit} {f : Agent ω → Reaction (Agent ω) (Agent ω) Signal W Unit}
      (s : Simulation (Agent ω) Signal W), f (.guest g) = Reaction.within guest g r → ∃ g',
        ((MonadState.get >>= f : Reaction (Agent ω) (Agent ω) Signal W Unit).play id (.guest g) s).1.2 = .guest g' :=
    fun s hf => ⟨_, congrArg (·.1.2) (play_part id s guest g hf)⟩
  cases h with
  | start x s => exact part s rfl
  | react e x s ht => exact part s rfl
  | shutdown now x world => exact ⟨_, rfl⟩

/-- an agent and the same agent later: of the same kind -/
inductive Matures : Agent ω → Agent ω → Prop
  | manager {m n : Manager} (h : m.Grows n) : Matures (.manager m) (.manager n)
  | subordinate {sub sub' : Subordinate} (h : sub.Remains sub') : Matures (.subordinate sub) (.subordinate sub')
  | guest (g g' : ω) : Matures (.guest g) (.guest g')

/-- nobody becomes of another kind -/
theorem turn_matures {x y : Agent ω} (h : Turn Signal W id x y) : x.Matures y := by
  cases x with
  | manager m =>
    obtain ⟨n, rfl, grows⟩ := turn_manager h
    exact .manager grows
  | subordinate sub =>
    obtain ⟨sub', rfl, remains⟩ := turn_subordinate h
    exact .subordinate remains
  | guest g =>
    obtain ⟨g', rfl⟩ := turn_guest h
    exact .guest g g'

theorem Matures.of_manager {x : Agent ω} {n : Manager} (h : x.Matures (.manager n)) : ∃ m, x = .manager m := by
  cases h with
  | manager => exact ⟨_, rfl⟩

theorem Matures.of_subordinate {x : Agent ω} {sub' : Subordinate} (h : x.Matures (.subordinate sub')) :
    ∃ sub, x = .subordinate sub := by
  cases h with
  | subordinate => exact ⟨_, rfl⟩

theorem descends_manager {m : Manager} {y : Agent ω} (h : Descends Signal W id (.manager m) y) :
    ∃ n, y = .manager n ∧ m.Grows n := by
  induction h with
  | refl => exact ⟨m, rfl, .refl m⟩
  | tail _ last ih =>
    obtain ⟨n, rfl, hn⟩ := ih
    obtain ⟨o, rfl, ho⟩ := turn_manager last
    exact ⟨o, rfl, hn.trans ho⟩

theorem descends_subordinate {sub : Subordinate} {y : Agent ω} (h : Descends Signal W id (.subordinate sub) y) :
    ∃ sub', y = .subordinate sub' ∧ sub.Remains sub' := by
  induction h with
  | refl => exact ⟨sub, rfl, .refl sub⟩
  | tail _ last ih =>
    obtain ⟨n, rfl, hn⟩ := ih
    obtain ⟨o, rfl, ho⟩ := turn_subordinate last
    exact ⟨o, rfl, hn.trans ho⟩

end Agent

end BrokerSim
