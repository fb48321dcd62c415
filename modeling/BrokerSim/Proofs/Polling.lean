/-
Subordinates that wait, among entities of any kind, with any service.
- `Simulation.Course.polls_until_refused`: a subordinate that runs, and whose matter is not settled, has its own
  deadline to come, and a request to come as well unless its last request was refused.
- `Simulation.refused_request_is_last`: a request that is refused is not planned again, so that a subordinate may be
  left with its deadline alone.

Nobody else can strike off what a subordinate planned, as nobody knows the handles (`Custody.agents`). `Tended` says
what is to come for one subordinate, `Attended` for all of them; each call of an entity's code keeps it, hence each leg
of a call (`Watched.leg`), and so does any discreet call of the simulation (`Watched.call`).
-/
import BrokerSim.Proofs.Broker
import BrokerSim.Proofs.Kernel.Discretion
import BrokerSim.Standin.Collaborator
import BrokerSim.Standin.Saboteur

namespace BrokerSim

variable {ω W σ : Type}

/-! ## Who is discreet -/

/-- managers and subordinates share no handles with anybody -/
def Custody.agents (c : Custody ω W) : Custody (Agent ω) W where
  entity
    | .guest g => c.entity g
    | _ => ∅
  world := c.world

/-- guests are discreet, and may know the handle of the event that they react to; the service leaves no more handles in
    the world than there were -/
structure Custody.Strict (c : Custody ω W) [ExecutionService W] [Guest ω W] : Prop where
  start : (Guest.start : Reaction ω (Agent ω) Signal W Unit).Discreet c.agents c.entity ∅
  react : ∀ e, (Guest.react e : Reaction ω (Agent ω) Signal W Unit).Discreet c.agents c.entity {e.handle}
  submitVms : ∀ id vms, Exchange.Within c.agents.Quiet (ExecutionService.submitVms id vms : Call W Unit)
  submitTasks : ∀ id tasks, Exchange.Within c.agents.Quiet (ExecutionService.submitTasks id tasks : Call W Unit)
  completedTasks : ∀ id, Exchange.Within c.agents.Quiet (ExecutionService.completedTasks id : Call W (List TaskResult))
  applyStrategy : ∀ id strategy,
    Exchange.Within c.agents.Quiet (ExecutionService.applyStrategy id strategy : Call W Unit)

namespace Manager

open Reaction

variable {ε : Type} {c : Custody ε W} {told : Set Handle} [ExecutionService W]

theorem start_discreet : (start : Reaction Manager ε Signal W Unit).Discreet c (fun _ => ∅) told :=
  .bind .get fun _ => .bind .view fun _ => .bind (.remark _ _) fun _ =>
    .forM (fun _ => .bind (.scheduleSelf _ _) fun _ => .pure _) _

variable {enlist : Subordinate → ε} (he : ∀ sub, c.entity (enlist sub) = ∅)
include he

omit [ExecutionService W] in
theorem create_discreet (workload : Option String) (kind : WorkloadClass) :
    (create enlist workload kind : Reaction Manager ε Signal W Unit).Discreet c (fun _ => ∅) told := by
  refine .bind .get fun m => .bind .view fun v => ?_
  split_ifs
  · exact .bind (.remark _ _) fun _ => .bind (.spawn (he _)) fun _ => .bind (.remark _ _) fun _ => .set (fun _ => rfl) _
  · exact .bind (.spawn (he _)) fun _ => .bind (.remark _ _) fun _ => .set (fun _ => rfl) _

omit [ExecutionService W] in
theorem request_discreet (workload : Option String) :
    (request enlist workload : Reaction Manager ε Signal W Unit).Discreet c (fun _ => ∅) told := by
  refine .bind .get fun m => ?_
  cases m.grant workload with
  | error failure => exact .bind (.set (fun _ => rfl) _) fun _ => .throw _
  | ok kind => exact create_discreet he workload kind

theorem react_discreet
    (hx : ∀ id, Exchange.Within c.Quiet (ExecutionService.completedTasks id : Call W (List TaskResult)))
    (ha : ∀ id strategy, Exchange.Within c.Quiet (ExecutionService.applyStrategy id strategy : Call W Unit))
    (e : Event Signal) : (react enlist e : Reaction Manager ε Signal W Unit).Discreet c (fun _ => ∅) told := by
  refine .bind .get fun m => .bind .view fun v => ?_
  cases e.message with
  | createSubordinate workload => exact request_discreet he workload
  | monitorResources => exact .exchange (monitor_within v.now m)
  | redistributeWorkload => exact .bind (.exchange (redistribute_within ha v.now m)) fun _ => .set (fun _ => rfl) _
  | analyzePerformance => exact .bind (.exchange (analyze_within hx v.now m)) fun _ => .set (fun _ => rfl) _
  | collectResults => exact .throw _
  | resultsDeadline => exact .throw _

end Manager

namespace Agent

open Reaction

variable {c : Custody ω W} {told known : Set Handle}

/-- an agent that is no subordinate is as discreet as its part, and does not become one -/
theorem part_discreet (whole : σ → Agent ω) {keeps : σ → Set Handle} {r : Reaction σ (Agent ω) Signal W Unit}
    (hr : r.Discreet c.agents keeps told) (hw : ∀ y, c.agents.entity (whole y) = keeps y)
    (hn : ∀ y, (whole y).subordinate? = none) {y : σ} (hk : keeps y ⊆ known) (ht : told ⊆ known)
    {f : Agent ω → Reaction (Agent ω) (Agent ω) Signal W Unit} (hf : f (whole y) = within whole y r) :
    ((get >>= f).run.run (whole y)).Discreet c.agents
      (fun known z => c.agents.entity z.2 ⊆ known ∧ z.2.subordinate? = none) known := by
  change ((f (whole y)).run.run (whole y)).Discreet c.agents _ known
  rw [hf]
  refine Action.Discreet.andThen (hr known y hk ht) ?_
  intro known' z _ hz
  exact ⟨(hw z.2).trans_subset hz, hn z.2⟩

theorem eq_of_subordinate? {a : Agent ω} {sub : Subordinate} (h : a.subordinate? = some sub) : a = .subordinate sub := by
  cases a with
  | subordinate s => exact congrArg _ (Option.some.inj h)
  | manager m => cases h
  | guest g => cases h

variable [ExecutionService W] [Guest ω W]

theorem start_discreet (hc : c.Strict) {a : Agent ω} (ha : a.subordinate? = none) (hk : c.agents.entity a ⊆ known) :
    ((Entity.start : Reaction (Agent ω) (Agent ω) Signal W Unit).run.run a).Discreet c.agents
      (fun known z => c.agents.entity z.2 ⊆ known ∧ z.2.subordinate? = none) known := by
  cases a with
  | subordinate sub => cases ha
  | manager m =>
    exact part_discreet manager Manager.start_discreet (fun _ => rfl) (fun _ => rfl) hk (Set.empty_subset known) rfl
  | guest g =>
    exact part_discreet guest hc.start (fun _ => rfl) (fun _ => rfl) hk (Set.empty_subset known) rfl

theorem react_discreet (hc : c.Strict) {a : Agent ω} (ha : a.subordinate? = none) (hk : c.agents.entity a ⊆ known)
    {e : Event Signal} (he : e.handle ∈ known) :
    ((Entity.react e : Reaction (Agent ω) (Agent ω) Signal W Unit).run.run a).Discreet c.agents
      (fun known z => c.agents.entity z.2 ⊆ known ∧ z.2.subordinate? = none) known := by
  cases a with
  | subordinate sub => cases ha
  | manager m =>
    exact part_discreet manager (Manager.react_discreet (fun _ => rfl) hc.completedTasks hc.applyStrategy e)
      (fun _ => rfl) (fun _ => rfl) hk (Set.singleton_subset_iff.2 he) rfl
  | guest g =>
    exact part_discreet guest (hc.react e) (fun _ => rfl) (fun _ => rfl) hk
      (Set.singleton_subset_iff.2 he) rfl

end Agent

/-! ## One subordinate -/

/-- an event on which `id` asks for results -/
def Asks (id : EntityId) (e : Event Signal) : Prop := e.target = id ∧ e.message = .collectResults

/-- the last request of `id` was answered by an error: between its delivery and the error there are remarks only -/
def Rebuffed {ε : Type} (id : EntityId) (journal : List (Entry ε Signal)) : Prop :=
  ∃ (e : Event Signal) (remarks : List Remark) (time : Time) (error : SimError) (earlier : List (Entry ε Signal)),
    Asks id e ∧
      Undelivered (Asks id) (.recovered time id error :: (remarks.map .remark ++ .dispatched e :: earlier)) journal

/-- a signal is to come for `id`, under a handle that nobody knows -/
def Awaited (known : Set Handle) (id : EntityId) (m : Signal) (h : Handle) (p : Plain Signal) : Prop :=
  h ∉ known ∧ ∃ e ∈ p.live, e.handle = h ∧ e.target = id ∧ e.message = m

/-- as long as its matter is not settled, a subordinate with this id awaits its deadline, and a request unless it was
    rebuffed -/
structure Tended {ε : Type} (known : Set Handle) (id : EntityId) (sub : Subordinate) (journal : List (Entry ε Signal))
    (p : Plain Signal) : Prop where
  interval : Agenda.accepts sub.policy.interval = true
  deadline : (sub.collected || sub.timedOut) = false →
    ∃ h, sub.deadline? = some h ∧ Awaited known id .resultsDeadline h p
  request : (sub.collected || sub.timedOut) = false →
    (∃ h, Awaited known id .collectResults h p) ∨ Rebuffed id journal

theorem Rebuffed.mono {ε : Type} {id : EntityId} {j k : List (Entry ε Signal)} (h : Rebuffed id j)
    (hk : Undelivered (Asks id) j k) : Rebuffed id k := by
  obtain ⟨e, remarks, time, error, earlier, he, hj⟩ := h
  exact ⟨e, remarks, time, error, earlier, he, hj.trans hk⟩

namespace Tended

variable {ε : Type} {known known' : Set Handle} {id : EntityId} {sub : Subordinate} {j k : List (Entry ε Signal)}
  {p q : Plain Signal}

/-- what touches none of its events does not concern it -/
theorem spared (h : Tended known id sub j p) (hj : Undelivered (Asks id) j k)
    (hl : ∀ e ∈ p.live, e.target = id → e.handle ∉ known → e.message = .collectResults ∨ e.message = .resultsDeadline →
      e ∈ q.live ∧ e.handle ∉ known') : Tended known' id sub k q := by
  have awaited : ∀ {m : Signal} {h : Handle}, m = .collectResults ∨ m = .resultsDeadline →
      Awaited known id m h p → Awaited known' id m h q := by
    rintro m h hm ⟨hn, e, he, rfl, ht, rfl⟩
    obtain ⟨he, hn⟩ := hl e he ht hn hm
    exact ⟨hn, e, he, rfl, ht, rfl⟩
  refine ⟨h.interval, ?_, ?_⟩
  · intro ho
    obtain ⟨d, hd, ha⟩ := h.deadline ho
    exact ⟨d, hd, awaited (.inr rfl) ha⟩
  · intro ho
    exact (h.request ho).imp (fun ⟨d, ha⟩ => ⟨d, awaited (.inl rfl) ha⟩) fun hr => hr.mono hj

/-- when its matter is settled nothing more need come -/
theorem settled (hi : Agenda.accepts sub.policy.interval = true) (hs : (sub.collected || sub.timedOut) = true) :
    Tended known id sub j p :=
  ⟨hi, fun h => absurd (hs.symm.trans h) (by decide), fun h => absurd (hs.symm.trans h) (by decide)⟩

end Tended

namespace Subordinate

open Reaction

variable {ε : Type} {c : Custody ε W} {known : Set Handle} {s : Simulation ε Signal W} {p q : Plain Signal}
  [ExecutionService W]

/-- a subordinate that starts without an error has planned a request and its deadline -/
theorem start_tended (hv : ∀ id vms, Exchange.Within c.Quiet (ExecutionService.submitVms id vms : Call W Unit))
    (ht : ∀ id tasks, Exchange.Within c.Quiet (ExecutionService.submitTasks id tasks : Call W Unit))
    (hk : Kept c known s p) (self : EntityId) (sub : Subordinate) :
    ∃ r sub' t q, (start : Reaction Subordinate ε Signal W Unit).play self sub s = ((r, sub'), t) ∧
      Kept c known t q ∧ (∀ e ∈ p.live, e ∈ q.live) ∧
      (r = .ok () → ∀ j : List (Entry ε Signal), Tended known self sub' j q) := by
  have hself : (s.view self).self = self := rfl
  have hk := hk.exchange (hv self sub.bundle.vms)
  have hk' := hk.exchange (ht self sub.bundle.tasks)
  unfold start
  simp only [play_bind, play_get, play_view, play_call, hself]
  cases (s.exchange (ExecutionService.submitVms self sub.bundle.vms)).1 with
  | error err => exact ⟨_, _, _, p, rfl, hk, fun _ => id, nofun⟩
  | ok =>
    dsimp only
    cases ((s.exchange (ExecutionService.submitVms self sub.bundle.vms)).2.exchange
        (ExecutionService.submitTasks self sub.bundle.tasks)).1 with
    | error err => exact ⟨_, _, _, p, rfl, hk', fun _ => id, nofun⟩
    | ok =>
      simp only [play_remark, play_scheduleSelf, play_modify]
      generalize hu : Simulation.note _ _ = u
      have hk : Kept c known u p := hu ▸ hk'.of_core rfl
      have hfresh : ∀ h, p.issued ≤ h → h ∉ known := fun h hle hn => (hk.issued h hn).not_ge hle
      cases hi : Agenda.accepts sub.policy.interval with
      | false =>
        obtain ⟨reason, hs⟩ := u.schedule_refused hi self self Signal.collectResults
        rw [hs]
        exact ⟨_, _, _, p, rfl, hk, fun _ => id, nofun⟩
      | true =>
        obtain ⟨agenda, hs, hr, hq⟩ := Simulation.schedule_eq hk.refines hk.sound hi self self Signal.collectResults
        rw [hs]
        dsimp only
        cases hd : Agenda.accepts sub.policy.timeout with
        | false =>
          obtain ⟨reason, hs⟩ := ({ u with agenda } : Simulation ε Signal W).schedule_refused hd self self
            Signal.resultsDeadline
          rw [hs]
          exact ⟨_, _, _, _, rfl, hk.plan hr hq (Nat.le_add_right _ _), fun _ => List.mem_append_left _, nofun⟩
        | true =>
          obtain ⟨agenda', hs, hr, hq⟩ := Simulation.schedule_eq (s := { u with agenda }) hr hq hd self self
            Signal.resultsDeadline
          rw [hs]
          rw [Plain.extend_extend] at hr hq
          refine ⟨_, _, _, _, rfl, hk.plan hr hq (Nat.le_add_right _ _), fun _ => List.mem_append_left _, fun _ j => ?_⟩
          refine ⟨hi, fun _ => ⟨p.issued + 1, rfl, hfresh _ (Nat.le_succ _), ?_⟩,
            fun _ => .inl ⟨p.issued, hfresh _ le_rfl, ?_⟩⟩
          · exact ⟨_, List.mem_append_right _ (List.mem_cons_of_mem _ List.mem_cons_self), rfl, rfl, rfl⟩
          · exact ⟨_, List.mem_append_right _ List.mem_cons_self, rfl, rfl, rfl⟩

/-- a subordinate has reacted: it is tended, and what is to come for others is to come as before -/
def Minded (c : Custody ε W) (known : Set Handle) (self : EntityId) (q : Plain Signal)
    (x : (Except SimError Unit × Subordinate) × Simulation ε Signal W) : Prop :=
  ∃ q', Kept c known x.2 q' ∧ (∀ f ∈ q.live, f.target ≠ self → f ∈ q'.live) ∧
    ∀ time, Tended known self x.1.2 (Simulation.afterOutcome time self x.1.1 x.2.journal) q'

variable {sub : Subordinate} {e : Event Signal} {j : List (Entry ε Signal)}

omit [ExecutionService W] in
/-- its deadline passes -/
theorem giveUp_minded (hk : Kept c known s q) (self : EntityId)
    (hi : Agenda.accepts sub.policy.interval = true) :
    Minded c known self q ((giveUp : Reaction Subordinate ε Signal W Unit).play self sub s) := by
  cases hc : sub.collected with
  | true =>
    rw [play_giveUp_collected self sub s hc]
    exact ⟨q, hk, fun _ hf _ => hf, fun _ => .settled hi (by simp [hc])⟩
  | false =>
    obtain ⟨t, ht, hcore⟩ := play_giveUp (ε := ε) self sub s hc
    rw [ht]
    exact ⟨q, hk.of_core hcore, fun _ hf _ => hf, fun _ => .settled hi (Bool.or_true _)⟩

/-- it asks for results -/
theorem collect_minded
    (hx : ∀ id, Exchange.Within c.Quiet (ExecutionService.completedTasks id : Call W (List TaskResult)))
    (hp : p.Sound) (hn : p.next? = some (e, q)) (he : e.message = .collectResults)
    (ht : Tended known e.target sub j p) (hk : Kept c known s q) (hj : s.journal = .dispatched e :: j) :
    Minded c known e.target q
      ((collect : Reaction Subordinate ε Signal W Unit).play e.target sub s) := by
  cases h : sub.collected || sub.timedOut with
  | true =>
    rw [play_collect_settled e.target sub s h]
    exact ⟨q, hk, fun _ hf _ => hf, fun _ => .settled ht.interval h⟩
  | false =>
    have hk' := hk.exchange (hx e.target)
    obtain ⟨hmem, hlive, -⟩ := hp.next?_eq hn
    obtain ⟨d, hd, hunknown, f, hf, rfl, hfid, hfm⟩ := ht.deadline h
    -- the event that leaves is a request, so the deadline is still to come
    have hdeadline : Awaited known e.target .resultsDeadline f.handle q := by
      refine ⟨hunknown, f, (hlive f).2 ⟨hf, fun heq => ?_⟩, rfl, hfid, hfm⟩
      rw [hp.unique hf hmem heq, he] at hfm
      cases hfm
    cases hr : (s.exchange (ExecutionService.completedTasks e.target)).1 with
    | error err =>
      rw [play_collect_refused e.target sub s h hr]
      refine ⟨q, hk', fun _ hf _ => hf, fun time => ⟨ht.interval, fun _ => ⟨f.handle, hd, hdeadline⟩, fun _ => .inr ?_⟩⟩
      have hjournal := Simulation.exchange_journal
        (ExecutionService.completedTasks e.target : Call W (List TaskResult)) s
      rw [hj] at hjournal
      exact ⟨e, _, time, err, j, ⟨rfl, he⟩, [], congrArg (Entry.recovered time e.target err :: ·) hjournal, nofun⟩
    | ok results =>
      by_cases hl : sub.bundle.tasks.length ≤ results.length
      · obtain ⟨t, hplay, hcore⟩ := play_collect_complete e.target sub s h hr hl
        obtain ⟨agenda, hstrike, hr'⟩ := Simulation.strike_eq hk'.refines hk'.sound sub.deadline?
        rw [hstrike] at hcore
        rw [hplay]
        refine ⟨_, (hk'.plan hr' (hk.sound.strike _) (Plain.issued_strike _ q).ge).of_core hcore, ?_,
          fun _ => .settled ht.interval rfl⟩
        intro g hg hgid
        refine Plain.mem_strike.2 ⟨hg, fun heq => hgid ?_⟩
        rw [hd] at heq
        rw [← hfid, hp.unique hf ((hlive g).1 hg).1 (Option.some.inj heq)]
      · obtain ⟨agenda, hs, hr', hq⟩ := Simulation.schedule_eq hk'.refines hk'.sound ht.interval e.target e.target
          Signal.collectResults
        rw [play_collect_incomplete e.target sub s h hr (not_le.1 hl), hs]
        refine ⟨_, hk'.plan hr' hq (Nat.le_add_right _ _), fun _ hf _ => List.mem_append_left _ hf, fun time => ?_⟩
        obtain ⟨-, f, hf, hfh, hft, hfm⟩ := hdeadline
        refine ⟨ht.interval, fun _ => ⟨_, hd, hunknown, f, List.mem_append_left _ hf, hfh, hft, hfm⟩,
          fun _ => .inl ⟨q.issued, fun hin => (hk.issued _ hin).ne rfl, ?_⟩⟩
        exact ⟨_, List.mem_append_right _ List.mem_cons_self, rfl, rfl, rfl⟩

/-- **What a subordinate minds when it reacts**: all that is to come for others, and that its deadline is to come and a
    request, unless it is rebuffed -/
theorem react_minded
    (hx : ∀ id, Exchange.Within c.Quiet (ExecutionService.completedTasks id : Call W (List TaskResult)))
    (hp : p.Sound) (hn : p.next? = some (e, q)) (ht : Tended known e.target sub j p) (hk : Kept c known s q)
    (hj : s.journal = .dispatched e :: j) :
    Minded c known e.target q ((react e : Reaction Subordinate ε Signal W Unit).play e.target sub s) := by
  -- an event of another kind than its own two is refused, and that is no answer to a request
  have other : ∀ error, e.message ≠ .collectResults → e.message ≠ .resultsDeadline →
      Minded c known e.target q ((.error error, sub), s) := by
    intro error hcollect hdeadline
    refine ⟨q, hk, fun _ hf _ => hf, fun time => ht.spared ?_ ?_⟩
    · change Undelivered _ j (.recovered time e.target error :: s.journal)
      rw [hj]
      refine (Undelivered.cons ?_).trans (.cons nofun)
      rintro f ⟨⟩ ⟨-, hf⟩
      exact hcollect hf
    · intro f hf hfid hunknown hm
      obtain ⟨hmem, hlive, -⟩ := hp.next?_eq hn
      refine ⟨(hlive f).2 ⟨hf, fun heq => ?_⟩, hunknown⟩
      rw [hp.unique hf hmem heq] at hm
      exact hm.elim hcollect hdeadline
  unfold react
  cases he : e.message with
  | collectResults => exact collect_minded hx hp hn he ht hk hj
  | resultsDeadline => exact giveUp_minded hk e.target ht.interval
  | _ =>
    simp only [play_bind, play_view, play_throw]
    exact other _ (by simp [he]) (by simp [he])

end Subordinate

/-! ## Everybody -/

/-- a run that has not ended, in which every subordinate that runs is tended -/
structure Attended (c : Custody ω W) (known : Set Handle) (s : Simulation (Agent ω) Signal W) (p : Plain Signal) :
    Prop where
  kept : Kept c.agents known s p
  live : s.terminated = false
  tended : ∀ id name sub, s.entities[id]? = some ⟨name, .running, .subordinate sub⟩ → Tended known id sub s.journal p

namespace Attended

variable {c : Custody ω W} {known known' : Set Handle} {s t u : Simulation (Agent ω) Signal W} {p q : Plain Signal}

/-- the counters are of no account, nor is what the journal tells besides -/
theorem of_core (h : Attended c known s p) (hc : t.core = s.core)
    (hj : ∀ id, Undelivered (Asks id) s.journal t.journal) : Attended c known t p := by
  have hentities : t.entities = s.entities := (congrArg Simulation.entities hc :)
  refine ⟨h.kept.of_core hc, (congrArg Simulation.terminated hc).trans h.live, ?_⟩
  intro id name sub hs
  rw [hentities] at hs
  exact (h.tended id name sub hs).spared (hj id) fun e he _ hn _ => ⟨he, hn⟩

theorem note (h : Attended c known s p) (entry : Entry (Agent ω) Signal) (he : ∀ e, entry ≠ .dispatched e) :
    Attended c known (s.note entry) p :=
  h.of_core rfl fun _ => .cons fun e heq => absurd heq (he e)

theorem absorb (h : Attended c known s p) (id : EntityId) (err : SimError) :
    Attended c known (s.absorb id err).2 p := by
  unfold Simulation.absorb
  split_ifs
  · exact h.of_core rfl fun _ => .cons nofun
  · exact h.note _ nofun

theorem absorbOutcome (h : Attended c known s p) (id : EntityId) (r : Except SimError Unit) :
    Attended c known (s.absorbOutcome id r).2 p := by
  cases r with
  | ok => exact h
  | error err => exact h.absorb id err

/-- something has happened that respects what is not known -/
theorem act (h : Attended c known s p) (hk : Kept c.agents known' t q) (hr : Respects known p known' q)
    (he : t.entities = s.entities) (hl : t.terminated = s.terminated)
    (hj : ∀ id, Undelivered (Asks id) s.journal t.journal) : Attended c known' t q := by
  refine ⟨hk, hl.trans h.live, ?_⟩
  intro id name sub hs
  rw [he] at hs
  exact (h.tended id name sub hs).spared (hj id) fun e he _ hn _ => hr.live e he hn

/-- the code of the entity under an id has run: the others are tended as before -/
theorem place (h : Attended c known s p) {id : EntityId} {slot : Slot (Agent ω)} (hk : Kept c.agents known' t q)
    (he : t.entities = s.entities) (hl : t.terminated = s.terminated)
    (hu : u.core = ({ t with entities := t.entities.setIfInBounds id slot } : Simulation (Agent ω) Signal W).core)
    (hj : ∀ key ≠ id, Undelivered (Asks key) s.journal u.journal) (hs : c.agents.entity slot.entity ⊆ known')
    (others : ∀ e ∈ p.live, e.target ≠ id → e.handle ∉ known → e ∈ q.live ∧ e.handle ∉ known')
    (own : ∀ name sub, slot = ⟨name, .running, .subordinate sub⟩ → Tended known' id sub u.journal q) :
    Attended c known' u q := by
  have hentities : u.entities = s.entities.setIfInBounds id slot :=
    (congrArg Simulation.entities hu).trans (congrArg (·.setIfInBounds id slot) he)
  refine ⟨(hk.setSlot id hs).of_core hu, (congrArg Simulation.terminated hu).trans (hl.trans h.live), ?_⟩
  intro key name sub hslot
  rw [hentities] at hslot
  by_cases hid : id = key
  · subst hid
    obtain ⟨hlt, heq⟩ := Array.getElem?_eq_some_iff.1 hslot
    rw [Array.getElem_setIfInBounds_self] at heq
    exact own name sub heq
  · rw [Array.getElem?_setIfInBounds_ne hid] at hslot
    exact (h.tended key name sub hslot).spared (hj key (Ne.symm hid)) fun e he ht hn _ =>
      others e he (ht ▸ Ne.symm hid) hn

variable [ExecutionService W] [Guest ω W]

/-- an entity joins the registry; it does not run yet -/
theorem joined (h : Attended c known s p) (id : EntityId) {e : Agent ω} (he : c.agents.entity e ⊆ known) :
    Attended c known (s.insert id e) p := by
  refine ⟨{ h.kept with entities := ?_ }, h.live, ?_⟩
  · intro slot hslot
    rcases Array.mem_push.1 hslot with hslot | rfl
    · exact h.kept.entities slot hslot
    · exact he
  · intro key name sub hslot
    change (s.entities.push _)[key]? = _ at hslot
    rw [Array.getElem?_push] at hslot
    split_ifs at hslot
    · cases hslot
    · exact (h.tended key name sub hslot).spared (.cons nofun) fun e he _ hn _ => ⟨he, hn⟩

/-- an entity starts -/
theorem start (hc : c.Strict) (h : Attended c known s p) (id : EntityId) :
    ∃ known' q, known ⊆ known' ∧ Attended c known' (s.start id).2 q := by
  cases hs : s.entities[id]? with
  | none =>
    refine ⟨known, p, subset_rfl, ?_⟩
    unfold Simulation.start
    rw [hs]
    exact h.note _ nofun
  | some slot =>
    rw [Simulation.start_eq hs]
    have hk : Kept c.agents known (s.note (.started id)) p := h.kept.of_core rfl
    have hframe := ((Entity.start : Reaction (Agent ω) (Agent ω) Signal W Unit).run.run slot.entity).perform_frame id
      (s.note (.started id))
    have hholds : c.agents.entity slot.entity ⊆ known := h.kept.entities slot (Array.mem_of_getElem? hs)
    cases hsub : slot.entity.subordinate? with
    | none =>
      obtain ⟨known', q, hk, hrespects, hkeeps, hnone⟩ :=
        Action.perform_discreet (Agent.start_discreet hc hsub hholds) hk id
      generalize Action.perform id _ _ = x at hframe hk hkeeps hnone ⊢
      refine ⟨known', q, hrespects.grows, h.place hk hframe.1 hframe.2.1 rfl ?_ hkeeps
        (fun e he _ hn => hrespects.live e he hn) ?_⟩
      · exact fun _ _ => ((Undelivered.cons nofun).trans (hframe.2.2 _)).trans (.cons nofun)
      · intro name sub heq
        have hentity : x.1.2 = .subordinate sub := congrArg Slot.entity heq
        rw [hentity] at hnone
        cases hnone
    | some sub =>
      have hentity := Agent.eq_of_subordinate? hsub
      obtain ⟨r, sub', t, q, hplay, hk, hlive, htended⟩ :=
        Subordinate.start_tended hc.submitVms hc.submitTasks hk id sub
      have hstart := Agent.play_start_subordinate id (s.note (.started id)) sub
      rw [hplay, ← hentity] at hstart
      change Action.perform id _ _ = _ at hstart
      rw [hstart] at hframe ⊢
      refine ⟨known, q, subset_rfl, h.place hk hframe.1 hframe.2.1 rfl ?_ (Set.empty_subset known)
        (fun e he _ hn => ⟨hlive e he, hn⟩) ?_⟩
      · exact fun _ _ => ((Undelivered.cons nofun).trans (hframe.2.2 _)).trans (.cons nofun)
      · intro name sub'' heq
        have hsame : sub' = sub'' := Agent.subordinate.inj (congrArg Slot.entity heq)
        have hstate : stateAfter (failure? r) = .running := congrArg Slot.state heq
        rw [← hsame]
        cases r with
        | error err => cases hstate
        | ok => exact htended rfl _

theorem enrol (hc : c.Strict) (h : Attended c known s p) (id : EntityId) {e : Agent ω}
    (he : c.agents.entity e ⊆ known) : ∃ known' q, known ⊆ known' ∧ Attended c known' (s.enrol id e).2 q := by
  obtain ⟨known', q, hgrows, hq⟩ := (h.joined id he).start hc id
  exact ⟨known', q, hgrows, hq.absorbOutcome id _⟩

/-- the first of those that wait is enrolled -/
theorem enrolNext (hc : c.Strict) (h : Attended c known s p) {id : EntityId} {e : Agent ω}
    {rest : List (EntityId × Agent ω)} (hw : s.waiting = (id, e) :: rest) :
    ∃ known' q, known ⊆ known' ∧
      Attended c known' (({ s with waiting := rest, spawned := s.spawned + 1 }).enrol id e).2 q := by
  have hall := h.kept.waiting
  rw [hw] at hall
  have h' : Attended c known { s with waiting := rest, spawned := s.spawned + 1 } p :=
    ⟨{ h.kept with waiting := fun w hw => hall w (List.mem_cons_of_mem _ hw) }, h.live, h.tended⟩
  exact h'.enrol hc id (hall (id, e) List.mem_cons_self)

section

variable {e : Event Signal} {agenda : Agenda Signal} (h : Attended c known s p)
  (hn : s.agenda.next? = some (e, agenda))
include h hn

omit [ExecutionService W] [Guest ω W] in
/-- an event leaves, and those for other entities stay -/
theorem leave : ∃ q, p.next? = some (e, q) ∧ Kept c.agents known { s with agenda } q ∧ e.handle < q.issued ∧
    ∀ f ∈ p.live, f.target ≠ e.target → f ∈ q.live ∧ f.handle ≠ e.handle := by
  obtain ⟨q, hq, hr, hs⟩ := Simulation.next?_eq h.kept.refines h.kept.sound hn
  obtain ⟨he, hlive, -, hissued, -⟩ := h.kept.sound.next?_eq hq
  refine ⟨q, hq, h.kept.plan hr hs hissued.ge, hissued ▸ h.kept.sound.handle e he, ?_⟩
  intro f hf ht
  have hne : f.handle ≠ e.handle := fun heq => ht (congrArg Event.target (h.kept.sound.unique hf he heq))
  exact ⟨(hlive f).2 ⟨hf, hne⟩, hne⟩

/-- an event is delivered to a running entity, and the run goes on -/
theorem react (hc : c.Strict) {slot : Slot (Agent ω)} (hs : s.entities[e.target]? = some slot)
    (hr : slot.state = .running) {r : Except SimError Unit}
    (hreact : (({ s with agenda } : Simulation (Agent ω) Signal W).react e slot) = (r, t))
    (hu : t.absorbOutcome e.target r = (.ok (), u)) : ∃ known' q, known ⊆ known' ∧ Attended c known' u q := by
  obtain ⟨q, hq, hk, hissued, hothers⟩ := h.leave hn
  obtain ⟨hcore, hjournal⟩ := Simulation.absorbOutcome_ok hu
  let start := ({ s with agenda } : Simulation (Agent ω) Signal W).delivering e
  have hk : Kept c.agents known start q := hk.of_core rfl
  have hframe := ((Entity.react e : Reaction (Agent ω) (Agent ω) Signal W Unit).run.run slot.entity).perform_frame
    e.target start
  have hholds : c.agents.entity slot.entity ⊆ known := h.kept.entities slot (Array.mem_of_getElem? hs)
  rw [Simulation.react_eq] at hreact
  obtain ⟨rfl, rfl⟩ := Prod.mk.inj hreact
  have hunasked : ∀ id ≠ e.target, Undelivered (Asks id) s.journal u.journal := by
    intro id hid
    rw [hjournal]
    refine ((Undelivered.cons ?_).trans (hframe.2.2 _)).trans (Simulation.undelivered_afterOutcome ..)
    rintro f ⟨⟩ ⟨hf, -⟩
    exact hid hf.symm
  cases hsub : slot.entity.subordinate? with
  | none =>
    -- it learns the handle of the event, which has left, and nothing else that is still to come
    have hk : Kept c.agents (insert e.handle known) start q := by
      refine hk.mono (Set.subset_insert _ _) ?_
      rintro k (rfl | hin)
      · exact hissued
      · exact hk.issued k hin
    obtain ⟨known', q', hk, hrespects, hkeeps, hnone⟩ := Action.perform_discreet
      (Agent.react_discreet hc hsub (hholds.trans (Set.subset_insert _ _)) (Set.mem_insert _ _)) hk e.target
    refine ⟨known', q', (Set.subset_insert _ _).trans hrespects.grows,
      h.place hk hframe.1 hframe.2.1 hcore hunasked hkeeps ?_ ?_⟩
    · intro f hf ht hunknown
      obtain ⟨hf, hne⟩ := hothers f hf ht
      exact hrespects.live f hf fun hin => hin.elim hne hunknown
    · intro name sub heq
      have hentity := congrArg (fun slot : Slot (Agent ω) => slot.entity.subordinate?) heq
      cases hnone.symm.trans hentity
  | some sub =>
    have hentity := Agent.eq_of_subordinate? hsub
    obtain ⟨name, state, entity⟩ := slot
    obtain rfl : state = .running := hr
    obtain rfl : entity = .subordinate sub := hentity
    have hplay := Agent.play_react_subordinate e.target start e sub
    obtain ⟨q', hk, hlive, htended⟩ := Subordinate.react_minded hc.completedTasks h.kept.sound hq
      (h.tended e.target name sub hs) hk rfl
    have hplay' : Action.perform e.target _ _ = _ := hplay
    rw [hplay'] at hframe
    rw [hplay] at hcore hjournal
    refine ⟨known, q', subset_rfl, h.place hk hframe.1 hframe.2.1 hcore hunasked (Set.empty_subset known) ?_ ?_⟩
    · intro f hf ht hunknown
      obtain ⟨hf, hne⟩ := hothers f hf ht
      exact ⟨hlive f hf ht, hunknown⟩
    · intro name' sub' heq
      have hsame := Agent.subordinate.inj (congrArg Slot.entity heq)
      rw [hjournal, ← hsame]
      exact htended _

omit [ExecutionService W] [Guest ω W] in
/-- an event finds nobody who runs, so it was meant for nobody who is tended -/
theorem drop (nobody : s.runs e.target = false) :
    ∃ q, Attended c known (({ s with agenda }.note (.dropped e)).absorb e.target (.unknownTarget e.target)).2 q := by
  obtain ⟨q, -, hk, -, hothers⟩ := h.leave hn
  have hq : Attended c known { s with agenda } q := by
    refine ⟨hk, h.live, ?_⟩
    intro id name sub hs
    have hne : id ≠ e.target := by
      rintro rfl
      have hs : s.entities[e.target]? = _ := hs
      rw [Simulation.runs, hs] at nobody
      cases nobody
    exact (h.tended id name sub hs).spared (.refl _ _) fun f hf ht hn _ => ⟨(hothers f hf (ht ▸ hne)).1, hn⟩
  exact ⟨q, (hq.note (.dropped e) (by simp)).absorb e.target (.unknownTarget e.target)⟩

end

end Attended

/-- either the run has ended and nobody runs any more, or every subordinate is tended, whatever the caller was given -/
inductive Watched (c : Custody ω W) (given : Set Handle) (s : Simulation (Agent ω) Signal W) : Prop
  | ended (terminated : s.terminated = true)
      (idle : ∀ (id : EntityId) slot, s.entities[id]? = some slot → slot.state ≠ .running)
  | going {known : Set Handle} {p : Plain Signal} (grows : given ⊆ known) (attended : Attended c known s p)

section

variable {c : Custody ω W} {known given : Set Handle} {s t : Simulation (Agent ω) Signal W} {p : Plain Signal}
  [ExecutionService W] [Guest ω W]

theorem watched_finish (hl : s.terminated = false) : Watched c given s.finish := by
  refine .ended (Simulation.terminated_finish s) ?_
  intro id slot hs
  obtain ⟨old, -, -, h⟩ := (Simulation.finish_closed hl).slot le_rfl hs
  rcases h with ⟨hr, rfl⟩ | ⟨-, hr, -⟩
  · exact hr
  · rw [hr]
    decide

omit [ExecutionService W] [Guest ω W] in
theorem Watched.mono (h : Watched c known s) (hg : given ⊆ known) : Watched c given s := by
  cases h with
  | ended terminated idle => exact .ended terminated idle
  | going grows attended => exact .going (hg.trans grows) attended

theorem Watched.finish (h : Watched c given s) : Watched c given s.finish := by
  cases h with
  | ended terminated idle =>
    rw [Simulation.finish_of_terminated terminated]
    exact .ended terminated idle
  | going grows attended => exact watched_finish attended.live

omit [ExecutionService W] [Guest ω W] in
/-- a run that goes on has everybody tended -/
theorem Watched.attended (h : Watched c given s) (hl : s.terminated = false) :
    ∃ known p, given ⊆ known ∧ Attended c known s p := by
  cases h with
  | ended terminated => exact Bool.noConfusion (hl.symm.trans terminated)
  | going grows attended => exact ⟨_, _, grows, attended⟩

section

open Simulation (Leg Legs)

/-- calls that neither plan an event nor strike one off, and hand over no handles but these -/
def Hands (c : Custody ω W) (given : Set Handle) : Simulation.Call (Agent ω) Signal → Prop
  | .register e => c.agents.entity e ⊆ given
  | .schedule .. | .cancel _ => False
  | _ => True

/-- legs let nobody down, but for an error that no run survives: the target of an event has come to it, and it is still
    to end the run -/
def Overseen (c : Custody ω W) (given : Set Handle) (deeds : List (Deed (Agent ω) Signal)) (phase : Phase)
    (s : Simulation (Agent ω) Signal W) : Prop :=
  Watched c given s ∨ (∃ err, phase = .failed err) ∧ s.terminated = false ∧ popped deeds ≠ []

variable {phase phase' : Phase} {deeds new : List (Deed (Agent ω) Signal)}

theorem Watched.leg (hc : c.Strict) (h : Watched c given s) (leg : Leg (Hands c given) phase s new phase' t) :
    Overseen c given new phase' t := by
  cases leg with
  | schedule _ _ _ _ _ welcome => exact welcome.elim
  | cancel _ _ welcome => exact welcome.elim
  | @accept _ e welcome live =>
    obtain ⟨known, p, hg, h⟩ := h.attended live
    have named : Attended c known (s.nameNext e).2 p :=
      ⟨{ h.kept with }, h.live, (h.note (.reserved s.nextId e) nofun).tended⟩
    obtain ⟨known', q, hgrows, hq⟩ := named.enrol hc s.nextId (Set.Subset.trans welcome hg)
    exact .inl (.going (hg.trans hgrows) hq)
  | enlist live line =>
    obtain ⟨known, p, hg, h⟩ := h.attended live
    obtain ⟨known', q, hgrows, hq⟩ := h.enrolNext hc line
    exact .inl (.going (hg.trans hgrows) hq)
  | settled => exact .inl h
  | drop live next nobody =>
    obtain ⟨known, p, hg, h⟩ := h.attended live
    obtain ⟨q, hq⟩ := h.drop next nobody
    exact .inl (.going hg hq)
  | @react _ e agenda slot live next target running =>
    obtain ⟨known, p, hg, h⟩ := h.attended live
    have hlive := (Simulation.terminated_react e slot ({ s with agenda } : Simulation (Agent ω) Signal W)).trans live
    generalize hx : (({ s with agenda } : Simulation (Agent ω) Signal W).react e slot).2.absorbOutcome e.target
      _ = x at hlive ⊢
    obtain ⟨_ | _, u⟩ := x
    · refine .inr ⟨⟨_, rfl⟩, hlive, ?_⟩
      rw [Simulation.popped_reactDeeds]
      exact List.cons_ne_nil e []
    · obtain ⟨known', q, hgrows, hq⟩ := h.react next hc target running rfl hx
      exact .inl (.going (hg.trans hgrows) hq)
  | notice told =>
    cases h with
    | ended terminated idle => exact .inl (.ended terminated idle)
    | going grows attended =>
      obtain rfl | ⟨limit, rfl⟩ := told
      · exact .inl (.going grows (attended.note _ nofun))
      · exact .inl (.going grows (attended.note _ nofun))
  | finish => exact .inl h.finish

theorem Watched.legs (hc : c.Strict) (h : Watched c given s) (legs : Legs (Hands c given) phase s deeds phase' t) :
    Overseen c given deeds phase' t := by
  refine legs.keep (P := Overseen c given) (.inl h) ?_
  rintro deeds q t new r u (watched | ⟨⟨err, rfl⟩, live, left⟩) leg
  · refine (watched.leg hc leg).imp_right fun ⟨failed, live, left⟩ => ⟨failed, live, ?_⟩
    rw [popped_append]
    exact List.append_ne_nil_of_right_ne_nil _ left
  · cases leg with
    | finish => exact .inl (watched_finish live)

end

omit [ExecutionService W] [Guest ω W] in
/-- what a caller may know is known -/
theorem Attended.inReach_subset (h : Attended c known s p) (hg : given ⊆ known) :
    s.inReach c.agents given ⊆ known := by
  rintro k (hk | hk | ⟨slot, hslot, hk⟩)
  · exact hg hk
  · exact h.kept.world hk
  · exact h.kept.entities slot hslot hk

/-- **A call** of that kind keeps everybody watched. -/
theorem Attended.call (hc : c.Strict) {fuel : Nat} {x : Simulation.Call (Agent ω) Signal} {a : Simulation.Answer}
    (h : Attended c known s p) (hx : Hands c known x) (hs : s.call fuel x = some (a, t)) : Watched c known t := by
  obtain ⟨q, legs, hq⟩ := Simulation.call_legs (Hands c known) hx hs
  obtain watched | ⟨⟨err, hfail⟩, live, left⟩ := Watched.legs hc (.going subset_rfl h) legs
  · exact watched
  -- an error that no run survives leaves a run alive only in a registration, and there no event has left
  have going : ¬ Simulation.Ends t x a := fun ends =>
    Bool.noConfusion (live.symm.trans ((Simulation.call_ends h.live hs).2 ends))
  have failed : a.phase = .failed err := (hq h.live).symm.trans hfail
  cases Simulation.answered hs with
  | @register e => exact absurd (Simulation.popped_registerDeeds fuel e s) left
  | schedule | cancel => exact hx.elim
  | run | stop => exact absurd trivial going
  | @runUntil _ r =>
    cases r with
    | ok => cases failed
    | error err => exact absurd (.inr ⟨err, rfl⟩) going
  | @step r =>
    cases r with
    | ok => cases failed
    | error err => exact absurd (.inr ⟨err, rfl⟩) going

/-- **Any discreet call**, and any answer to it -/
theorem Watched.call (hc : c.Strict) {fuel : Nat} {x : Simulation.Call (Agent ω) Signal} {a : Simulation.Answer}
    (h : Watched c given s) (hx : x.Discreet c.agents (s.inReach c.agents given)) (hs : s.call fuel x = some (a, t)) :
    Watched c (given ∪ a.handles) t := by
  cases h with
  | ended terminated idle =>
    have he := Simulation.call_of_terminated terminated hs
    refine .ended (he.terminated.trans terminated) ?_
    rw [he.entities]
    exact idle
  | @going known _ hg h =>
    have hreach := h.inReach_subset hg
    have told : a.handles = ∅ → Hands c known x → Watched c (given ∪ a.handles) t := by
      intro none hands
      rw [none, Set.union_empty]
      exact (h.call hc hands hs).mono hg
    cases Simulation.answered hs with
    | register => exact told rfl (Set.Subset.trans hx hreach)
    | schedule delay source target message =>
      obtain ⟨q, hk, hrespects⟩ := h.kept.schedule delay source target message
      have he := Simulation.schedule_effect delay source target message s
      refine .going (Set.union_subset_union_left _ hg) (h.act hk hrespects he.entities he.terminated ?_)
      intro id
      rw [Simulation.journal_schedule]
      exact .refl _ _
    | cancel handle =>
      obtain ⟨q, hk, hrespects⟩ := h.kept.cancel (hreach hx)
      refine .going ?_ (h.act hk hrespects rfl rfl fun _ => .refl _ _)
      exact Set.union_subset hg (Set.empty_subset known)
    | run | runUntil | step | stop => exact told rfl trivial

theorem watched_of_course (hc : c.Strict) (h : Simulation.Course c.agents given s) : Watched c given s := by
  induction h with
  | fresh limits hw =>
    refine .going (p := {}) subset_rfl ⟨⟨.fresh, Plain.sound_fresh, fun _ => False.elim, hw.subset, ?_, ?_⟩, rfl, ?_⟩
    · exact fun w hw => absurd hw List.not_mem_nil
    · exact fun slot hs => absurd hs (Array.not_mem_empty slot)
    · intro id name sub hs
      cases hs
  | call before hx hs ih => exact ih.call hc hx hs
  | @deliver given fuel _ _ _ _ before live next hd ih =>
    have spans := Simulation.dispatch_spans (Hands c given) fuel live next
    rw [hd] at spans
    obtain watched | ⟨⟨err, hfail⟩, -⟩ := ih.legs hc spans.legs.1
    · exact watched
    · cases hfail
  | turn before hw ih =>
    cases ih with
    | ended terminated idle => exact .ended terminated idle
    | going hg h =>
      exact .going hg ⟨{ h.kept with world := hw.trans (h.inReach_subset hg) }, h.live, h.tended⟩

/-- **A subordinate asks until it is refused.** Whatever entities and service there are, as long as none of them and no
    caller cancels an event that it cannot know: a subordinate that runs and whose matter is not settled has its own
    deadline to come; and a request of it is to come, unless its last request was answered by an error. -/
theorem Simulation.Course.polls_until_refused (hc : c.Strict) (h : Simulation.Course c.agents given s) {id : EntityId}
    {name : String} {sub : Subordinate} (hs : s.entities[id]? = some ⟨name, .running, .subordinate sub⟩)
    (hcollected : sub.collected = false) (htimedOut : sub.timedOut = false) :
    (∃ e, s.agenda.Holds e ∧ sub.deadline? = some e.handle ∧ e.target = id ∧ e.message = .resultsDeadline) ∧
      ((∃ e, s.agenda.Holds e ∧ e.target = id ∧ e.message = .collectResults) ∨ Rebuffed id s.journal) := by
  cases watched_of_course hc h with
  | ended terminated idle => exact absurd rfl (idle id _ hs)
  | going hg h =>
    have hopen : (sub.collected || sub.timedOut) = false := by rw [hcollected, htimedOut]; rfl
    have ht := h.tended id name sub hs
    obtain ⟨d, hd, -, e, he, rfl, hid, hm⟩ := ht.deadline hopen
    refine ⟨⟨e, h.kept.refines.mem_live.1 he, hd, hid, hm⟩, (ht.request hopen).imp_left ?_⟩
    rintro ⟨-, -, e, he, -, hid, hm⟩
    exact ⟨e, h.kept.refines.mem_live.1 he, hid, hm⟩

end

/-! ## A ward -/

/-- nobody keeps a handle -/
def Custody.bare : Custody ω W := ⟨fun _ => ∅, fun _ => ∅⟩

open Reaction in
/-- saboteurs cancel nothing, whatever the service -/
theorem Custody.strict_bare [ExecutionService W] : (bare : Custody Standin.Saboteur W).Strict where
  start := .bind .get fun _ => .bind (.scheduleSelf _ _) fun _ => .pure _
  react _ := .bind .get fun _ => .throw _
  submitVms _ _ _ := subset_rfl
  submitTasks _ _ _ := subset_rfl
  completedTasks _ _ := subset_rfl
  applyStrategy _ _ _ := subset_rfl

namespace Simulation

open Standin

/-- a subordinate with the smallest of bundles -/
def patient : Subordinate := { name := "A", bundle := WorkloadClass.light.bundle 0 0, policy := {} }

/-- a service that refuses some calls, and has no results yet when it is first asked; nobody is registered -/
def clinic (refusals : Refusals) : Simulation (Agent Saboteur) Signal Collaborator :=
  fresh {} ⟨.wrapped refusals 1, { settings := {}, stream := .ofSeed 42 }⟩

/-- the patient has started, and one event has been delivered -/
def ward (refusals : Refusals) : Simulation (Agent Saboteur) Signal Collaborator :=
  ((clinic refusals).after 1 (.register (.subordinate patient))).after 1 .step

theorem course_ward (refusals : Refusals)
    (hr : ((clinic refusals).call 1 (.register (.subordinate patient))).isSome = true)
    (hs : (((clinic refusals).after 1 (.register (.subordinate patient))).call 1 .step).isSome = true) :
    ∃ given, Course Custody.bare.agents given (ward refusals) := by
  have fresh : Course Custody.bare.agents ∅ (clinic refusals) := .fresh {} rfl
  obtain ⟨given, h⟩ := fresh.after (Set.empty_subset _) hr
  exact h.after trivial hs

theorem polls_until_refused_of_patient :
    ∃ given sub, Course Custody.bare.agents given (ward {}) ∧
      (ward {}).entities[0]? = some ⟨"A", .running, .subordinate sub⟩ ∧ sub.collected = false ∧ sub.timedOut = false ∧
      (∃ e, (ward {}).agenda.Holds e ∧ sub.deadline? = some e.handle ∧ e.target = 0 ∧ e.message = .resultsDeadline) ∧
      ((∃ e, (ward {}).agenda.Holds e ∧ e.target = 0 ∧ e.message = .collectResults) ∨
        Rebuffed 0 (ward {}).journal) := by
  obtain ⟨given, h⟩ := course_ward {} (by decide +kernel) (by decide +kernel)
  have hs : (ward {}).entities[0]? = some ⟨"A", .running, .subordinate { patient with deadline? := some 1 }⟩ := by
    decide +kernel
  exact ⟨given, _, h, hs, rfl, rfl, h.polls_until_refused Custody.strict_bare hs rfl rfl⟩

/-- **A request that is refused is the last.** The patient runs and waits on, but no request is to come. -/
theorem refused_request_is_last :
    ∃ given sub, Course Custody.bare.agents given (ward { completed := [0] }) ∧
      (ward { completed := [0] }).entities[0]? = some ⟨"A", .running, .subordinate sub⟩ ∧
      sub.policy.fault? = none ∧ sub.collected = false ∧ sub.timedOut = false ∧
      ¬ ∃ e, (ward { completed := [0] }).agenda.Holds e ∧ e.target = 0 ∧ e.message = .collectResults := by
  obtain ⟨given, h⟩ := course_ward { completed := [0] } (by decide +kernel) (by decide +kernel)
  have hs : (ward { completed := [0] }).entities[0]? =
      some ⟨"A", .running, .subordinate { patient with deadline? := some 1 }⟩ := by decide +kernel
  have hlast : ∀ e ∈ (ward { completed := [0] }).agenda.heap.toList, e.message ≠ .collectResults := by decide +kernel
  refine ⟨given, _, h, hs, by decide +kernel, rfl, rfl, ?_⟩
  rintro ⟨e, ⟨he, -⟩, -, hm⟩
  exact hlast e he hm

end Simulation

end BrokerSim
