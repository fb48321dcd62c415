/-
A subordinate alone with a service that never has everything for it. It asks again and again, one interval after the
other, and what ends this is its deadline, if the clock comes that far. The clock is a float: a request that is planned
one interval after another may come at the same time, when the interval is lost in rounding, and then so do all that
follow.
- `CollectionPolicy.Stalls`: the clock stands still before the deadline.
- `Vigil.of_register`: a subordinate is on its vigil from its registration on, whatever the time.
- `Simulation.run_patient`: the run comes to an end if and only if the clock does not stand still; it is then drained,
  and the subordinate has given up.
- `CollectionPolicy.not_stalls`, `Vigil.run_drained`: it does not stand still, and the run comes to an end, if the clock
  resolves the interval at the deadline; with the standard policy that is so for two billion years.
- `Simulation.run_stuck`: a policy that is accepted, and a start at which the clock stands still.

`Vigil` is what such a subordinate keeps to while it waits. From one request to the next it stays on its vigil
(`Vigil.ask`); the deadline and the request after it end the run (`Vigil.giveUp`).
-/
import BrokerSim.Proofs.Accounting
import BrokerSim.Proofs.Kernel.Chronicle
import BrokerSim.Proofs.Kernel.Pause
import BrokerSim.Proofs.Polling
import BrokerSim.Proofs.Sum

namespace BrokerSim

/-! ## When requests come -/

namespace CollectionPolicy

variable (policy : CollectionPolicy) (start : Time)

/-- time of request number `n`: the first comes one interval after the start, any other one interval after the last -/
def pollAt : Nat → Time
  | 0 => start + policy.interval
  | n + 1 => pollAt n + policy.interval

/-- before the deadline, some request comes at the same time as the next -/
def Stalls : Prop :=
  ∃ n, policy.pollAt start n < start + policy.timeout ∧ policy.pollAt start (n + 1) = policy.pollAt start n

/-- does request number `n` come before the deadline? The first was planned before it, all others after it. -/
def IsDue (n : Nat) : Prop :=
  policy.pollAt start n < start + policy.timeout ∨ n = 0 ∧ policy.pollAt start 0 ≤ start + policy.timeout

variable {policy start}

theorem pollAt_add {n : Nat} (h : policy.pollAt start (n + 1) = policy.pollAt start n) (k : Nat) :
    policy.pollAt start (n + k) = policy.pollAt start n := by
  induction k with
  | zero => rfl
  | succ k ih =>
    change policy.pollAt start (n + k) + policy.interval = _
    rw [ih]
    exact h

variable (hi : Agenda.accepts policy.interval = true) {n : Nat} (hn : (policy.pollAt start n).OnClock)
include hi hn

theorem onClock_pollAt (k : Nat) : (policy.pollAt start (n + k)).OnClock := by
  induction k with
  | zero => exact hn
  | succ k ih => exact Time.onClock_add ih hi

theorem pollAt_le_pollAt {j k : Nat} (h : j ≤ k) : policy.pollAt start (n + j) ≤ policy.pollAt start (n + k) := by
  induction k, h using Nat.le_induction with
  | base => exact Time.le_refl (onClock_pollAt hi hn j)
  | succ k _ ih => exact Time.le_trans ih (Time.le_add (onClock_pollAt hi hn k) hi)

/-- the requests never come to the deadline if and only if the clock stands still before it -/
theorem stalls_iff : policy.Stalls start ↔ ∀ k, policy.IsDue start (n + k) := by
  constructor
  · rintro ⟨m, hlt, hsame⟩ k
    left
    rcases le_total (n + k) m with h | h
    · obtain ⟨j, rfl⟩ := Nat.exists_eq_add_of_le (show n ≤ m by omega)
      exact Time.lt_of_le_of_lt (pollAt_le_pollAt hi hn (by omega)) hlt
    · obtain ⟨j, hj⟩ := Nat.exists_eq_add_of_le h
      rw [hj, pollAt_add hsame j]
      exact hlt
  · intro hdue
    by_contra hstalls
    have before : ∀ k, policy.pollAt start (n + 1 + k) < start + policy.timeout := by
      intro k
      have h := hdue (1 + k)
      rw [← Nat.add_assoc] at h
      exact h.resolve_right fun h => by omega
    -- no two requests come at the same time, so that the bits of their times count up
    have counts : ∀ k, k ≤ (policy.pollAt start (n + 1 + k)).bits := by
      intro k
      induction k with
      | zero => exact Nat.zero_le _
      | succ k ih =>
        have hclock := onClock_pollAt hi hn (1 + k)
        rw [← Nat.add_assoc] at hclock
        have hnext : (policy.pollAt start (n + 1 + k + 1)).OnClock := Time.onClock_add hclock hi
        have hle := (Time.rank_le_iff hclock hnext).2 (Time.le_add hclock hi)
        rw [Time.rank_eq_bits hclock, Time.rank_eq_bits hnext] at hle
        have hne : (policy.pollAt start (n + 1 + k)).bits ≠ (policy.pollAt start (n + 1 + k + 1)).bits :=
          fun h => hstalls ⟨_, before k, (Time.eq_of_bits h).symm⟩
        change k + 1 ≤ (policy.pollAt start (n + 1 + k + 1)).bits
        omega
    have hlast := counts (Binary64.infinityBits + 1)
    have hclock := onClock_pollAt hi hn (1 + (Binary64.infinityBits + 1))
    rw [← Nat.add_assoc] at hclock
    exact absurd (hlast.trans hclock) (Nat.not_succ_le_self _)

/-- **A clock that resolves the interval at the deadline does not stand still** before it. -/
theorem not_stalls (hpos : 0 < policy.interval) (hd : (start + policy.timeout).OnClock)
    (hr : (start + policy.timeout).Resolves policy.interval) : ¬ policy.Stalls start := by
  rintro ⟨m, hlt, hsame⟩
  have hclock := onClock_pollAt hi hn m
  have hstill : policy.pollAt start (n + m) = policy.pollAt start m := by
    rw [Nat.add_comm n m]
    exact pollAt_add hsame n
  rw [hstill] at hclock
  have hbits : (policy.pollAt start m).bits < (start + policy.timeout).bits := by
    rwa [← Time.rank_lt_iff hclock hd, Time.rank_eq_bits hclock, Time.rank_eq_bits hd, Int.ofNat_lt] at hlt
  have hmoves := Time.lt_add (hbits.trans_le hd) hi hpos (hr.mono hclock hd (Time.le_of_lt hlt))
  change policy.pollAt start m < policy.pollAt start (m + 1) at hmoves
  rw [hsame, ← Time.rank_lt_iff hclock hclock] at hmoves
  exact lt_irrefl _ hmoves

omit hi hn in
theorem interval_pos (hv : policy.fault? = none) : 0 < policy.interval := by
  unfold fault? at hv
  split_ifs at hv with h
  simp only [Bool.not_eq_true', Bool.not_eq_false, Bool.and_eq_true, decide_eq_true_eq] at h
  exact h.2

omit hi hn in
/-- the clock resolves ten seconds for two billion years -/
theorem not_stalls_standard (hs : start.OnClock) (h : start + 60 ≤ 7e16) : ¬ ({} : CollectionPolicy).Stalls start := by
  have hi : Agenda.accepts 10 = true := by decide +kernel
  have hd : (start + 60).OnClock := Time.onClock_add hs (by decide +kernel)
  have hr : Time.Resolves 7e16 10 := by decide +kernel
  have hlimit : Time.OnClock 7e16 := (by decide +kernel : Time.bits 7e16 ≤ Binary64.infinityBits)
  exact not_stalls (n := 0) hi (Time.onClock_add hs hi) (by decide +kernel) hd (hr.mono hd hlimit h)

end CollectionPolicy

namespace CollectionPolicy

/-- request number `n`, under a handle -/
def requestAt (policy : CollectionPolicy) (id : EntityId) (start : Time) (n : Nat) (handle : Handle) : Event Signal :=
  { time := policy.pollAt start n, source := id, target := id, handle, message := .collectResults }

variable {policy : CollectionPolicy} {id : EntityId} {start : Time} {first handle : Handle} {n : Nat}

/-- a request that is due leaves before the deadline, any other after it -/
theorem key_lt_iff (hn : (policy.pollAt start n).OnClock) (hd : (start + policy.timeout).OnClock)
    (hfirst : n = 0 → handle = first) (hlater : 0 < n → first + 1 < handle) :
    ((policy.requestAt id start n handle).key < (policy.deadline id start first).key ↔ policy.IsDue start n) ∧
      (¬ policy.IsDue start n → (policy.deadline id start first).key < (policy.requestAt id start n handle).key) := by
  have hiff : (policy.requestAt id start n handle).key < (policy.deadline id start first).key ↔ policy.IsDue start n := by
    rw [Event.key, Event.key, Prod.Lex.toLex_lt_toLex, IsDue, ← Time.rank_lt_iff hn hd]
    refine or_congr_right' fun hnot => ?_
    change (policy.pollAt start n).rank = (start + policy.timeout).rank ∧ handle < first + 1 ↔ _
    rcases Nat.eq_zero_or_pos n with rfl | h
    · rw [← Time.rank_le_iff hn hd, hfirst rfl]
      change ¬ (policy.pollAt start 0).rank < (start + policy.timeout).rank at hnot
      exact ⟨fun h => ⟨rfl, h.1.le⟩, fun h => ⟨h.2.antisymm (not_lt.1 hnot), Nat.lt_succ_self first⟩⟩
    · have hhandle := hlater h
      exact iff_of_false (fun hsame => lt_asymm hhandle hsame.2) fun hzero => h.ne' hzero.1
  refine ⟨hiff, fun hnot => ?_⟩
  have hle := not_lt.1 (mt hiff.1 hnot)
  refine lt_of_le_of_ne hle fun heq => ?_
  have hhandle : first + 1 = handle := congrArg (fun x => (ofLex x).2) heq
  rcases Nat.eq_zero_or_pos n with h | h
  · exact Nat.succ_ne_self first (hhandle.trans (hfirst h))
  · exact (hlater h).ne hhandle

end CollectionPolicy

/-! ## The service -/

section

variable {W : Type} [ExecutionService W]

/-- the service takes what subordinate `id` submits when it starts -/
def Takes (id : EntityId) (bundle : Bundle) (w : W) : Prop :=
  (ExecutionService.submitVms id bundle.vms w).1 = .ok () ∧
    (ExecutionService.submitTasks id bundle.tasks (ExecutionService.submitVms id bundle.vms w).2.1).1 = .ok ()

/-- the world after that -/
def taken (id : EntityId) (bundle : Bundle) (w : W) : W :=
  (ExecutionService.submitTasks id bundle.tasks (ExecutionService.submitVms id bundle.vms w).2.1).2.1

/-- the world after entity `id` has asked for its results a number of times -/
def asked (id : EntityId) : Nat → W → W
  | 0, w => w
  | n + 1, w => asked id n (ExecutionService.completedTasks id w).2.1

/-- however often entity `id` asks, the service answers with results for fewer tasks than that -/
def Withholds (id : EntityId) (tasks : Nat) (w : W) : Prop :=
  ∀ n, ∃ results, (ExecutionService.completedTasks id (asked id n w)).1 = .ok results ∧ results.length < tasks

open Reaction in
/-- a subordinate that starts plans its first request and its deadline -/
theorem Subordinate.play_start_taken {ε : Type} {s : Simulation ε Signal W} {id : EntityId} {sub : Subordinate}
    (hq : s.agenda.IsQueue) (valid : sub.policy.fault? = none) (htakes : Takes id sub.bundle s.world) :
    ∃ t, (start : Reaction Subordinate ε Signal W Unit).play id sub s =
        ((.ok (), { sub with deadline? := some (s.agenda.issued + 1) }), t) ∧
      t.core = { s.core with agenda := t.agenda, world := taken id sub.bundle s.world } ∧ t.agenda.IsQueue ∧
      ∀ e, t.agenda.Holds e ↔ (s.agenda.Holds e ∨ e = sub.policy.requestAt id s.now 0 s.agenda.issued) ∨
        e = sub.policy.deadline id s.now s.agenda.issued := by
  obtain ⟨hi, hd⟩ := CollectionPolicy.accepts valid
  obtain ⟨hvms, htasks⟩ := htakes
  have hvms : (s.exchange (ExecutionService.submitVms id sub.bundle.vms)).1 = .ok () := hvms
  have htasks : ((s.exchange (ExecutionService.submitVms id sub.bundle.vms)).2.exchange
      (ExecutionService.submitTasks id sub.bundle.tasks)).1 = .ok () := htasks
  have hself : (s.view id).self = id := rfl
  unfold start
  simp only [play_bind, play_get, play_view, play_call, hself, hvms, htasks, play_remark, play_scheduleSelf,
    play_modify]
  generalize hu : Simulation.note _ _ = u
  have hcore : u.core = { s.core with world := taken id sub.bundle s.world } := hu ▸ rfl
  have hagenda : u.agenda = s.agenda := (congrArg Simulation.agenda hcore :)
  have hnow : u.now = s.now := congrArg Agenda.now hagenda
  clear hu
  rw [← hagenda] at hq ⊢
  rw [← hnow]
  obtain ⟨a, ha, haq, hanow, haissued, hajoined⟩ := Simulation.schedule_holds hq hi id id Signal.collectResults
  obtain ⟨b, hb, hbq, -, -, hbjoined⟩ := Simulation.schedule_holds (s := { u with agenda := a }) haq hd id id
    Signal.resultsDeadline
  simp only [ha, hb, haissued]
  refine ⟨_, rfl, congrArg (fun v : Simulation ε Signal W => { v with agenda := b }) hcore, hbq, fun e => ?_⟩
  have hanow : Simulation.now { u with agenda := a } = u.now := hanow
  rw [hbjoined, hanow]
  dsimp only
  rw [hajoined, haissued]
  rfl

end

section

variable {ω W : Type} [ExecutionService W]

/-! ## Vigils -/

/-- subordinate `id` runs in a simulation without bounds, and nothing else is under way -/
structure Alone (id : EntityId) (sub : Subordinate) (s : Simulation (Agent ω) Signal W) : Prop where
  live : s.terminated = false
  unstopped : s.stopRequested = false
  idle : s.waiting = []
  unlimited : s.limits = {}
  slot : ∃ name, s.entities[id]? = some ⟨name, .running, .subordinate sub⟩

/-- subordinate `id`, which started at a time and was given the handle `first` for its first request, waits for a service
    that never has everything for it; nothing is to come but its request number `n` and its deadline -/
structure Vigil (id : EntityId) (start : Time) (first : Handle) (n : Nat) (sub : Subordinate)
    (s : Simulation (Agent ω) Signal W) : Prop extends Alone id sub s where
  valid : sub.policy.fault? = none
  undecided : (sub.collected || sub.timedOut) = false
  events : ∃ handle, (n = 0 → handle = first) ∧ (0 < n → first + 1 < handle) ∧
    ∀ e, s.agenda.Holds e ↔ e = sub.policy.requestAt id start n handle ∨ e = sub.policy.deadline id start first
  withheld : Withholds id sub.bundle.tasks.length s.world

variable {id : EntityId} {start : Time} {first : Handle} {n : Nat} {sub sub' : Subordinate}
  {s t : Simulation (Agent ω) Signal W} {e : Event Signal} {agenda : Agenda Signal}

/-- times and handles of what is to come -/
theorem Vigil.onClock (h : Vigil id start first n sub s) (hq : s.agenda.IsQueue) :
    (sub.policy.pollAt start n).OnClock ∧ (start + sub.policy.timeout).OnClock ∧ first + 1 < s.agenda.issued := by
  obtain ⟨handle, -, -, hevents⟩ := h.events
  have hr := hq.event ((hevents _).2 (.inl rfl))
  have hd := hq.event ((hevents _).2 (.inr rfl))
  exact ⟨hr.1, hd.1, hd.2⟩

variable [Guest ω W]

/-- **A subordinate that is registered,** when nothing is to come, with a service that takes what it submits and then
    never has everything, is on its vigil from then on. -/
theorem Vigil.of_register (fuel : Nat) (live : s.terminated = false) (unstopped : s.stopRequested = false)
    (idle : s.waiting = []) (unlimited : s.limits = {}) (hid : s.nextId = s.entities.size) (hq : s.agenda.IsQueue)
    (hnone : ∀ e, ¬ s.agenda.Holds e) (valid : sub.policy.fault? = none)
    (undecided : (sub.collected || sub.timedOut) = false) (htakes : Takes s.nextId sub.bundle s.world)
    (withheld : Withholds s.nextId sub.bundle.tasks.length (taken s.nextId sub.bundle s.world)) :
    ∃ t, s.register fuel (.subordinate sub) = some (.ok s.nextId, t) ∧
      Vigil s.nextId s.now s.agenda.issued 0 { sub with deadline? := some (s.agenda.issued + 1) } t := by
  let v : Simulation (Agent ω) Signal W := (s.nameNext (.subordinate sub)).2.starting s.entities.size (.subordinate sub)
  obtain ⟨u, hu, hcore, huq, hjoined⟩ := Subordinate.play_start_taken (s := v) hq valid htakes
  have hp : (Entity.start : Reaction (Agent ω) (Agent ω) Signal W Unit).play s.entities.size (.subordinate sub) v =
      ((.ok (), .subordinate { sub with deadline? := some (s.agenda.issued + 1) }), u) := by
    rw [Agent.play_start_subordinate, ← hid, hu]
    rfl
  have hwaiting : u.waiting = [] := (congrArg Simulation.waiting hcore).trans idle
  obtain ⟨t, ht, htcore, -⟩ := Simulation.register_play fuel live hid hp hwaiting
  rw [← hid] at ht
  rw [hcore] at htcore
  have hagenda : t.agenda = u.agenda := (congrArg Simulation.agenda htcore :)
  refine ⟨t, ht, ⟨?_, ?_, ?_, ?_, Named.name (Agent.subordinate sub : Agent ω), ?_⟩, valid, undecided, ?_, ?_⟩
  · exact (congrArg Simulation.terminated htcore).trans live
  · exact (congrArg Simulation.stopRequested htcore).trans unstopped
  · exact (congrArg Simulation.waiting htcore).trans idle
  · exact (congrArg Simulation.limits htcore).trans unlimited
  · have hslots : t.entities = s.entities.push _ := (congrArg Simulation.entities htcore :)
    rw [hid, hslots]
    exact Array.getElem?_push_size
  · refine ⟨s.agenda.issued, fun _ => rfl, nofun, fun e => ?_⟩
    rw [hagenda, hjoined]
    exact or_congr_left (or_iff_right (hnone e))
  · have hworld : t.world = taken s.nextId sub.bundle s.world := (congrArg Simulation.world htcore :)
    rw [hworld]
    exact withheld

namespace Alone

/-- the run rests only when no event is left -/
theorem rest?_eq (h : Alone id sub s) :
    s.rest? none = match s.agenda.nextTime? with
      | none => some (.drained, s)
      | some _ => none := by
  have hlimit : s.limitReached? = none := by
    unfold Simulation.limitReached?
    rw [h.unlimited]
    rfl
  rw [Simulation.rest?_next (by simp [h.live]) (by simp [h.unstopped]) hlimit]
  rfl

/-- the subordinate reacts to an event without an error -/
theorem deliver (h : Alone id sub s) (hid : e.target = id)
    (hplay : (Subordinate.react e : Reaction Subordinate (Agent ω) Signal W Unit).play id sub
      (({ s with agenda } : Simulation (Agent ω) Signal W).delivering e) = ((.ok (), sub'), t))
    (ht : t.core = { s.core with agenda := t.agenda, world := t.world }) :
    ∃ u, (∀ fuel, ({ s with agenda } : Simulation (Agent ω) Signal W).dispatch fuel e = some (.ok (), u)) ∧
      Alone id sub' u ∧ u.agenda = t.agenda ∧ u.world = t.world ∧ u.dispatched = s.dispatched + 1 := by
  obtain ⟨name, hslot⟩ := h.slot
  subst hid
  have hp : (Entity.react e : Reaction (Agent ω) (Agent ω) Signal W Unit).play e.target (.subordinate sub)
      (({ s with agenda } : Simulation (Agent ω) Signal W).delivering e) = ((.ok (), .subordinate sub'), t) := by
    rw [Agent.play_react_subordinate, hplay]
  obtain ⟨u, hu, hcore, hcounters⟩ := Simulation.dispatch_play (s := { s with agenda }) 0 hslot rfl hp nofun
  have hcore : u.core = { s.core with
      agenda := t.agenda
      world := t.world
      entities := s.entities.setIfInBounds e.target ⟨name, .running, .subordinate sub'⟩ } := by rw [hcore, ht]
  have hidle : u.waiting = [] := (congrArg Simulation.waiting hcore :).trans h.idle
  have hslot' : u.entities = s.entities.setIfInBounds e.target ⟨name, .running, .subordinate sub'⟩ :=
    congrArg Simulation.entities hcore
  rw [Simulation.settle_idle 0 hidle] at hu
  refine ⟨u, fun fuel => Simulation.dispatch_mono hu (Nat.zero_le fuel), ⟨?_, ?_, hidle, ?_, name, ?_⟩,
    (congrArg Simulation.agenda hcore :), (congrArg Simulation.world hcore :),
    (congrArg Simulation.Counters.dispatched hcounters :)⟩
  · exact (congrArg Simulation.terminated hcore).trans h.live
  · exact (congrArg Simulation.stopRequested hcore).trans h.unstopped
  · exact (congrArg Simulation.limits hcore).trans h.unlimited
  · rw [hslot', Array.getElem?_setIfInBounds, if_pos rfl, if_pos (Array.getElem?_eq_some_iff.1 hslot).1]

/-- the event that is due is delivered, and the run goes on -/
theorem loop_deliver (h : Alone id sub s) {u : Simulation (Agent ω) Signal W} {time : Time}
    (htime : s.agenda.nextTime? = some time) (hn : s.agenda.next? = some (e, agenda))
    (hu : ∀ fuel, ({ s with agenda } : Simulation (Agent ω) Signal W).dispatch fuel e = some (.ok (), u)) (fuel : Nat) :
    s.loop none (fuel + 1) = u.loop none fuel := by
  have hrest : s.rest? none = none := by rw [h.rest?_eq, htime]
  rw [Simulation.loop_deliver hrest hn, hu]

/-- without fuel the run is not answered -/
theorem loop_zero (h : Alone id sub s) {time : Time} (htime : s.agenda.nextTime? = some time)
    (hn : s.agenda.next? = some (e, agenda)) : s.loop none 0 = none := by
  have hrest : s.rest? none = none := by rw [h.rest?_eq, htime]
  rw [Simulation.loop, hrest]
  dsimp only
  rw [hn]

theorem loop_drained (h : Alone id sub s) (hq : s.agenda.IsQueue) (hnone : ∀ e, ¬ s.agenda.Holds e) (fuel : Nat) :
    s.loop none fuel = some (.ok .drained, s) := by
  refine Simulation.loop_rest ?_ fuel
  rw [h.rest?_eq, hq.nextTime?_eq_none hnone]

/-- a request that comes when the matter is settled is the last event of the run -/
theorem last (h : Alone id sub s) (hq : s.agenda.IsQueue) (hsettled : (sub.collected || sub.timedOut) = true)
    (hid : e.target = id) (hm : e.message = .collectResults) (hholds : ∀ f, s.agenda.Holds f ↔ f = e) :
    ∃ u, (∀ fuel, s.loop none (fuel + 1) = some (.ok .drained, u)) ∧ Alone id sub u ∧ u.now = e.time ∧
      u.dispatched = s.dispatched + 1 := by
  obtain ⟨b, hnext, htime, hb, hnow, -, hleft⟩ := hq.next? ((hholds e).2 rfl) fun f hf hne => absurd ((hholds f).1 hf) hne
  let v : Simulation (Agent ω) Signal W := { s with agenda := b }
  have hplay : (Subordinate.react e : Reaction Subordinate (Agent ω) Signal W Unit).play id sub (v.delivering e) =
      ((.ok (), sub), v.delivering e) := by
    unfold Subordinate.react
    rw [hm]
    exact Subordinate.play_collect_settled id sub _ hsettled
  obtain ⟨u, hu, hu', hagenda, -, hcount⟩ := h.deliver hid hplay rfl
  have hagenda : u.agenda = b := hagenda
  refine ⟨u, fun fuel => ?_, hu', ?_, hcount⟩
  · rw [h.loop_deliver htime hnext hu]
    refine hu'.loop_drained (hagenda ▸ hb) ?_ fuel
    intro f hf
    rw [hagenda, hleft, hholds] at hf
    exact hf.2 hf.1
  · change u.agenda.now = _
    rw [hagenda, hnow]

end Alone

namespace Vigil

/-- **A request that is due** is answered in part: another one is planned, and the vigil goes on. -/
theorem ask (h : Vigil id start first n sub s) (hq : s.agenda.IsQueue) (hdue : sub.policy.IsDue start n) :
    ∃ u results, s.loop none 0 = none ∧ (∀ fuel, s.loop none (fuel + 1) = u.loop none fuel) ∧
      Vigil id start first (n + 1) { sub with results } u ∧ u.agenda.IsQueue ∧ u.dispatched = s.dispatched + 1 := by
  obtain ⟨hr, hd, hissued⟩ := h.onClock hq
  obtain ⟨handle, hfirst, hlater, hevents⟩ := h.events
  let e := sub.policy.requestAt id start n handle
  let d := sub.policy.deadline id start first
  have hkey : e.key < d.key := (CollectionPolicy.key_lt_iff hr hd hfirst hlater).1.2 hdue
  have hleast : ∀ f, s.agenda.Holds f → f ≠ e → e.key < f.key := by
    intro f hf hne
    rcases (hevents f).1 hf with rfl | rfl
    · exact absurd rfl hne
    · exact hkey
  obtain ⟨b, hnext, htime, hb, hnow, hb', hleft⟩ := hq.next? ((hevents e).2 (.inl rfl)) hleast
  let v : Simulation (Agent ω) Signal W := { s with agenda := b }
  obtain ⟨results, hx, hlen⟩ := h.withheld 0
  have hx : ((v.delivering e).exchange (ExecutionService.completedTasks id)).1 = .ok results := hx
  let w := ((v.delivering e).exchange (ExecutionService.completedTasks id : Call W (List TaskResult))).2
  obtain ⟨c, hc, hcq, -, -, hjoined⟩ := Simulation.schedule_holds (s := w) hb (CollectionPolicy.accepts h.valid).1 id id
    Signal.collectResults
  have hplay : (Subordinate.react e : Reaction Subordinate (Agent ω) Signal W Unit).play id sub (v.delivering e) =
      ((.ok (), { sub with results }), { w with agenda := c }) := by
    have h := Subordinate.play_collect_incomplete (ε := Agent ω) id sub (v.delivering e) h.undecided hx hlen
    dsimp only at h
    rw [hc] at h
    exact h
  obtain ⟨u, hu, hu', hagenda, hworld, hcount⟩ := h.toAlone.deliver rfl hplay rfl
  have hagenda : u.agenda = c := hagenda
  have hworld : u.world = (ExecutionService.completedTasks id s.world).2.1 := hworld
  refine ⟨u, results, h.loop_zero htime hnext, h.loop_deliver htime hnext hu, ⟨hu', h.valid, h.undecided, ?_, ?_⟩,
    hagenda ▸ hcq, hcount⟩
  · refine ⟨s.agenda.issued, nofun, fun _ => hissued, fun f => ?_⟩
    have hb' : w.agenda.issued = s.agenda.issued := hb'
    have hnow : w.now = sub.policy.pollAt start n := hnow
    have hne : d ≠ e := fun heq => hkey.ne (congrArg Event.key heq).symm
    rw [hagenda, hjoined, hb', hnow]
    change b.Holds f ∨ _ ↔ _
    rw [hleft, hevents, or_comm]
    refine or_congr_right ⟨fun hf => hf.1.resolve_left hf.2, fun hf => ⟨.inr hf, hf ▸ hne⟩⟩
  · rw [hworld]
    exact fun k => h.withheld (k + 1)

/-- **When no request is due any more,** the deadline ends the vigil, and the request that was planned last is the last
    event of the run. -/
theorem giveUp (h : Vigil id start first n sub s) (hq : s.agenda.IsQueue) (hdue : ¬ sub.policy.IsDue start n) :
    ∃ u, (∀ fuel, s.loop none (fuel + 2) = some (.ok .drained, u)) ∧
      Alone id { sub with deadline? := none, timedOut := true } u ∧ u.now = sub.policy.pollAt start n ∧
      u.dispatched = s.dispatched + 2 := by
  obtain ⟨hr, hd, -⟩ := h.onClock hq
  obtain ⟨handle, hfirst, hlater, hevents⟩ := h.events
  let e := sub.policy.requestAt id start n handle
  let d := sub.policy.deadline id start first
  have hkey : d.key < e.key := (CollectionPolicy.key_lt_iff hr hd hfirst hlater).2 hdue
  have hleast : ∀ f, s.agenda.Holds f → f ≠ d → d.key < f.key := by
    intro f hf hne
    rcases (hevents f).1 hf with rfl | rfl
    · exact hkey
    · exact absurd rfl hne
  obtain ⟨b, hnext, htime, hb, -, -, hleft⟩ := hq.next? ((hevents d).2 (.inr rfl)) hleast
  let v : Simulation (Agent ω) Signal W := { s with agenda := b }
  have hcollected : sub.collected = false := (Bool.or_eq_false_iff.1 h.undecided).1
  obtain ⟨t, hplay, hcore⟩ := Subordinate.play_giveUp (ε := Agent ω) id sub (v.delivering d) hcollected
  have hagenda : t.agenda = b := (congrArg Simulation.agenda hcore :)
  have hworld : t.world = s.world := (congrArg Simulation.world hcore :)
  have hcore : t.core = { s.core with agenda := t.agenda, world := t.world } := by
    rw [hcore, hagenda, hworld]
    rfl
  obtain ⟨u, hu, hu', hagenda', -, hcount⟩ := h.toAlone.deliver (e := d) rfl hplay hcore
  have hagenda : u.agenda = b := hagenda'.trans hagenda
  have hholds : ∀ f, u.agenda.Holds f ↔ f = e := by
    intro f
    have hne : e ≠ d := fun heq => hkey.ne (congrArg Event.key heq).symm
    rw [hagenda, hleft, hevents]
    exact ⟨fun hf => hf.1.resolve_right hf.2, fun hf => ⟨.inl hf, hf ▸ hne⟩⟩
  obtain ⟨z, hz, hz', hnow, hcount'⟩ := hu'.last (hagenda ▸ hb) (Bool.or_true _) rfl rfl hholds
  refine ⟨z, fun fuel => ?_, hz', hnow, by omega⟩
  rw [h.loop_deliver htime hnext hu, hz]

/-- a vigil with `k` requests that are due -/
theorem ends {k : Nat} (h : Vigil id start first n sub s) (hq : s.agenda.IsQueue)
    (hdue : ∀ j < k, sub.policy.IsDue start (n + j)) (hlast : ¬ sub.policy.IsDue start (n + k)) :
    ∃ u sub', (∀ fuel, s.loop none (fuel + k + 2) = some (.ok .drained, u)) ∧ Alone id sub' u ∧ sub'.timedOut = true ∧
      sub'.collected = false ∧ u.now = sub.policy.pollAt start (n + k) ∧ u.dispatched = s.dispatched + k + 2 := by
  induction k generalizing n sub s with
  | zero =>
    obtain ⟨u, hu, hu', hnow, hcount⟩ := h.giveUp hq hlast
    exact ⟨u, _, hu, hu', rfl, (Bool.or_eq_false_iff.1 h.undecided).1, hnow, hcount⟩
  | succ k ih =>
    obtain ⟨t, results, -, ht, hvigil, htq, hcount⟩ := h.ask hq (hdue 0 (Nat.succ_pos k))
    have hshift : ∀ j, n + 1 + j = n + (j + 1) := fun j => by omega
    obtain ⟨u, sub', hu, hu', htimedOut, hcollected, hnow, hcount'⟩ := ih hvigil htq
      (fun j hj => by rw [hshift]; exact hdue (j + 1) (by omega)) (by rw [hshift]; exact hlast)
    rw [hshift] at hnow
    refine ⟨u, sub', fun fuel => ?_, hu', htimedOut, hcollected, hnow, by omega⟩
    rw [← hu fuel, ← ht (fuel + k + 2)]
    rfl

/-- a vigil on which a request is always due lasts for ever -/
theorem lasts (h : Vigil id start first n sub s) (hq : s.agenda.IsQueue)
    (hdue : ∀ k, sub.policy.IsDue start (n + k)) (fuel : Nat) : s.loop none fuel = none := by
  induction fuel generalizing n sub s with
  | zero =>
    obtain ⟨u, results, hzero, -⟩ := h.ask hq (hdue 0)
    exact hzero
  | succ fuel ih =>
    obtain ⟨u, results, -, hu, hvigil, huq, -⟩ := h.ask hq (hdue 0)
    rw [hu]
    refine ih hvigil huq fun k => ?_
    rw [show n + 1 + k = n + (k + 1) by omega]
    exact hdue (k + 1)

end Vigil

/-- a subordinate is shut down as it is -/
theorem Alone.finish (h : Alone id sub s) :
    ∃ name, s.finish.entities[id]? = some ⟨name, .shutdown, .subordinate sub⟩ := by
  obtain ⟨name, hslot⟩ := h.slot
  have hlt := (Array.getElem?_eq_some_iff.1 hslot).1
  obtain ⟨world, hclosed⟩ := (Simulation.finish_closed h.live).closed id hlt _ hslot rfl
  exact ⟨name, hclosed⟩

theorem Vigil.run_eq (h : Vigil id start first n sub s) (fuel : Nat) :
    s.run fuel = (s.loop none fuel).map fun (r, t) => (r, t.finish) := by
  unfold Simulation.run
  rw [h.unlimited]

/-- a run on which the clock stands still is never answered -/
theorem Vigil.run_eq_none (h : Vigil id start first n sub s) (hq : s.agenda.IsQueue) (hs : sub.policy.Stalls start)
    (fuel : Nat) : s.run fuel = none := by
  have hdue := (CollectionPolicy.stalls_iff (CollectionPolicy.accepts h.valid).1 (h.onClock hq).1).1 hs
  rw [h.run_eq, h.lasts hq hdue fuel]
  rfl

/-- a run on which the clock does not stand still is drained when every request that is due was made -/
theorem Vigil.run_eq_drained (h : Vigil id start first n sub s) (hq : s.agenda.IsQueue)
    (hs : ¬ sub.policy.Stalls start) :
    ∃ asked u sub', (∀ k < asked, sub.policy.IsDue start (n + k)) ∧ ¬ sub.policy.IsDue start (n + asked) ∧
      (∀ fuel, s.run (fuel + asked + 2) = some (.ok .drained, u.finish)) ∧ Alone id sub' u ∧ sub'.timedOut = true ∧
      sub'.collected = false ∧ u.now = sub.policy.pollAt start (n + asked) ∧ u.dispatched = s.dispatched + asked + 2 := by
  have hsome := mt (CollectionPolicy.stalls_iff (CollectionPolicy.accepts h.valid).1 (h.onClock hq).1).2 hs
  -- the first request that is not due
  obtain ⟨k, hlast, hbefore⟩ : ∃ k, ¬ sub.policy.IsDue start (n + k) ∧ ∀ j < k, sub.policy.IsDue start (n + j) := by
    classical
    have hex := not_forall.1 hsome
    exact ⟨Nat.find hex, Nat.find_spec hex, fun j hj => not_not.1 (Nat.find_min hex hj)⟩
  obtain ⟨u, sub', hu, halone, htimedOut, hcollected, hnow, hcount⟩ := h.ends hq hbefore hlast
  refine ⟨k, u, sub', hbefore, hlast, fun fuel => ?_, halone, htimedOut, hcollected, hnow, hcount⟩
  rw [h.run_eq, hu fuel]
  rfl

/-- a run of a subordinate on its vigil comes to an end if the clock resolves the interval at the deadline -/
theorem Vigil.run_drained (h : Vigil id start first n sub s) (hq : s.agenda.IsQueue)
    (hr : (start + sub.policy.timeout).Resolves sub.policy.interval) :
    ∃ fuel t, s.run fuel = some (.ok .drained, t) := by
  obtain ⟨hn, hd, -⟩ := h.onClock hq
  have hstalls := CollectionPolicy.not_stalls (CollectionPolicy.accepts h.valid).1 hn
    (CollectionPolicy.interval_pos h.valid) hd hr
  obtain ⟨asked, u, sub', -, -, hu, -⟩ := h.run_eq_drained hq hstalls
  exact ⟨_, _, hu 0⟩

/-- **A vigil ends if and only if the clock does not stand still.** A run of a subordinate that is alone with a service
    that never has everything for it is answered, with fuel enough, unless some request before the deadline comes at the
    same time as the next. If it is answered, it is drained: the subordinate asked as often as a request was due, then
    gave up, and the request that was planned last is the last event. -/
theorem Simulation.run_patient
    {admitted : Simulation (Agent ω) Signal W → Call (Agent ω) Signal → Answer → Simulation (Agent ω) Signal W → Prop}
    (hs : Reached admitted s) (h : Vigil id start first n sub s) :
    ((∃ fuel r t, s.run fuel = some (r, t)) ↔ ¬ sub.policy.Stalls start) ∧
      ∀ fuel r t, s.run fuel = some (r, t) → r = .ok .drained ∧
        (∃ name sub', t.entities[id]? = some ⟨name, .shutdown, .subordinate sub'⟩ ∧ sub'.timedOut = true ∧
          sub'.collected = false) ∧
        ∃ asked, (∀ k < asked, sub.policy.IsDue start (n + k)) ∧ ¬ sub.policy.IsDue start (n + asked) ∧
          t.stats.dispatched = s.stats.dispatched + asked + 2 ∧
          t.stats.finalTime = sub.policy.pollAt start (n + asked) := by
  have hq := hs.isQueue
  by_cases hstalls : sub.policy.Stalls start
  · have hnone := h.run_eq_none hq hstalls
    refine ⟨iff_of_false ?_ (not_not_intro hstalls), fun fuel r t ht => nomatch (hnone fuel).symm.trans ht⟩
    rintro ⟨fuel, r, t, ht⟩
    exact nomatch (hnone fuel).symm.trans ht
  · obtain ⟨k, u, sub', hbefore, hlast, hu, halone, htimedOut, hcollected, hnow, hcount⟩ :=
      h.run_eq_drained hq hstalls
    refine ⟨iff_of_true ⟨_, _, _, hu 0⟩ hstalls, fun fuel r t ht => ?_⟩
    -- more fuel does not change an answer
    have hmore : s.run (fuel + k + 2) = some (r, t) := by
      obtain ⟨⟨r', t'⟩, ht', heq⟩ := Option.map_eq_some_iff.1 ((h.run_eq fuel).symm.trans ht)
      have hloop : s.loop none (fuel + k + 2) = some (r', t') := loop_mono ht' (Nat.le_add_right fuel (k + 2))
      rw [h.run_eq, hloop]
      exact congrArg some heq
    cases (hu fuel).symm.trans hmore
    obtain ⟨name, hslot⟩ := halone.finish
    rw [stats_finish]
    exact ⟨rfl, ⟨name, sub', hslot, htimedOut, hcollected⟩, k, hbefore, hlast, hcount, hnow⟩

end

/-! ## Two vigils -/

namespace Simulation

open Standin

/-- a service that takes everything, and has no results for entity 0, ever -/
def barren : Collaborator := ⟨.canned [(0, [])], { settings := {}, stream := .ofSeed 42 }⟩

/-- it takes what it is given -/
theorem takes_barren {w : Collaborator} (hw : w.manner = barren.manner) (bundle : Bundle) :
    Takes 0 bundle w ∧ taken 0 bundle w = w := by
  obtain ⟨manner, timetable⟩ := w
  subst hw
  exact ⟨⟨rfl, rfl⟩, rfl⟩

theorem withholds_barren {w : Collaborator} (hw : w.manner = barren.manner) {tasks : Nat} (h : 0 < tasks) :
    Withholds 0 tasks w := by
  obtain ⟨manner, timetable⟩ := w
  subst hw
  have hsame : ∀ n, asked 0 n (⟨barren.manner, timetable⟩ : Collaborator) = ⟨barren.manner, timetable⟩ := by
    intro n
    induction n with
    | zero => rfl
    | succ n ih => exact ih
  intro n
  rw [hsame]
  exact ⟨[], rfl, h⟩

/-- nobody is registered yet -/
def vestibule : Simulation (Agent Empty) Signal Collaborator := fresh {} barren

/-- the patient has started, and has planned its first request and its deadline -/
def lobby : Simulation (Agent Empty) Signal Collaborator := vestibule.after 1 (.register (.subordinate patient))

/-- a signal for nobody came late -/
def evening : Simulation (Agent Empty) Signal Collaborator :=
  (vestibule.after 1 (.schedule 1e16 0 5 .monitorResources)).after 1 .step

/-- the patient in a hurry -/
def hasty : Subordinate := { patient with policy := ⟨0.5, 2⟩ }

/-- it has started in the evening -/
def lateLobby : Simulation (Agent Empty) Signal Collaborator := evening.after 1 (.register (.subordinate hasty))

theorem reached_vestibule : Reached (fun _ _ _ _ => True) vestibule := .fresh _ _

theorem reached_lobby : Reached (fun _ _ _ _ => True) lobby := by
  obtain ⟨a, ha⟩ := call_after 1 vestibule (.register (.subordinate patient)) (by decide +kernel)
  exact .call reached_vestibule ha trivial

theorem reached_evening : Reached (fun _ _ _ _ => True) evening := by
  obtain ⟨a, ha⟩ := call_after 1 vestibule (.schedule 1e16 0 5 .monitorResources) rfl
  obtain ⟨b, hb⟩ := call_after 1 (vestibule.after 1 (.schedule 1e16 0 5 .monitorResources)) .step (by decide +kernel)
  exact .call (.call reached_vestibule ha trivial) hb trivial

theorem reached_lateLobby : Reached (fun _ _ _ _ => True) lateLobby := by
  obtain ⟨a, ha⟩ := call_after 1 evening (.register (.subordinate hasty)) (by decide +kernel)
  exact .call reached_evening ha trivial

theorem vigil_of_register {s : Simulation (Agent Empty) Signal Collaborator} {sub : Subordinate}
    (hs : Reached (fun _ _ _ _ => True) s) (live : s.terminated = false) (unstopped : s.stopRequested = false)
    (idle : s.waiting = []) (unlimited : s.limits = {}) (hid : s.nextId = 0 ∧ s.entities.size = 0)
    (hnone : ∀ e ∈ s.agenda.heap.toList, False) (hworld : s.world.manner = barren.manner)
    (valid : sub.policy.fault? = none) (undecided : (sub.collected || sub.timedOut) = false)
    (htasks : 0 < sub.bundle.tasks.length) :
    Vigil 0 s.now s.agenda.issued 0 { sub with deadline? := some (s.agenda.issued + 1) }
      (s.after 1 (.register (.subordinate sub))) := by
  obtain ⟨htakes, htaken⟩ := takes_barren hworld sub.bundle
  obtain ⟨t, ht, hvigil⟩ := Vigil.of_register 1 live unstopped idle unlimited (hid.1.trans hid.2.symm) hs.isQueue
    (fun e he => hnone e he.1) valid undecided (by rwa [hid.1])
    (by rw [hid.1, htaken]; exact withholds_barren hworld htasks)
  rw [hid.1] at hvigil
  rw [after, call, ht]
  exact hvigil

theorem vigil_lobby : Vigil 0 0 0 0 { patient with deadline? := some 1 } lobby :=
  vigil_of_register reached_vestibule rfl rfl rfl rfl ⟨rfl, rfl⟩ nofun rfl (by decide +kernel) rfl (by decide +kernel)

theorem vigil_lateLobby : Vigil 0 1e16 1 0 { hasty with deadline? := some 2 } lateLobby := by
  have h : Vigil 0 evening.now evening.agenda.issued 0 { hasty with deadline? := some (evening.agenda.issued + 1) }
      lateLobby :=
    vigil_of_register reached_evening (by decide +kernel) (by decide +kernel) (by decide +kernel) (by decide +kernel)
      (by decide +kernel) (by decide +kernel) (by decide +kernel) (by decide +kernel) rfl (by decide +kernel)
  have hnow : evening.now = 1e16 := by decide +kernel
  have hissued : evening.agenda.issued = 1 := by decide +kernel
  rwa [hnow, hissued] at h

theorem run_patient_of_lobby :
    Reached (fun _ _ _ _ => True) lobby ∧ Vigil 0 0 0 0 { patient with deadline? := some 1 } lobby ∧
      ¬ patient.policy.Stalls 0 ∧ ∃ t name sub, lobby.run 7 = some (.ok .drained, t) ∧
        t.entities[0]? = some ⟨name, .shutdown, .subordinate sub⟩ ∧ sub.timedOut = true ∧ sub.collected = false := by
  obtain ⟨hiff, hrun⟩ := run_patient reached_lobby vigil_lobby
  obtain ⟨⟨r, t⟩, ht⟩ := Option.isSome_iff_exists.1 (by decide +kernel : (lobby.run 7).isSome = true)
  obtain ⟨rfl, ⟨name, sub, hslot, htimedOut, hcollected⟩, -⟩ := hrun 7 r t ht
  exact ⟨reached_lobby, vigil_lobby, hiff.1 ⟨7, _, t, ht⟩, t, name, sub, ht, hslot, htimedOut, hcollected⟩

/-- **The clock may stand still.** At so late a time half a second is lost in rounding, so that the patient in a hurry
    asks for ever, and never comes to its deadline two seconds after. -/
theorem run_stuck :
    hasty.policy.fault? = none ∧ Reached (fun _ _ _ _ => True) lateLobby ∧
      Vigil 0 1e16 1 0 { hasty with deadline? := some 2 } lateLobby ∧ ∀ fuel, lateLobby.run fuel = none := by
  have hstalls : hasty.policy.Stalls 1e16 := ⟨0, by decide +kernel, by decide +kernel⟩
  exact ⟨by decide +kernel, reached_lateLobby, vigil_lateLobby,
    vigil_lateLobby.run_eq_none reached_lateLobby.isQueue hstalls⟩

end Simulation

end BrokerSim
