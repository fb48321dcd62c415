/-
The accounts of a run that has no bounds of its own.
- `Scenario.run_accounts`: such a run drains. Every event that was issued was delivered or struck off, and how many were
  is told by the records alone: a subordinate whose first request comes no later than its deadline collects everything
  with one event and strikes the deadline off, any other gives up and takes two. The clock ends at the last of the times
  that the settings and the records tell.

`Standing` says where one subordinate stands between two events: both of its events are still to come, or it has
collected, or it has given up and its request is still to come or has come. `Balanced` keeps the accounts of a run on
track: `Balanced.served` is an event of a subordinate, `Balanced.led` one of the manager, `InBalance.step` any event.
-/
import BrokerSim.Proofs.Kernel.Moves
import BrokerSim.Proofs.Sum
import BrokerSim.Proofs.Verdict

namespace BrokerSim

/-! ## The plain queue and its clock -/

namespace Plain

variable {μ : Type} {p q : Plain μ} {e : Event μ}

/-- from `p` to `q` the clock did not go back, and no event for an entity came or went -/
structure Spares (id : EntityId) (p q : Plain μ) : Prop where
  now : p.now ≤ q.now
  live : ∀ e, e.target = id → (e ∈ q.live ↔ e ∈ p.live)

/-- what is struck off is counted -/
theorem Sound.balance_strike (hp : p.Sound) (struck? : Option Handle) :
    (p.strike struck?).cancelled + (p.strike struck?).live.length = p.cancelled + p.live.length := by
  rcases strike_cases struck? p with ⟨heq, -⟩ | ⟨h, -, hh, heq⟩
  · rw [heq]
  · have hpos : 0 < p.live.length := by
      obtain ⟨e, he, -⟩ := isPending_iff.1 hh
      exact List.length_pos_of_mem he
    rw [heq]
    change p.cancelled + 1 + (p.without h).length = _
    rw [hp.length_without hh]
    omega

theorem Spares.trans {id : EntityId} {r : Plain μ} (h : p.Spares id q) (k : q.Spares id r) : p.Spares id r :=
  ⟨Time.le_trans h.now k.now, fun e he => (k.live e he).trans (h.live e he)⟩

/-- an event for somebody else leaves -/
theorem Timely.spares_leave (ht : p.Timely) (hp : p.Sound) (hn : p.next? = some (e, q)) {id : EntityId}
    (hid : e.target ≠ id) : p.Spares id q := by
  refine ⟨(ht.leave hp hn).2, ?_⟩
  obtain ⟨he, hmem, -⟩ := hp.next?_eq hn
  intro g hg
  rw [hmem]
  refine ⟨And.left, fun h => ⟨h, fun hh => hid ?_⟩⟩
  rw [← hp.unique h he hh, hg]

/-- an event for somebody else is struck off -/
theorem Sound.spares_strike (hp : p.Sound) {struck? : Option Handle} {id : EntityId}
    (hs : ∀ e ∈ p.live, e.target = id → struck? ≠ some e.handle) : p.Spares id (p.strike struck?) := by
  refine ⟨(now_strike struck? p).symm ▸ Time.le_refl hp.now, ?_⟩
  intro e he
  rw [mem_strike]
  exact ⟨And.left, fun h => ⟨h, hs e h he⟩⟩

/-- events for somebody else join the queue -/
theorem Sound.spares_extend (hp : p.Sound) {events : List (Event μ)} {id : EntityId}
    (he : ∀ e ∈ events, e.target ≠ id) : p.Spares id (p.extend events) := by
  refine ⟨Time.le_refl hp.now, ?_⟩
  intro g hg
  change g ∈ p.live ++ events ↔ _
  rw [List.mem_append]
  exact or_iff_left fun h => he g h hg

end Plain

/-! ## One subordinate -/

namespace CollectionPolicy

variable (policy : CollectionPolicy) (id : EntityId) (start : Time) (first : Handle)

/-- the request that a subordinate plans when it starts, under the first of its two handles -/
def request : Event Signal :=
  { time := start + policy.interval, source := id, target := id, handle := first, message := .collectResults }

/-- the deadline that it plans right after the request -/
def deadline : Event Signal :=
  { time := start + policy.timeout, source := id, target := id, handle := first + 1, message := .resultsDeadline }

/-- does the request come no later than the deadline? -/
def isPrompt : Bool := start + policy.interval ≤ start + policy.timeout

variable {policy id start first}

/-- if the request leaves before the deadline, it comes no later -/
theorem isPrompt_of_key_le (ha : policy.fault? = none) (hs : start.OnClock)
    (h : (policy.request id start first).key ≤ (policy.deadline id start first).key) : policy.isPrompt start = true := by
  obtain ⟨hi, ht⟩ := CollectionPolicy.accepts ha
  rw [Event.key, Event.key, Prod.Lex.toLex_le_toLex] at h
  refine decide_eq_true ((Time.rank_le_iff (Time.onClock_add hs hi) (Time.onClock_add hs ht)).1 ?_)
  exact h.elim le_of_lt fun h => h.1.le

/-- the deadline leaves before the request only if it comes earlier: its handle is the greater one -/
theorem isPrompt_of_key_ge (ha : policy.fault? = none) (hs : start.OnClock)
    (h : (policy.deadline id start first).key ≤ (policy.request id start first).key) :
    policy.isPrompt start = false ∧ start + policy.timeout ≤ start + policy.interval := by
  obtain ⟨hi, ht⟩ := CollectionPolicy.accepts ha
  rw [Event.key, Event.key, Prod.Lex.toLex_le_toLex] at h
  have hlt : (start + policy.timeout).rank < (start + policy.interval).rank := by
    rcases h with h | ⟨-, h⟩
    · exact h
    · exact absurd h (Nat.not_succ_le_self first)
  have hle := (Time.rank_le_iff (Time.onClock_add hs ht) (Time.onClock_add hs hi)).1 hlt.le
  refine ⟨decide_eq_false fun hn => ?_, hle⟩
  exact hlt.not_ge ((Time.rank_le_iff (Time.onClock_add hs hi) (Time.onClock_add hs ht)).2 hn)

end CollectionPolicy

/-- what a new subordinate plans is not overdue -/
theorem Subordinate.IsNew.le_planned {sub : Subordinate} {policy : CollectionPolicy} (hn : sub.IsNew policy)
    (ha : policy.fault? = none) {id : EntityId} {start : Time} {first : Handle} (hs : start.OnClock) :
    ∀ e ∈ sub.planned id start first, start ≤ e.time := by
  obtain ⟨hinterval, htimeout⟩ := CollectionPolicy.accepts ha
  intro e he
  simp only [Subordinate.planned, hn.policy, List.mem_cons, List.not_mem_nil, or_false] at he
  rcases he with rfl | rfl
  · exact Time.le_add hs hinterval
  · exact Time.le_add hs htimeout

/-- where subordinate `id` stands that started at a time and was given two handles then, the first one `first` -/
structure Standing (policy : CollectionPolicy) (id : EntityId) (start : Time) (first : Handle) (sub : Subordinate)
    (p : Plain Signal) : Prop where
  onClock : start.OnClock
  waits : sub.collected = false → sub.timedOut = false → sub.deadline? = some (first + 1) ∧
    policy.request id start first ∈ p.live ∧ policy.deadline id start first ∈ p.live
  once : sub.collected = true → sub.timedOut = false
  prompt : sub.collected = true → policy.isPrompt start = true
  late : sub.timedOut = true → policy.isPrompt start = false
  /-- its deadline is still to come only while it waits, its request only until it has collected -/
  events : ∀ e ∈ p.live, e.target = id → sub.collected = false ∧
    (e = policy.request id start first ∨ e = policy.deadline id start first ∧ sub.timedOut = false)
  asked : policy.request id start first ∈ p.live ∨ start + policy.interval ≤ p.now

namespace Standing

variable {policy : CollectionPolicy} {id : EntityId} {start : Time} {first : Handle} {sub sub' : Subordinate}
  {p q : Plain Signal} {e : Event Signal}

/-- it has just started -/
theorem fresh (hp : p.Sound) (hn : sub.IsNew policy) (hid : ∀ e ∈ p.live, e.target ≠ id) :
    Standing policy id p.now p.issued { sub with deadline? := some (p.issued + 1) }
      (p.extend (sub.planned id p.now p.issued)) := by
  obtain ⟨rfl, hc, ht⟩ := hn
  have hr : sub.policy.request id p.now p.issued ∈ (p.extend (sub.planned id p.now p.issued)).live :=
    List.mem_append_right _ List.mem_cons_self
  have hd : sub.policy.deadline id p.now p.issued ∈ (p.extend (sub.planned id p.now p.issued)).live :=
    List.mem_append_right _ (List.mem_cons_of_mem _ List.mem_cons_self)
  refine ⟨hp.now, fun _ _ => ⟨rfl, hr, hd⟩, ?_, ?_, ?_, ?_, .inl hr⟩
  · exact fun h => absurd (hc.symm.trans h) (by decide)
  · exact fun h => absurd (hc.symm.trans h) (by decide)
  · exact fun h => absurd (ht.symm.trans h) (by decide)
  · intro e he heq
    rcases List.mem_append.1 he with he | he
    · exact absurd heq (hid e he)
    · simp only [Subordinate.planned, List.mem_cons, List.not_mem_nil, or_false] at he
      exact ⟨hc, he.imp_right fun h => ⟨h, ht⟩⟩

/-- what concerns others only does not touch it -/
theorem spared (h : Standing policy id start first sub p) (hq : p.Spares id q) :
    Standing policy id start first sub q where
  onClock := h.onClock
  waits := by
    intro hc ht
    obtain ⟨hd, hr, hl⟩ := h.waits hc ht
    exact ⟨hd, (hq.live _ rfl).2 hr, (hq.live _ rfl).2 hl⟩
  once := h.once
  prompt := h.prompt
  late := h.late
  events := fun e he heq => h.events e ((hq.live e heq).1 he) heq
  asked := h.asked.imp (hq.live _ rfl).2 fun hle => Time.le_trans hle hq.now

/-- what a subordinate strikes off is its own deadline, which is still to come -/
theorem struck (h : Standing policy id start first sub p) {m : Signal} {struck? : Option Handle}
    (hr : sub.Reacted m sub' struck?) {k : Handle} (hk : struck? = some k) :
    policy.deadline id start first ∈ p.live ∧ k = first + 1 := by
  cases hr with
  | collected results hs =>
    rw [Bool.or_eq_false_iff] at hs
    obtain ⟨hd, -, hl⟩ := h.waits hs.1 hs.2
    exact ⟨hl, Option.some.inj (hk.symm.trans hd)⟩
  | _ => cases hk

/-- its request leaves: it collects everything, or it has given up before -/
theorem requested (h : Standing policy id start first sub p) (ha : policy.fault? = none) (hp : p.Sound)
    (hn : p.next? = some (policy.request id start first, q)) {struck? : Option Handle}
    (hr : sub.Reacted .collectResults sub' struck?) :
    Standing policy id start first sub' (q.strike struck?) ∧
      (q.strike struck?).cancelled + sub.collected.toNat = q.cancelled + sub'.collected.toNat := by
  obtain ⟨f, hf, heq⟩ := Option.map_eq_some_iff.1 hn
  cases heq
  have hmem := mem_of_earliest? hf
  have hnow : start + policy.interval ≤ (Plain.strike struck?
      { p with now := start + policy.interval, live := p.without first }).now := by
    rw [Plain.now_strike]
    exact Time.le_refl (hp.time _ hmem)
  cases hr with
  | settled hs =>
    obtain ⟨hc, -⟩ := h.events _ hmem rfl
    have ht : sub.timedOut = true := by simpa [hc] using hs
    refine ⟨⟨h.onClock, fun _ h => absurd (ht.symm.trans h) (by decide), h.once, h.prompt, h.late, ?_, .inr hnow⟩, rfl⟩
    intro e he hid
    obtain ⟨he, hne⟩ := Plain.mem_without.1 he
    obtain ⟨-, rfl | ⟨-, hf⟩⟩ := h.events e he hid
    · exact absurd rfl hne
    · exact absurd (ht.symm.trans hf) (by decide)
  | collected results hs =>
    rw [Bool.or_eq_false_iff] at hs
    obtain ⟨hd, -, hl⟩ := h.waits hs.1 hs.2
    have hprompt := CollectionPolicy.isPrompt_of_key_le ha h.onClock (key_le_of_earliest? hp.time hf _ hl)
    refine ⟨⟨h.onClock, nofun, fun _ => hs.2, fun _ => hprompt, fun h => absurd (hs.2.symm.trans h) (by decide), ?_,
      .inr hnow⟩, ?_⟩
    · intro e he hid
      obtain ⟨he, hne⟩ := Plain.mem_strike.1 he
      obtain ⟨he, hne'⟩ := Plain.mem_without.1 he
      obtain ⟨-, rfl | ⟨rfl, -⟩⟩ := h.events e he hid
      · exact absurd rfl hne'
      · exact absurd hd hne
    · have hstill : policy.deadline id start first ∈ p.without first :=
        Plain.mem_without.2 ⟨hl, Nat.succ_ne_self first⟩
      rcases Plain.strike_cases sub.deadline? { p with now := start + policy.interval, live := p.without first } with
        ⟨-, hnone⟩ | ⟨k, -, -, heq⟩
      · exact absurd hd (hnone _ hstill)
      · rw [hs.1]
        exact congrArg Plain.cancelled heq

/-- its deadline leaves: it gives up -/
theorem expired (h : Standing policy id start first sub p) (ha : policy.fault? = none) (hp : p.Sound)
    (hn : p.next? = some (policy.deadline id start first, q)) {struck? : Option Handle}
    (hr : sub.Reacted .resultsDeadline sub' struck?) :
    Standing policy id start first sub' (q.strike struck?) ∧
      (q.strike struck?).cancelled + sub.collected.toNat = q.cancelled + sub'.collected.toNat ∧
      start + policy.timeout ≤ start + policy.interval := by
  obtain ⟨f, hf, heq⟩ := Option.map_eq_some_iff.1 hn
  cases heq
  have hmem := mem_of_earliest? hf
  obtain ⟨hc, heq | ⟨-, ht⟩⟩ := h.events _ hmem rfl
  · exact nomatch (congrArg Event.message heq : Signal.resultsDeadline = .collectResults)
  obtain ⟨-, hl, -⟩ := h.waits hc ht
  obtain ⟨hlate, hle⟩ := CollectionPolicy.isPrompt_of_key_ge ha h.onClock (key_le_of_earliest? hp.time hf _ hl)
  cases hr with
  | passed hs => exact absurd (hc.symm.trans hs) (by decide)
  | gaveUp =>
    have hopen : ¬ sub.collected = true := by simp [hc]
    refine ⟨⟨h.onClock, nofun, fun h => absurd h hopen, fun h => absurd h hopen, fun _ => hlate, ?_, .inl ?_⟩, rfl, hle⟩
    · intro e he hid
      obtain ⟨he, hne⟩ := Plain.mem_without.1 he
      obtain ⟨-, rfl | ⟨rfl, -⟩⟩ := h.events e he hid
      · exact ⟨hc, .inl rfl⟩
      · exact absurd rfl hne
    · exact Plain.mem_without.2 ⟨hl, (Nat.succ_ne_self first).symm⟩

/-- one event of a subordinate leaves -/
theorem reacted (h : Standing policy id start first sub p) (ha : policy.fault? = none) (hp : p.Sound)
    (hn : p.next? = some (e, q)) (hid : e.target = id) {struck? : Option Handle}
    (hr : sub.Reacted e.message sub' struck?) :
    Standing policy id start first sub' (q.strike struck?) ∧
      (q.strike struck?).cancelled + sub.collected.toNat = q.cancelled + sub'.collected.toNat ∧
      e.time ≤ start + policy.interval := by
  obtain ⟨f, hf, heq⟩ := Option.map_eq_some_iff.1 hn
  have he : e ∈ p.live := by
    cases heq
    exact mem_of_earliest? hf
  obtain ⟨-, rfl | ⟨rfl, -⟩⟩ := h.events e he hid
  · obtain ⟨hstanding, hcount⟩ := h.requested ha hp hn hr
    exact ⟨hstanding, hcount, Time.le_refl (hp.time _ he)⟩
  · exact h.expired ha hp hn hr

/-- when nothing is to come any more, it has collected if its request came no later than its deadline, and else given
    up; its request has left -/
theorem ended (h : Standing policy id start first sub p) (hl : p.live = []) :
    sub.collected = policy.isPrompt start ∧ sub.timedOut = !policy.isPrompt start ∧ start + policy.interval ≤ p.now := by
  have hnone : ∀ e, e ∉ p.live := fun e he => List.not_mem_nil (hl ▸ he)
  have hleft := h.asked.resolve_left (hnone _)
  cases hc : sub.collected with
  | true => rw [h.once hc, h.prompt hc]; exact ⟨rfl, rfl, hleft⟩
  | false =>
    cases ht : sub.timedOut with
    | true => rw [h.late ht]; exact ⟨rfl, rfl, hleft⟩
    | false => exact absurd (h.waits hc ht).2.1 (hnone _)

end Standing

/-! ## Counting -/

theorem countP_setIfInBounds {α : Type} (p : α → Bool) {xs : Array α} {i : Nat} {old : α} (new : α)
    (h : xs[i]? = some old) : (xs.setIfInBounds i new).countP p + (p old).toNat = xs.countP p + (p new).toNat := by
  obtain ⟨hi, rfl⟩ := Array.getElem?_eq_some_iff.1 h
  rw [Array.setIfInBounds, dif_pos hi, Array.countP_set]
  have hpos : p xs[i] = true → 0 < xs.countP p := fun h => Array.countP_pos_iff.2 ⟨_, Array.getElem_mem hi, h⟩
  cases hx : p xs[i] <;> cases hn : p new <;> simp_all

/-- a tally of one kind of error -/
theorem Tally.met_of_count {t : Tally} {kind : ErrorKind} {n : Nat} (h : ∀ k, t.count k = if kind = k then n else 0) :
    t.met = if n = 0 then [] else [(kind, n)] := by
  unfold met
  rcases n with _ | n <;> cases kind <;> simp [ErrorKind.all, h]

/-- has the entity at this place collected everything? -/
def Slot.hasCollected (slot : Slot (Agent Empty)) : Bool := slot.entity.subordinate?.any (·.collected)

namespace Scenario

variable {settings : RunSettings} {done : List ScheduledAction} {todo : List (ScheduledAction × Handle)} {l : Ledger}
  {s u : Run} {p q q' : Plain Signal} {e : Event Signal}

/-- a run on track after the actions `done`, with its accounts -/
structure Balanced (settings : RunSettings) (done : List ScheduledAction) (todo : List (ScheduledAction × Handle))
    (l : Ledger) (s : Run) (p : Plain Signal) : Prop where
  track : OnTrack settings todo l s p
  plan : (done ++ todo.map Prod.fst).Perm settings.manager.schedule
  timely : p.Timely
  issued : p.issued = settings.manager.schedule.length + 2 * l.records.length
  balance : s.dispatched + p.cancelled + p.live.length = p.issued
  cancelled : p.cancelled = s.entities.countP Slot.hasCollected
  registered : s.registered = l.records.length + 1
  spawned : s.spawned = l.records.length
  tally : ∀ k, s.recoverable.count k = if ErrorKind.entityCreation = k then l.failures.length else 0
  past : ∀ a ∈ done, 0 + a.delay ≤ p.now
  /-- the clock shows the time of an action, or no more than the time of a request -/
  reach : p.now = 0 ∨ (∃ a ∈ done, p.now = 0 + a.delay) ∨
    ∃ r ∈ l.records, p.now ≤ r.createdAt + settings.manager.policy.interval
  policy : l.records ≠ [] → settings.manager.policy.fault? = none
  crew : ∀ k r, l.records[k]? = some r → r.subordinateId = k + 1 ∧
    ∃ name sub first, s.entities[k + 1]? = some ⟨name, .running, .subordinate sub⟩ ∧
      Standing settings.manager.policy (k + 1) r.createdAt first sub p

/-- every event to come is for somebody in the registry -/
theorem OnTrack.target_lt (h : OnTrack settings todo l s p) (he : e ∈ p.live) : e.target < s.entities.size := by
  by_cases hn : e.handle < settings.manager.schedule.length
  · have hmem := h.awaits.todo.mem_iff.1 (List.mem_filter.2 ⟨he, decide_eq_true hn⟩)
    obtain ⟨x, -, rfl⟩ := List.mem_map.1 hmem
    exact h.size ▸ Nat.succ_pos _
  · exact (h.awaits.rest e he (not_lt.1 hn)).2.1

/-- a subordinate in the registry is that of some record -/
theorem Balanced.of_slot (h : Balanced settings done todo l s p) {id : EntityId} {name : String} {sub : Subordinate}
    (hs : s.entities[id]? = some ⟨name, .running, .subordinate sub⟩) :
    ∃ k r first, id = k + 1 ∧ l.records[k]? = some r ∧
      Standing settings.manager.policy (k + 1) r.createdAt first sub p := by
  obtain ⟨k, rfl⟩ : ∃ k, id = k + 1 := by
    refine Nat.exists_eq_succ_of_ne_zero fun h0 => ?_
    obtain ⟨_, _, hm, -⟩ := h.track.staffed.manager
    rw [h0, hm] at hs
    cases hs
  have hlt : k < l.records.length := by
    have hlt := (Array.getElem?_eq_some_iff.1 hs).1
    rw [h.track.size] at hlt
    exact Nat.lt_of_succ_lt_succ hlt
  obtain ⟨-, _, _, first, hslot, hstanding⟩ := h.crew k _ (List.getElem?_eq_getElem hlt)
  cases hs.symm.trans hslot
  exact ⟨k, _, first, rfl, List.getElem?_eq_getElem hlt, hstanding⟩

/-- an event of a subordinate is delivered -/
theorem Balanced.served (h : Balanced settings done todo l s p) (hn : p.next? = some (e, q))
    (hon : OnTrack settings todo l u q') (hs : Served e q s u q') : Balanced settings done todo l u q' := by
  obtain ⟨⟨name, sub, sub', struck?, hslot, hreacted, rfl, hentities⟩, hcounters⟩ := hs
  have hp := h.track.sound
  obtain ⟨he, hsub, hnow, hissued, hcancelled, hlength⟩ := hp.next?_eq hn
  have hq := hp.next? hn
  obtain ⟨k, r, first, hk, hr, hstanding⟩ := h.of_slot hslot
  rw [hk] at hslot hentities
  obtain ⟨hstanding', hcount, htime⟩ :=
    hstanding.reacted (h.policy (List.ne_nil_of_mem (List.mem_of_getElem? hr))) hp hn hk hreacted
  have hspared : ∀ id, id ≠ k + 1 → p.Spares id (q.strike struck?) := by
    intro id hid
    refine (h.timely.spares_leave hp hn (hk ▸ hid.symm)).trans (hq.spares_strike ?_)
    intro f hf hfid hstruck
    obtain ⟨hl, hh⟩ := hstanding.struck hreacted hstruck
    cases hp.unique ((hsub f).1 hf).1 hl hh
    exact hid hfid.symm
  have hnow' : (q.strike struck?).now = e.time := (Plain.now_strike struck? q).trans hnow
  have hle : p.now ≤ (q.strike struck?).now := hnow' ▸ h.timely e he
  have hdispatched : u.dispatched = s.dispatched + 1 := (congrArg Simulation.Counters.dispatched hcounters :)
  have hregistered : u.registered = s.registered := (congrArg Simulation.Counters.registered hcounters :)
  have hspawned : u.spawned = s.spawned := (congrArg Simulation.Counters.spawned hcounters :)
  have hrecoverable : u.recoverable = s.recoverable := (congrArg Simulation.Counters.recoverable hcounters :)
  constructor
  case track => exact hon
  case plan => exact h.plan
  case timely => exact (h.timely.leave hp hn).1.strike struck?
  case issued => rw [Plain.issued_strike, hissued, h.issued]
  case balance =>
    have := hq.balance_strike struck?
    have := h.balance
    rw [Plain.issued_strike, hissued, hdispatched]
    omega
  case cancelled =>
    have := countP_setIfInBounds Slot.hasCollected ⟨name, .running, .subordinate sub'⟩ hslot
    change _ + sub.collected.toNat = _ + sub'.collected.toNat at this
    have := h.cancelled
    rw [hentities]
    omega
  case registered => exact hregistered.trans h.registered
  case spawned => exact hspawned.trans h.spawned
  case tally =>
    rw [hrecoverable]
    exact h.tally
  case past => exact fun a ha => Time.le_trans (h.past a ha) hle
  case reach => exact .inr (.inr ⟨r, List.mem_of_getElem? hr, hnow' ▸ htime⟩)
  case policy => exact h.policy
  case crew =>
    intro j r' hr'
    obtain ⟨hid, name', sub'', first', hslot', hstanding''⟩ := h.crew j r' hr'
    refine ⟨hid, ?_⟩
    rw [hentities]
    by_cases hj : j = k
    · subst hj
      cases hr.symm.trans hr'
      exact ⟨name, sub', first, Array.getElem?_setIfInBounds_self_of_lt (Array.getElem?_eq_some_iff.1 hslot).1,
        hstanding'⟩
    · have hne : j + 1 ≠ k + 1 := fun h => hj (Nat.succ.inj h)
      refine ⟨name', sub'', first', ?_, hstanding''.spared (hspared _ hne)⟩
      rw [Array.getElem?_setIfInBounds_ne hne.symm]
      exact hslot'

/-- the tally after an action -/
theorem Balanced.tally_survive {l' : Ledger} (h : Balanced settings done todo l s p) {r : Except SimError Unit}
    (ht : l.Told l' r) (k : ErrorKind) :
    ({ s.counters with dispatched := s.dispatched + 1 }.survive r).recoverable.count k =
      if ErrorKind.entityCreation = k then l'.failures.length else 0 := by
  rcases ht with ⟨rfl, hf⟩ | ⟨failure, rfl, hf⟩
  · rw [hf]
    exact h.tally k
  · change (s.recoverable.add .entityCreation).count k = _
    rw [Tally.count_add, h.tally k, hf, List.length_append]
    split_ifs <;> rfl

/-- the event of an action leaves: the action is done at its time, and no subordinate is touched -/
theorem Balanced.leave {x : ScheduledAction × Handle} (h : Balanced settings done (x :: todo) l s p)
    (hn : p.next? = some (Manager.planned 0 0 x, q)) :
    ((done ++ [x.1]) ++ todo.map Prod.fst).Perm settings.manager.schedule ∧
      (∀ a ∈ done ++ [x.1], 0 + a.delay ≤ q.now) ∧ (∃ a ∈ done ++ [x.1], q.now = 0 + a.delay) ∧
      ∀ k, p.Spares (k + 1) q := by
  obtain ⟨-, -, hnow, -⟩ := h.track.sound.next?_eq hn
  have hnow : q.now = 0 + x.1.delay := hnow
  have hspared : ∀ k, p.Spares (k + 1) q := fun k =>
    h.timely.spares_leave h.track.sound hn (Nat.succ_ne_zero k).symm
  refine ⟨?_, ?_, ⟨x.1, List.mem_append_right _ List.mem_cons_self, hnow⟩, hspared⟩
  · rw [List.append_assoc]
    exact h.plan
  · intro a ha
    rcases List.mem_append.1 ha with ha | ha
    · exact Time.le_trans (h.past a ha) (hspared 0).now
    · rw [List.mem_singleton.1 ha, hnow]
      exact Time.le_refl (hnow ▸ (h.track.sound.next? hn).now)

/-- the manager collects nothing -/
theorem Balanced.countP_setManager (h : Balanced settings done todo l s p) (name : String) (m : Manager) :
    (s.entities.setIfInBounds 0 ⟨name, .running, .manager m⟩).countP Slot.hasCollected = p.cancelled := by
  obtain ⟨_, _, hmanager, -⟩ := h.track.staffed.manager
  rw [h.cancelled]
  exact countP_setIfInBounds Slot.hasCollected ⟨name, .running, .manager m⟩ hmanager

/-- the slot of a subordinate after the manager has acted -/
theorem Balanced.slot_setManager (h : Balanced settings done todo l s p) (name : String) (m : Manager) {k : Nat}
    {r : ManagedRecord} (hr : l.records[k]? = some r) :
    r.subordinateId = k + 1 ∧ ∃ name' sub first,
      (s.entities.setIfInBounds 0 ⟨name, .running, .manager m⟩)[k + 1]? = some ⟨name', .running, .subordinate sub⟩ ∧
        Standing settings.manager.policy (k + 1) r.createdAt first sub p := by
  obtain ⟨hid, name', sub, first, hslot, hstanding⟩ := h.crew k r hr
  refine ⟨hid, name', sub, first, ?_, hstanding⟩
  rw [Array.getElem?_setIfInBounds_ne (Nat.succ_ne_zero k).symm]
  exact hslot

/-- the crew after the manager has acted and a subordinate has joined -/
theorem Balanced.crew_push (h : Balanced settings done todo l s p) (name : String) (m : Manager)
    {record : ManagedRecord} (hid : record.subordinateId = l.records.length + 1) {name' : String} {sub : Subordinate}
    {first : Handle}
    (hnew : Standing settings.manager.policy (l.records.length + 1) record.createdAt first sub q)
    (hspared : ∀ k < l.records.length, p.Spares (k + 1) q) {k : Nat} {r : ManagedRecord}
    (hr : (l.records ++ [record])[k]? = some r) :
    r.subordinateId = k + 1 ∧ ∃ name'' sub' first',
      ((s.entities.setIfInBounds 0 ⟨name, .running, .manager m⟩).push ⟨name', .running, .subordinate sub⟩)[k + 1]? =
        some ⟨name'', .running, .subordinate sub'⟩ ∧
      Standing settings.manager.policy (k + 1) r.createdAt first' sub' q := by
  have hsize : (s.entities.setIfInBounds 0 ⟨name, .running, .manager m⟩).size = l.records.length + 1 :=
    Array.size_setIfInBounds.trans h.track.size
  by_cases hk : k < l.records.length
  · rw [List.getElem?_append_left hk] at hr
    obtain ⟨hid, name'', sub', first', hslot, hstanding⟩ := h.slot_setManager name m hr
    obtain ⟨hlt, heq⟩ := Array.getElem?_eq_some_iff.1 hslot
    refine ⟨hid, name'', sub', first', ?_, hstanding.spared (hspared k hk)⟩
    rw [Array.getElem?_push_lt hlt, heq]
  · have hlt : k < l.records.length + 1 := by simpa using (List.getElem?_eq_some_iff.1 hr).1
    obtain rfl : k = l.records.length := Nat.le_antisymm (Nat.lt_succ_iff.1 hlt) (not_lt.1 hk)
    rw [List.getElem?_concat_length] at hr
    cases hr
    refine ⟨hid, name', sub, first, ?_, hnew⟩
    rw [← hsize, Array.getElem?_push_size]

/-- an action is done that adds no record -/
theorem Balanced.acted {x : ScheduledAction × Handle} {l' : Ledger}
    (h : Balanced settings done (x :: todo) l s p) (hn : p.next? = some (Manager.planned 0 0 x, q))
    (hon : OnTrack settings todo l' u q) (hsame : l'.records = l.records) {r : Except SimError Unit}
    (told : l.Told l' r) {name : String} {m : Manager}
    (entities : u.entities = s.entities.setIfInBounds 0 ⟨name, .running, .manager m⟩)
    (counters : u.counters = { s.counters with dispatched := s.dispatched + 1 }.survive r) :
    Balanced settings (done ++ [x.1]) todo l' u q := by
  have hp := h.track.sound
  obtain ⟨-, -, -, hissued, hcancelled, hlength⟩ := hp.next?_eq hn
  obtain ⟨hplan, hpast, hreach, hspared⟩ := h.leave hn
  have hrest := counters.trans (Simulation.Counters.survive_eq r _)
  have hdispatched : u.dispatched = s.dispatched + 1 := (congrArg Simulation.Counters.dispatched hrest :)
  have hregistered : u.registered = s.registered := (congrArg Simulation.Counters.registered hrest :)
  have hspawned : u.spawned = s.spawned := (congrArg Simulation.Counters.spawned hrest :)
  constructor
  case track => exact hon
  case plan => exact hplan
  case timely => exact (h.timely.leave hp hn).1
  case issued => rw [hsame, hissued, h.issued]
  case balance =>
    have := h.balance
    omega
  case cancelled => rw [entities, h.countP_setManager, hcancelled]
  case registered =>
    rw [hregistered, hsame]
    exact h.registered
  case spawned =>
    rw [hspawned, hsame]
    exact h.spawned
  case tally =>
    intro k
    have hk := h.tally_survive told k
    rw [← counters] at hk
    exact hk
  case past => exact hpast
  case reach => exact .inr (.inl hreach)
  case policy =>
    rw [hsame]
    exact h.policy
  case crew =>
    intro k r' hr
    rw [hsame] at hr
    obtain ⟨hid, name', sub, first, hslot, hstanding⟩ := h.slot_setManager name m hr
    exact ⟨hid, name', sub, first, by rw [entities, hslot], hstanding.spared (hspared k)⟩

/-- an action is done that adds a record, and the subordinate of the record has started -/
theorem Balanced.hired {x : ScheduledAction × Handle} {l' : Ledger}
    (h : Balanced settings done (x :: todo) l s p) (hn : p.next? = some (Manager.planned 0 0 x, q)) {sub : Subordinate}
    (hon : OnTrack settings todo l' u (q.extend (sub.planned s.entities.size q.now q.issued)))
    {record : ManagedRecord} (hmore : l'.records = l.records ++ [record])
    (hid : record.subordinateId = l.records.length + 1) (hcreated : record.createdAt = q.now)
    {r : Except SimError Unit} (told : l.Told l' r) (policy : settings.manager.policy.fault? = none)
    (new : sub.IsNew settings.manager.policy) {name name' : String} {m : Manager}
    (entities : u.entities = (s.entities.setIfInBounds 0 ⟨name, .running, .manager m⟩).push
      ⟨name', .running, .subordinate { sub with deadline? := some (q.issued + 1) }⟩)
    (counters : u.counters = { { s.counters with dispatched := s.dispatched + 1 }.survive r with
      registered := s.registered + 1, spawned := s.spawned + 1 }) :
    Balanced settings (done ++ [x.1]) todo l' u (q.extend (sub.planned s.entities.size q.now q.issued)) := by
  have hp := h.track.sound
  have hq := hp.next? hn
  obtain ⟨-, hsub, -, hissued, hcancelled, hlength⟩ := hp.next?_eq hn
  obtain ⟨hplan, hpast, hreach, hspared⟩ := h.leave hn
  have hsize := h.track.size
  have hlength' : l'.records.length = l.records.length + 1 := by rw [hmore, List.length_append]; rfl
  have hdispatched : u.dispatched = s.dispatched + 1 :=
    (congrArg Simulation.Counters.dispatched counters).trans
      (congrArg Simulation.Counters.dispatched (Simulation.Counters.survive_eq r _))
  constructor
  case track => exact hon
  case plan => exact hplan
  case timely => exact (h.timely.leave hp hn).1.extend (new.le_planned policy hq.now)
  case issued =>
    change q.issued + 2 = _
    rw [hlength', hissued, h.issued]
    omega
  case balance =>
    change u.dispatched + q.cancelled + (q.live ++ _).length = q.issued + 2
    rw [List.length_append]
    change _ + (_ + 2) = _
    have := h.balance
    omega
  case cancelled =>
    change q.cancelled = _
    have hopen : Slot.hasCollected ⟨name', .running, .subordinate { sub with deadline? := some (q.issued + 1) }⟩ =
      false := new.collected
    rw [entities, Array.countP_push, h.countP_setManager, hcancelled, hopen]
    rfl
  case registered =>
    have hu : u.registered = s.registered + 1 := (congrArg Simulation.Counters.registered counters :)
    rw [hu, hlength', h.registered]
  case spawned =>
    have hu : u.spawned = s.spawned + 1 := (congrArg Simulation.Counters.spawned counters :)
    rw [hu, hlength', h.spawned]
  case tally =>
    intro k
    have hu := (congrArg Simulation.Counters.recoverable counters :)
    exact (congrArg (Tally.count · k) hu).trans (h.tally_survive told k)
  case past => exact hpast
  case reach => exact .inr (.inl hreach)
  case policy => exact fun _ => policy
  case crew =>
    intro k r' hr
    have hnew : Standing settings.manager.policy (l.records.length + 1) record.createdAt q.issued
        { sub with deadline? := some (q.issued + 1) } (q.extend (sub.planned s.entities.size q.now q.issued)) := by
      rw [hcreated, ← hsize]
      exact Standing.fresh hq new fun f hf => (h.track.target_lt ((hsub f).1 hf).1).ne
    rw [hmore] at hr
    rw [entities]
    refine h.crew_push name m hid hnew ?_ hr
    intro k hk
    refine (hspared k).trans (hq.spares_extend fun f hf => ?_)
    rw [(Subordinate.mem_planned _ _ hf).2.1, hsize]
    exact fun h => hk.ne (Nat.succ.inj h).symm

/-- an event of the manager is delivered -/
theorem Balanced.led {x : ScheduledAction × Handle} (h : Balanced settings done (x :: todo) l s p)
    (hn : p.next? = some (Manager.planned 0 0 x, q)) (hon : OnTrack settings todo (l.act settings.manager x.1) u q')
    (hl : Led settings q s l u (l.act settings.manager x.1) q') :
    Balanced settings (done ++ [x.1]) todo (l.act settings.manager x.1) u q' := by
  have hrecords := l.records_act settings.manager x.1
  cases hl with
  | acted name m r records told queue entities counters =>
    subst queue
    rcases hrecords with hsame | ⟨record, hmore, -⟩
    · exact h.acted hn hon hsame told entities counters
    · rw [hmore, List.length_append] at records
      exact absurd records (Nat.succ_ne_self _)
  | hired name name' m sub r records told policy new queue entities counters =>
    subst queue
    rcases hrecords with hsame | ⟨record, hmore, hid, hcreated⟩
    · rw [hsame] at records
      exact absurd records (Nat.succ_ne_self _).symm
    · have hnow : q.now = 0 + x.1.delay := (h.track.sound.next?_eq hn).2.2.1
      exact h.hired hn hon hmore hid (hcreated.trans hnow.symm) told policy new entities counters

/-! ## A run under way -/

/-- the manager has just been registered: nothing is done, and nothing counted but the manager -/
theorem Balanced.fresh
    (h : OnTrack settings todo { strategy := settings.manager.initialStrategy } s
      (({} : Plain Signal).extend (settings.manager.schedule.zipIdx.map (Manager.planned 0 0))))
    (hp : todo.Perm settings.manager.schedule.zipIdx)
    (hd : ∀ a ∈ settings.manager.schedule, Agenda.accepts a.delay = true)
    (hc : s.counters = { dispatched := 0, registered := 1, spawned := 0, recoverable := {} }) :
    Balanced settings [] todo { strategy := settings.manager.initialStrategy } s
      (({} : Plain Signal).extend (settings.manager.schedule.zipIdx.map (Manager.planned 0 0))) := by
  have hdispatched : s.dispatched = 0 := congrArg Simulation.Counters.dispatched hc
  constructor
  case track => exact h
  case plan =>
    have hplan := hp.map Prod.fst
    rwa [List.zipIdx_map_fst] at hplan
  case timely =>
    refine Plain.Timely.extend (fun e he => absurd he List.not_mem_nil) fun e he => ?_
    obtain ⟨x, hx, rfl⟩ := List.mem_map.1 he
    exact Time.le_add Time.onClock_zero (hd x.1 (List.fst_mem_of_mem_zipIdx hx))
  case issued => simp [Plain.extend]
  case balance => simp [Plain.extend, hdispatched]
  case cancelled =>
    symm
    refine Array.countP_eq_zero.2 ?_
    intro slot hslot
    obtain ⟨i, hi, rfl⟩ := Array.mem_iff_getElem.1 hslot
    have hi0 : i = 0 := Nat.lt_one_iff.1 (hi.trans_eq h.size)
    subst hi0
    obtain ⟨name, m, hm, -⟩ := h.staffed.manager
    rw [(Array.getElem?_eq_some_iff.1 hm).2]
    exact Bool.false_ne_true
  case registered => exact congrArg Simulation.Counters.registered hc
  case spawned => exact congrArg Simulation.Counters.spawned hc
  case tally =>
    intro k
    have hr : s.recoverable = {} := congrArg Simulation.Counters.recoverable hc
    rw [hr]
    cases k <;> rfl
  case past =>
    intro a ha
    cases ha
  case reach => exact .inl rfl
  case policy => exact fun h => absurd rfl h
  case crew =>
    intro k r hr
    cases hr

/-- a run whose accounts are in order and in which no more than `k` events are still delivered -/
def InBalance (settings : RunSettings) (k : Nat) (s : Run) : Prop :=
  ∃ done todo l p, todo.Pairwise (fun x y => (Manager.planned 0 0 x).key ≤ (Manager.planned 0 0 y).key) ∧
    Balanced settings done todo l s p ∧ 2 * todo.length + p.live.length = k

/-- **One event of a run keeps the accounts in order.** -/
theorem InBalance.step {k : Nat} {horizon : Option Time} (h : InBalance settings k s)
    (hr : s.rest? horizon = none) :
    ∃ e agenda, s.agenda.next? = some (e, agenda) ∧ ∀ fuel, ∃ j u,
      ({ s with agenda } : Run).dispatch (fuel + 1) e = some (.ok (), u) ∧ j < k ∧ InBalance settings j u := by
  obtain ⟨done, todo, l, p, hs, hb, rfl⟩ := h
  obtain ⟨e, agenda, q, hnext, hp, hq⟩ := hb.track.next hr
  refine ⟨e, agenda, hnext, ?_⟩
  intro fuel
  obtain ⟨u, q', todo', hu, hlt, hcases⟩ := hb.track.step hs hq hp fuel
  refine ⟨_, u, hu, hlt, ?_⟩
  rcases hcases with ⟨rfl, hon, hserved⟩ | ⟨x, rfl, rfl, hon, hled⟩
  · exact ⟨done, todo', l, q', hs, hb.served hp hon hserved, rfl⟩
  · exact ⟨_, todo', _, q', (List.pairwise_cons.1 hs).2, hb.led hp hon hled, rfl⟩

/-- without bounds, a run comes to rest only when nothing is left to do -/
theorem OnTrack.drained (h : OnTrack settings todo l s p) (hm : settings.limits.maxEvents? = none)
    {outcome : RunOutcome} (hr : s.rest? none = some (outcome, u)) :
    outcome = .drained ∧ u = s ∧ p.live = [] ∧ todo = [] := by
  rw [h.rest?_eq hm] at hr
  cases hn : p.next? with
  | some x =>
    rw [Plain.nextTime?, hn] at hr
    cases hr
  | none =>
    have hlive := h.sound.next
    rw [hn] at hlive
    rw [Plain.nextTime?, hn] at hr
    cases hr
    refine ⟨rfl, rfl, hlive, ?_⟩
    have htodo := h.awaits.todo
    rwa [hlive, List.filter_nil, List.nil_perm, List.map_eq_nil_iff] at htodo

/-! ## The accounts of a whole run -/

/-- did the subordinate of this record ask for its results no later than its deadline? -/
def isPrompt (settings : RunSettings) (r : ManagedRecord) : Bool := settings.manager.policy.isPrompt r.createdAt

/-- the accounts of a run that came to its end -/
structure Accounts (settings : RunSettings) (summary : RunSummary) (s : Run) : Prop where
  outcome : summary.outcome? = some .drained
  /-- one event for an action; one for a subordinate that collected, and two for one that gave up -/
  dispatched : summary.stats.dispatched = settings.manager.schedule.length +
    summary.records.countP (isPrompt settings) + 2 * summary.records.countP (!isPrompt settings ·)
  cancelled : summary.stats.cancelled = summary.records.countP (isPrompt settings)
  spawned : summary.stats.spawned = summary.records.length
  registered : summary.stats.registered = summary.stats.spawned + 1
  recoverable : summary.stats.recoverable.met =
    if summary.creationFailures.length = 0 then [] else [(.entityCreation, summary.creationFailures.length)]
  finalTime : IsGreatest {t : Time | t = 0 ∨ (∃ a ∈ settings.manager.schedule, t = a.delay) ∨
    ∃ r ∈ summary.records, t = r.createdAt + settings.manager.policy.interval} summary.stats.finalTime
  /-- behind the manager there are the subordinates of the records, and nobody else -/
  size : s.entities.size = summary.records.length + 1
  subordinate : ∀ k r, summary.records[k]? = some r → r.subordinateId = k + 1 ∧
    ∃ name sub, s.entities[k + 1]? = some ⟨name, .shutdown, .subordinate sub⟩ ∧
      sub.collected = isPrompt settings r ∧ sub.timedOut = !isPrompt settings r

/-- in the end, those have collected whose request was prompt -/
theorem Balanced.countP_collected (h : Balanced settings done todo l s p) (hl : p.live = []) :
    s.entities.countP Slot.hasCollected = l.records.countP (isPrompt settings) := by
  obtain ⟨name, m, hmanager, -⟩ := h.track.staffed.manager
  rw [← Array.countP_toList]
  rw [← Array.getElem?_toList] at hmanager
  have hsize : s.entities.toList.length = l.records.length + 1 := h.track.size
  have hcrew : ∀ k r, l.records[k]? = some r → ∃ slot, s.entities.toList[k + 1]? = some slot ∧
      slot.hasCollected = isPrompt settings r := by
    intro k r hr
    obtain ⟨-, name, sub, first, hslot, hstanding⟩ := h.crew k r hr
    rw [← Array.getElem?_toList] at hslot
    exact ⟨_, hslot, (hstanding.ended hl).1⟩
  cases hslots : s.entities.toList with
  | nil =>
    rw [hslots] at hmanager
    cases hmanager
  | cons slot slots =>
    rw [hslots] at hmanager hsize hcrew
    cases hmanager
    have hmap : slots.map Slot.hasCollected = l.records.map (isPrompt settings) := by
      refine List.ext_getElem? fun k => ?_
      rw [List.getElem?_map, List.getElem?_map]
      cases hr : l.records[k]? with
      | none =>
        have hlt := List.getElem?_eq_none_iff.1 hr
        rw [List.getElem?_eq_none (Nat.succ.inj hsize ▸ hlt)]
        rfl
      | some r =>
        obtain ⟨slot, hslot, hc⟩ := hcrew k r hr
        rw [List.getElem?_cons_succ] at hslot
        rw [hslot]
        exact congrArg some hc
    have hcount := congrArg (List.countP id) hmap
    rw [List.countP_map, List.countP_map] at hcount
    exact (List.countP_cons_of_neg Bool.false_ne_true).trans hcount

/-- the clock of a run that has drained shows the last of the times that anything was planned for -/
theorem Balanced.isGreatest_now (h : Balanced settings done [] l s p)
    (hd : ∀ a ∈ settings.manager.schedule, Agenda.accepts a.delay = true) (hl : p.live = []) :
    IsGreatest {t : Time | t = 0 ∨ (∃ a ∈ settings.manager.schedule, t = a.delay) ∨
      ∃ r ∈ l.records, t = r.createdAt + settings.manager.policy.interval} p.now := by
  have hdone : ∀ a, a ∈ done ↔ a ∈ settings.manager.schedule := by
    intro a
    rw [← h.plan.mem_iff, List.map_nil, List.append_nil]
  have hasked : ∀ r ∈ l.records, r.createdAt.OnClock ∧ r.createdAt + settings.manager.policy.interval ≤ p.now := by
    intro r hr
    obtain ⟨k, hk⟩ := List.mem_iff_getElem?.1 hr
    obtain ⟨-, name, sub, first, -, hstanding⟩ := h.crew k r hk
    exact ⟨hstanding.onClock, (hstanding.ended hl).2.2⟩
  constructor
  · rcases h.reach with h0 | ⟨a, ha, hnow⟩ | ⟨r, hr, hle⟩
    · exact .inl h0
    · have ha := (hdone a).1 ha
      rcases Time.zero_add_eq (hd a ha) with heq | heq
      · exact .inr (.inl ⟨a, ha, hnow.trans heq⟩)
      · exact .inl (hnow.trans heq)
    · obtain ⟨hclock, hge⟩ := hasked r hr
      obtain ⟨hinterval, -⟩ := CollectionPolicy.accepts (h.policy (List.ne_nil_of_mem hr))
      exact .inr (.inr ⟨r, hr, Time.le_antisymm h.track.sound.now (Time.onClock_add hclock hinterval) hle hge⟩)
  · rintro t (rfl | ⟨a, ha, rfl⟩ | ⟨r, hr, rfl⟩)
    · exact Time.zero_le h.track.sound.now
    · exact (Time.zero_add_le_iff (hd a ha)).1 (h.past a ((hdone a).2 ha))
    · exact (hasked r hr).2

/-- the summary of a run on track tells its ledger -/
theorem OnTrack.summary (h : OnTrack settings todo l s p) (r : Except SimError RunOutcome) :
    (summarize settings r s.finish).records.map ManagedRecord.unmeasured = l.records ∧
      (summarize settings r s.finish).creationFailures = l.failures := by
  obtain ⟨m, hm, rfl⟩ := h.finish
  unfold summarize
  rw [hm]
  exact ⟨rfl, rfl⟩

/-- every event issued was delivered or struck off, one of the two of each subordinate that collected -/
theorem Balanced.dispatched (h : Balanced settings done todo l s p) (hl : p.live = []) :
    s.dispatched = settings.manager.schedule.length + l.records.countP (isPrompt settings) +
      2 * l.records.countP (!isPrompt settings ·) := by
  have hsplit : l.records.length = l.records.countP (isPrompt settings) + l.records.countP (!isPrompt settings ·) := by
    simpa using l.records.length_eq_countP_add_countP (isPrompt settings)
  have hbalance := h.balance
  rw [hl, List.length_nil, h.issued, h.cancelled, h.countP_collected hl] at hbalance
  omega

/-- **The accounts of a run that has drained** -/
theorem Balanced.accounts (h : Balanced settings done [] l s p)
    (hd : ∀ a ∈ settings.manager.schedule, Agenda.accepts a.delay = true) (hl : p.live = []) :
    Accounts settings (summarize settings (.ok .drained) s.finish) s.finish := by
  obtain ⟨hrecords, hfailures⟩ := h.track.summary (.ok .drained)
  have houtcome : (summarize settings (.ok .drained) s.finish).outcome? = some .drained := rfl
  have hstats : (summarize settings (.ok .drained) s.finish).stats = s.stats := s.stats_finish
  generalize summarize settings (.ok .drained) s.finish = summary at *
  -- a record tells the same of its subordinate whether or not its figures have been taken
  have hlength : l.records.length = summary.records.length := by rw [← hrecords, List.length_map]
  have hcount : ∀ f : ManagedRecord → Bool, (∀ r, f r.unmeasured = f r) →
      l.records.countP f = summary.records.countP f := by
    intro f hf
    rw [← hrecords, List.countP_map]
    exact congrArg (List.countP · summary.records) (funext hf)
  have hprompt := hcount (isPrompt settings) fun _ => rfl
  have hlate := hcount (!isPrompt settings ·) fun _ => rfl
  constructor
  case outcome => exact houtcome
  case dispatched =>
    rw [hstats, ← hprompt, ← hlate]
    exact h.dispatched hl
  case cancelled =>
    calc summary.stats.cancelled = s.stats.cancelled := by rw [hstats]
      _ = p.cancelled := h.track.refines.cancelled
      _ = l.records.countP (isPrompt settings) := h.cancelled.trans (h.countP_collected hl)
      _ = summary.records.countP (isPrompt settings) := hprompt
  case spawned =>
    rw [hstats]
    exact h.spawned.trans hlength
  case registered =>
    rw [hstats]
    exact h.registered.trans (congrArg (· + 1) h.spawned.symm)
  case recoverable =>
    rw [hstats, hfailures]
    exact Tally.met_of_count h.tally
  case finalTime =>
    have hnow : s.stats.finalTime = p.now := h.track.refines.now
    have hgreatest := h.isGreatest_now hd hl
    rw [← hrecords, ← hnow] at hgreatest
    rw [hstats]
    simpa [ManagedRecord.unmeasured] using hgreatest
  case size =>
    rw [(Simulation.finish_closed h.track.live).size, ← hlength]
    exact h.track.size
  case subordinate =>
    intro k r hr
    have hrecord : l.records[k]? = some r.unmeasured := by rw [← hrecords, List.getElem?_map, hr]; rfl
    obtain ⟨hid, name, sub, first, hslot, hstanding⟩ := h.crew k r.unmeasured hrecord
    obtain ⟨hcollected, htimedOut, -⟩ := hstanding.ended hl
    obtain ⟨world, hclosed⟩ := (Simulation.finish_closed h.track.live).closed (k + 1)
      (Array.getElem?_eq_some_iff.1 hslot).1 _ hslot rfl
    exact ⟨hid, name, sub, hclosed, hcollected, htimedOut⟩

/-- **A run without bounds ends, and its accounts are exact.** With settings that the timetable accepts, delays that are
    finite and not negative, no horizon and no bound on events, the run drains, and all that it counted, its last time
    and the state of each subordinate follow from the schedule and the records. -/
theorem run_accounts (settings : RunSettings) {world : Timetable} (ht : settings.executor.timetable = .ok world)
    (hd : ∀ a ∈ settings.manager.schedule, a.delay.isFinite = true ∧ 0 ≤ a.delay)
    (hu : settings.limits.until? = none) (hm : settings.limits.maxEvents? = none) {fuel : Nat}
    (hf : 3 * settings.manager.schedule.length < fuel) :
    ∃ summary s, run settings fuel = some (.ok (summary, s)) ∧ Accounts settings summary s := by
  have haccepts : ∀ a ∈ settings.manager.schedule, Agenda.accepts a.delay = true := fun a ha =>
    Time.accepts_of_le (hd a ha).1 (hd a ha).2
  obtain ⟨u, todo, hsorted, hperm, hon, hcounters, -, hrun⟩ := run_started ht haccepts fuel
  have hbalance : InBalance settings (3 * settings.manager.schedule.length) u := by
    refine ⟨[], todo, _, _, hsorted, .fresh hon hperm haccepts hcounters, ?_⟩
    rw [hperm.length_eq]
    simp only [Plain.extend, List.nil_append, List.length_map, List.length_zipIdx]
    omega
  obtain ⟨outcome, j, v, w, hloop, ⟨done, todo', l, q, -, hend, -⟩, hrest⟩ :=
    Simulation.loop_rests (fun k s h hr => InBalance.step h hr) hbalance hf
  obtain ⟨rfl, rfl, hlive, rfl⟩ := hend.track.drained hm hrest
  rw [hu, hloop] at hrun
  exact ⟨_, _, hrun, hend.accounts haccepts hlive⟩

/-- a subordinate that gives up before it asks, and one that is not created -/
def impatientSettings : RunSettings where
  manager := {
    collectionInterval := 5, resultsTimeout := 3
    schedule := [⟨0, .createSubordinate (some "Peak")⟩, ⟨2, .createSubordinate none⟩] }

theorem run_accounts_of_impatient :
    ∃ summary s, run impatientSettings 7 = some (.ok (summary, s)) ∧ summary.outcome? = some .drained ∧
      summary.stats.dispatched = 4 ∧ summary.stats.cancelled = 0 ∧ summary.stats.registered = 2 := by
  have haccepted : impatientSettings.executor.timetable = .ok { settings := {}, stream := .ofSeed 42 } := by
    have h : ExecutorSettings.fault? {} = none := by decide +kernel
    change ExecutorSettings.timetable {} = _
    rw [ExecutorSettings.timetable, h]
  have hdelays : ∀ a ∈ impatientSettings.manager.schedule, a.delay.isFinite = true ∧ 0 ≤ a.delay := by decide +kernel
  obtain ⟨summary, s, hrun, h⟩ := run_accounts impatientSettings haccepted hdelays rfl rfl (by decide : 3 * 2 < 7)
  have hlate : (run impatientSettings 7).any (fun r =>
      r.toOption.any fun x => x.1.records.map (isPrompt impatientSettings) = [false]) = true := by decide +kernel
  rw [hrun] at hlate
  obtain ⟨r, hr, hlate⟩ := List.map_eq_singleton_iff.1 (of_decide_eq_true hlate)
  refine ⟨summary, s, hrun, h.outcome, ?_, ?_, ?_⟩
  · rw [h.dispatched, hr, List.countP_cons_of_neg (by rw [hlate]; decide), List.countP_cons_of_pos (by rw [hlate]; rfl)]
    rfl
  · rw [h.cancelled, hr, List.countP_cons_of_neg (by rw [hlate]; decide)]
    rfl
  · rw [h.registered, h.spawned, hr]
    rfl

end Scenario

end BrokerSim
