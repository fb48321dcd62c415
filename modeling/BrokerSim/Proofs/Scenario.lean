/-
A whole run against the timeline that its settings tell.
- `Scenario.run_implements_timeline`: the records, refusals and last strategy of a run are what the actions of the
  timeline leave behind, one after the other. Whatever subordinates ask for in between, and at the same times, no action
  is lost, doubled or moved, and the run comes to its end.

`OnTrack` is the invariant of the run: the manager has done a part of the timeline (`Staffed`), exactly the actions of
the rest are still to come (`Awaits`), and every subordinate has a result for every task, so all it can still do is
strike off its own deadline. `OnTrack.step` is one event of a run, `OnTrack.loop` all of them.
-/
import BrokerSim.Proofs.Timeline

namespace BrokerSim

/-! ## What is still to come -/

/-- of the events with handles below `n`, those of the actions `todo` are still to come; any other event was planned by
    a subordinate for itself -/
structure Awaits (n size : Nat) (todo : List (ScheduledAction × Handle)) (p : Plain Signal) : Prop where
  issued : n ≤ p.issued
  todo : (p.live.filter fun e => e.handle < n).Perm (todo.map (Manager.planned 0 0))
  rest : ∀ e ∈ p.live, n ≤ e.handle →
    0 < e.target ∧ e.target < size ∧ (e.message = .collectResults ∨ e.message = .resultsDeadline)

namespace Awaits

variable {n size : Nat} {todo : List (ScheduledAction × Handle)} {x : ScheduledAction × Handle} {p q : Plain Signal}
  {e : Event Signal}

/-- when the manager has just started, its whole schedule is still to come and nothing else is -/
theorem fresh {schedule : List ScheduledAction} (hp : todo.Perm schedule.zipIdx) :
    Awaits schedule.length size todo (({} : Plain Signal).extend (schedule.zipIdx.map (Manager.planned 0 0))) := by
  have hlt : ∀ e ∈ schedule.zipIdx.map (Manager.planned 0 0), e.handle < schedule.length := by
    intro e he
    obtain ⟨x, hx, rfl⟩ := List.mem_map.1 he
    exact List.snd_lt_of_mem_zipIdx hx
  constructor
  · simp [Plain.extend]
  · have hall : (schedule.zipIdx.map (Manager.planned 0 0)).filter (fun e => e.handle < schedule.length) =
        schedule.zipIdx.map (Manager.planned 0 0) := List.filter_eq_self.2 fun e he => decide_eq_true (hlt e he)
    change (List.filter _ (schedule.zipIdx.map (Manager.planned 0 0))).Perm _
    rw [hall]
    exact (hp.map _).symm
  · intro e he hn
    exact absurd (hlt e he) hn.not_gt

/-- the first event of the schedule to leave is that of the first action -/
theorem least (ha : Awaits n size todo p) (hp : p.Sound)
    (hs : todo.Pairwise fun x y => (Manager.planned 0 0 x).key ≤ (Manager.planned 0 0 y).key) (he : e ∈ p.live)
    (hmin : ∀ f ∈ p.live, e.key ≤ f.key) (hn : e.handle < n) :
    ∃ x rest, todo = x :: rest ∧ e = Manager.planned 0 0 x := by
  have hmem : ∀ f, f ∈ todo.map (Manager.planned 0 0) ↔ f ∈ p.live ∧ f.handle < n := by
    intro f
    rw [← ha.todo.mem_iff, List.mem_filter, decide_eq_true_eq]
  have het := (hmem e).2 ⟨he, hn⟩
  cases todo with
  | nil => cases het
  | cons x rest =>
    refine ⟨x, rest, rfl, ?_⟩
    obtain ⟨hx, -⟩ := (hmem (Manager.planned 0 0 x)).1 List.mem_cons_self
    have hle : (Manager.planned 0 0 x).key ≤ e.key := by
      rcases List.mem_cons.1 het with rfl | het
      · exact le_rfl
      · obtain ⟨y, hy, rfl⟩ := List.mem_map.1 het
        exact (List.pairwise_cons.1 hs).1 y hy
    have hk := le_antisymm (hmin _ hx) hle
    exact hp.unique he hx (congrArg Prod.snd (toLex.injective hk))

/-- the event of the first action leaves -/
theorem take (ha : Awaits n size (x :: todo) p) (hp : p.Sound) (hq : q.live = p.without x.2)
    (hi : q.issued = p.issued) : Awaits n size todo q where
  issued := hi ▸ ha.issued
  todo := by
    have hn : ((x :: todo).map Prod.snd).Nodup := by
      have hp : ((p.live.filter fun e => e.handle < n).map (·.handle)).Nodup :=
        List.pairwise_map.2 ((hp.inOrder.filter _).imp fun h => h.ne)
      have h := (ha.todo.map (·.handle)).nodup_iff.1 hp
      rwa [List.map_map] at h
    have hself : (todo.map (Manager.planned 0 0)).filter (·.handle != x.2) = todo.map (Manager.planned 0 0) := by
      refine List.filter_eq_self.2 ?_
      intro f hf
      obtain ⟨y, hy, rfl⟩ := List.mem_map.1 hf
      have hne : x.2 ≠ y.2 := fun h => (List.nodup_cons.1 hn).1 (h ▸ List.mem_map_of_mem hy)
      exact bne_iff_ne.2 hne.symm
    have h := ha.todo.filter (·.handle != x.2)
    rw [List.filter_filter, List.map_cons, List.filter_cons_of_neg (by simp [Manager.planned]), hself] at h
    rw [hq, Plain.without, List.filter_filter]
    simpa only [Bool.and_comm] using h
  rest := by
    intro e he
    rw [hq] at he
    exact ha.rest e (Plain.mem_without.1 he).1

/-- another event leaves or is struck off -/
theorem strike (ha : Awaits n size todo p) {h : Handle} (hn : n ≤ h) (hq : q.live = p.without h)
    (hi : q.issued = p.issued) : Awaits n size todo q where
  issued := hi ▸ ha.issued
  todo := by
    have hf : (p.without h).filter (fun e => e.handle < n) = p.live.filter fun e => e.handle < n := by
      rw [Plain.without, List.filter_filter]
      refine List.filter_congr fun e _ => ?_
      by_cases he : e.handle < n
      · simp [he, (he.trans_le hn).ne]
      · simp [he]
    rw [hq, hf]
    exact ha.todo
  rest := by
    intro e he
    rw [hq] at he
    exact ha.rest e (Plain.mem_without.1 he).1

theorem cancel (ha : Awaits n size todo p) {h : Handle} (hn : n ≤ h) : Awaits n size todo (p.cancel h).2 := by
  unfold Plain.cancel
  split_ifs
  · exact ha.strike hn rfl rfl
  · exact ha

theorem strikeOff (ha : Awaits n size todo p) {struck? : Option Handle} (hn : ∀ h, struck? = some h → n ≤ h) :
    Awaits n size todo (p.strike struck?) := by
  cases struck? with
  | none => exact ha
  | some h => exact ha.cancel (hn h rfl)

/-- one more subordinate plans events for itself -/
theorem extend (ha : Awaits n size todo p) {events : List (Event Signal)}
    (h : ∀ e ∈ events, n ≤ e.handle ∧ e.target = size ∧
      (e.message = .collectResults ∨ e.message = .resultsDeadline)) (hs : 0 < size) :
    Awaits n (size + 1) todo (p.extend events) where
  issued := ha.issued.trans (Nat.le_add_right _ _)
  todo := by
    have hf : events.filter (fun e => e.handle < n) = [] := by
      rw [List.filter_eq_nil_iff]
      intro e he
      simpa using (h e he).1
    change ((p.live ++ events).filter _).Perm _
    rw [List.filter_append, hf, List.append_nil]
    exact ha.todo
  rest := by
    intro e he hn
    rcases List.mem_append.1 he with he | he
    · obtain ⟨h0, hlt, hm⟩ := ha.rest e he hn
      exact ⟨h0, hlt.trans (Nat.lt_succ_self _), hm⟩
    · obtain ⟨-, ht, hm⟩ := h e he
      exact ⟨ht ▸ hs, ht ▸ Nat.lt_succ_self _, hm⟩

end Awaits

/-! ## Who is there -/

/-- the manager with its ledger at the first place, and behind it subordinates that have a result for every task and
    whose own deadlines have handles from `n` on -/
structure Staffed (settings : ManagerSettings) (n : Nat) (l : Ledger) (entities : Array (Slot (Agent Empty)))
    (world : Timetable) : Prop where
  manager : ∃ name m, entities[0]? = some ⟨name, .running, .manager m⟩ ∧ m.settings = settings ∧ m.ledger = l
  subordinate : ∀ id slot, 0 < id → entities[id]? = some slot →
    ∃ name sub a, slot = ⟨name, .running, .subordinate sub⟩ ∧ (∀ h, sub.deadline? = some h → n ≤ h) ∧
      world.account? id = some a ∧ sub.bundle.tasks.length ≤ a.results.length

namespace Staffed

variable {settings : ManagerSettings} {n : Nat} {l : Ledger} {entities : Array (Slot (Agent Empty))}
  {world next : Timetable}

/-- a manager alone that has done nothing yet -/
theorem fresh (name : String) (settings : ManagerSettings) (n : Nat) (world : Timetable) :
    Staffed settings n { strategy := settings.initialStrategy } #[⟨name, .running, .manager (.ofSettings settings)⟩]
      world := by
  refine ⟨⟨name, _, rfl, rfl, rfl⟩, ?_⟩
  intro id slot hid hslot
  obtain ⟨hlt, -⟩ := Array.getElem?_eq_some_iff.1 hslot
  exact absurd hid (Nat.lt_one_iff.1 hlt).not_gt

theorem keeps (hs : Staffed settings n l entities world) (hk : Timetable.Keeps world next) :
    Staffed settings n l entities next where
  manager := hs.manager
  subordinate := by
    intro id slot hid hslot
    obtain ⟨name, sub, a, heq, hh, ha, hl⟩ := hs.subordinate id slot hid hslot
    obtain ⟨b, hb, hab⟩ := hk id a ha
    exact ⟨name, sub, b, heq, hh, hb, hl.trans hab⟩

/-- the manager has acted -/
theorem setManager (hs : Staffed settings n l entities world) (name : String) {m : Manager}
    (hm : m.settings = settings) :
    Staffed settings n m.ledger (entities.setIfInBounds 0 ⟨name, .running, .manager m⟩) world where
  manager := by
    obtain ⟨_, _, h0, -⟩ := hs.manager
    exact ⟨name, m, Array.getElem?_setIfInBounds_self_of_lt (Array.getElem?_eq_some_iff.1 h0).1, hm, rfl⟩
  subordinate := by
    intro id slot hid hslot
    rw [Array.getElem?_setIfInBounds_ne hid.ne] at hslot
    exact hs.subordinate id slot hid hslot

/-- a subordinate has reacted -/
theorem setSubordinate (hs : Staffed settings n l entities world) {id : EntityId} (hid : 0 < id) (name : String)
    (sub : Subordinate) (hh : ∀ h, sub.deadline? = some h → n ≤ h) {a : Account} (ha : world.account? id = some a)
    (hl : sub.bundle.tasks.length ≤ a.results.length) :
    Staffed settings n l (entities.setIfInBounds id ⟨name, .running, .subordinate sub⟩) world where
  manager := by
    obtain ⟨name, m, h0, hm⟩ := hs.manager
    exact ⟨name, m, (Array.getElem?_setIfInBounds_ne hid.ne').trans h0, hm⟩
  subordinate := by
    intro key slot hkey hslot
    by_cases h : id = key
    · subst h
      obtain ⟨hlt, heq⟩ := Array.getElem?_eq_some_iff.1 hslot
      rw [Array.getElem_setIfInBounds_self] at heq
      exact ⟨name, sub, a, heq.symm, hh, ha, hl⟩
    · rw [Array.getElem?_setIfInBounds_ne h] at hslot
      exact hs.subordinate key slot hkey hslot

/-- one more subordinate has started -/
theorem push (hs : Staffed settings n l entities world) (name : String) (sub : Subordinate)
    (hh : ∀ h, sub.deadline? = some h → n ≤ h) {a : Account} (ha : world.account? entities.size = some a)
    (hl : sub.bundle.tasks.length ≤ a.results.length) :
    Staffed settings n l (entities.push ⟨name, .running, .subordinate sub⟩) world where
  manager := by
    obtain ⟨name, m, h0, hm⟩ := hs.manager
    obtain ⟨hlt, heq⟩ := Array.getElem?_eq_some_iff.1 h0
    exact ⟨name, m, (Array.getElem?_push_lt hlt).trans (congrArg some heq), hm⟩
  subordinate := by
    intro id slot hid hslot
    rw [Array.getElem?_push] at hslot
    split_ifs at hslot with h
    · cases hslot
      exact ⟨name, sub, a, rfl, hh, h ▸ ha, hl⟩
    · exact hs.subordinate id slot hid hslot

end Staffed

/-! ## The invariant of a run -/

namespace Scenario

/-- a run whose manager has the ledger `l` and whose actions still to come are `todo`, with the agenda of `p` -/
structure OnTrack (settings : RunSettings) (todo : List (ScheduledAction × Handle)) (l : Ledger) (s : Run)
    (p : Plain Signal) : Prop where
  refines : Refines s.agenda p
  sound : p.Sound
  live : s.terminated = false
  going : s.stopRequested = false
  idle : s.waiting = []
  limits : s.limits = settings.limits
  placed : s.nextId = s.entities.size
  size : s.entities.size = l.records.length + 1
  staffed : Staffed settings.manager settings.manager.schedule.length l s.entities s.world
  awaits : Awaits settings.manager.schedule.length s.entities.size todo p

variable {settings : RunSettings} {todo rest : List (ScheduledAction × Handle)} {x : ScheduledAction × Handle}
  {l : Ledger} {s t : Run} {p : Plain Signal} {e : Event Signal} {agenda : Agenda Signal}

/-- the log and the counters are of no account -/
theorem OnTrack.of_core (h : OnTrack settings todo l s p) (hc : t.core = s.core) : OnTrack settings todo l t p := by
  have hagenda : t.agenda = s.agenda := (congrArg Simulation.agenda hc :)
  have hentities : t.entities = s.entities := (congrArg Simulation.entities hc :)
  have hworld : t.world = s.world := (congrArg Simulation.world hc :)
  constructor
  · rw [hagenda]
    exact h.refines
  · exact h.sound
  · exact (congrArg Simulation.terminated hc).trans h.live
  · exact (congrArg Simulation.stopRequested hc).trans h.going
  · exact (congrArg Simulation.waiting hc).trans h.idle
  · exact (congrArg Simulation.limits hc).trans h.limits
  · rw [hentities]
    exact (congrArg Simulation.nextId hc).trans h.placed
  · rw [hentities]
    exact h.size
  · rw [hentities, hworld]
    exact h.staffed
  · rw [hentities]
    exact h.awaits

/-- what the delivery of an event to a subordinate changes, apart from the log -/
structure Served (e : Event Signal) (q : Plain Signal) (s u : Run) (q' : Plain Signal) : Prop where
  turn : ∃ name sub sub' struck?, s.entities[e.target]? = some ⟨name, .running, .subordinate sub⟩ ∧
    sub.Reacted e.message sub' struck? ∧ q' = q.strike struck? ∧
    u.entities = s.entities.setIfInBounds e.target ⟨name, .running, .subordinate sub'⟩
  counters : u.counters = { s.counters with dispatched := s.dispatched + 1 }

/-- an event of a subordinate is delivered: at most it strikes off the deadline of that subordinate -/
theorem OnTrack.subordinate (h : OnTrack settings todo l s p) {q : Plain Signal} (hr : Refines agenda q) (hq : q.Sound)
    (ha : Awaits settings.manager.schedule.length s.entities.size todo q) (he : e ∈ p.live)
    (hn : settings.manager.schedule.length ≤ e.handle) (fuel : Nat) :
    ∃ u q', ({ s with agenda } : Run).dispatch fuel e = some (.ok (), u) ∧ OnTrack settings todo l u q' ∧
      q'.live.length ≤ q.live.length ∧ Served e q s u q' := by
  obtain ⟨hpos, hlt, hm⟩ := h.awaits.rest e he hn
  have hs : ({ s with agenda } : Run).entities[e.target]? = some s.entities[e.target] := Array.getElem?_eq_getElem hlt
  obtain ⟨name, sub, a, heq, hh, hacc, hl⟩ := h.staffed.subordinate e.target _ hpos hs
  rw [heq] at hs
  obtain ⟨t, sub', struck?, ht, hreacted, hcore⟩ :=
    Subordinate.play_react e.target sub (s := ({ s with agenda } : Run).delivering e) hm hacc hl
  have hplay := Agent.play_react_subordinate e.target (({ s with agenda } : Run).delivering e) e sub
  rw [ht] at hplay
  obtain ⟨u, hu, hucore, hcounters⟩ := Simulation.dispatch_play fuel hs rfl hplay (by intro err h; cases h)
  obtain ⟨hbundle, -, hdeadline, hstruck⟩ := hreacted.keeps
  obtain ⟨agenda', hstrike, hr'⟩ :=
    Simulation.strike_eq (s := ({ s with agenda } : Run).delivering e) hr hq struck?
  rw [hstrike] at hcore
  have htcore : t.core = { s.core with agenda := agenda' } := hcore
  have hq' := hq.strike struck?
  have hlen := Plain.length_strike_le struck? q
  have ha' : Awaits settings.manager.schedule.length s.entities.size todo (q.strike struck?) := by
    refine ha.strikeOff ?_
    rintro k rfl
    rcases hstruck with hnone | hsame
    · cases hnone
    · exact hh k hsame.symm
  let v : Run := { s with
    agenda := agenda'
    entities := s.entities.setIfInBounds e.target ⟨name, .running, .subordinate sub'⟩ }
  have hv : u.core = v.core := by
    rw [hucore, htcore]
    rfl
  have hsize : v.entities.size = s.entities.size := Array.size_setIfInBounds ..
  have hstaffed := h.staffed.setSubordinate hpos name sub' (by
    intro k hk
    rcases hdeadline with hnone | hsame
    · cases hnone.symm.trans hk
    · exact hh k (hsame.symm.trans hk)) hacc (hbundle ▸ hl)
  have hon : OnTrack settings todo l v (q.strike struck?) :=
    ⟨hr', hq', h.live, h.going, h.idle, h.limits, h.placed.trans hsize.symm, hsize.trans h.size, hstaffed, hsize ▸ ha'⟩
  refine ⟨u, _, ?_, hon.of_core hv, hlen, ⟨⟨name, sub, sub', struck?, hs, hreacted, rfl, ?_⟩, hcounters⟩⟩
  · rw [hu]
    exact Simulation.settle_idle fuel (hon.of_core hv).idle
  · exact (congrArg Simulation.entities hv :)

/-- a reserved subordinate starts, and nobody waits any more -/
theorem settle_subordinate (fuel : Nat) {u : Run} {q : Plain Signal} (hr : Refines u.agenda q) (hq : q.Sound)
    {sub : Subordinate} (hf : sub.policy.fault? = none) (hw : u.waiting = [(u.entities.size, .subordinate sub)]) :
    let q' := q.extend (sub.planned u.entities.size q.now q.issued)
    ∃ v agenda world name a, u.settle (fuel + 1) = some (.ok (), v) ∧
      v.core = { u.core with
        agenda, world, waiting := []
        entities := u.entities.push
          ⟨name, .running, .subordinate { sub with deadline? := some (q.issued + 1) }⟩ } ∧
      v.counters = { u.counters with registered := u.registered + 1, spawned := u.spawned + 1 } ∧
      Refines agenda q' ∧ q'.Sound ∧ Timetable.Keeps u.world world ∧
      world.account? u.entities.size = some a ∧ sub.bundle.tasks.length ≤ a.results.length := by
  let start := ({ u with waiting := [], spawned := u.spawned + 1 } : Run).starting u.entities.size (.subordinate sub)
  obtain ⟨t, agenda, world, ht, hcore, hr, hq, hk, a, ha, hl⟩ :=
    Subordinate.play_start u.entities.size sub (s := start) hr hq hf
  have hplay := Agent.play_start_subordinate u.entities.size start sub
  rw [ht] at hplay
  obtain ⟨v, hv, hvcore, hcounters⟩ := Simulation.settle_play fuel hw hplay (congrArg Simulation.waiting hcore :)
  rw [hcore] at hvcore
  exact ⟨v, agenda, world, _, a, hv, hvcore, hcounters, hr, hq, hk, ha, hl⟩

section

variable {q : Plain Signal} {m : Manager}

/-- the manager has acted, on the world at most -/
theorem OnTrack.acted (h : OnTrack settings todo l s p) (hr : Refines agenda q) (hq : q.Sound)
    (ha : Awaits settings.manager.schedule.length s.entities.size rest q) (name : String)
    (hm : m.settings = settings.manager) (hl : m.records.length = l.records.length) {world : Timetable}
    (hk : Timetable.Keeps s.world world) :
    OnTrack settings rest m.ledger
      { s with agenda, world, entities := s.entities.setIfInBounds 0 ⟨name, .running, .manager m⟩ } q := by
  have hsize : (s.entities.setIfInBounds 0 ⟨name, .running, .manager m⟩).size = s.entities.size :=
    Array.size_setIfInBounds ..
  refine ⟨hr, hq, h.live, h.going, h.idle, h.limits, h.placed.trans hsize.symm, ?_,
    (h.staffed.setManager name hm).keeps hk, hsize ▸ ha⟩
  rw [Manager.length_ledger, hl]
  exact hsize.trans h.size

/-- the manager has reserved one subordinate, which starts and plans two events -/
theorem OnTrack.hired (h : OnTrack settings todo l s p) (hr : Refines agenda q) (hq : q.Sound)
    (ha : Awaits settings.manager.schedule.length s.entities.size rest q) (name : String)
    (hm : m.settings = settings.manager) (hl : m.records.length = l.records.length + 1) {sub : Subordinate}
    (hf : sub.policy.fault? = none) {u : Run}
    (hu : u.core = ({ s with
      agenda, nextId := s.nextId + 1, waiting := s.waiting ++ [(s.nextId, .subordinate sub)]
      entities := s.entities.setIfInBounds 0 ⟨name, .running, .manager m⟩ } : Run).core) (fuel : Nat) :
    ∃ v name', u.settle (fuel + 1) = some (.ok (), v) ∧
      OnTrack settings rest m.ledger v (q.extend (sub.planned s.entities.size q.now q.issued)) ∧
      v.entities = (s.entities.setIfInBounds 0 ⟨name, .running, .manager m⟩).push
        ⟨name', .running, .subordinate { sub with deadline? := some (q.issued + 1) }⟩ ∧
      v.counters = { u.counters with registered := u.registered + 1, spawned := u.spawned + 1 } := by
  have hagenda : u.agenda = agenda := (congrArg Simulation.agenda hu :)
  have hworld : u.world = s.world := (congrArg Simulation.world hu :)
  have hentities : u.entities = s.entities.setIfInBounds 0 ⟨name, .running, .manager m⟩ :=
    (congrArg Simulation.entities hu :)
  have hsize : u.entities.size = s.entities.size := hentities ▸ Array.size_setIfInBounds ..
  have hwaiting : u.waiting = [(u.entities.size, .subordinate sub)] := by
    have hw : u.waiting = s.waiting ++ [(s.nextId, .subordinate sub)] := (congrArg Simulation.waiting hu :)
    rw [hw, h.idle, h.placed, hsize]
    rfl
  obtain ⟨v, agenda', world, name', a, hv, hcore, hcounters, hr', hq', hk, hacc, htasks⟩ :=
    settle_subordinate fuel (hagenda ▸ hr) hq hf hwaiting
  let slot : Slot (Agent Empty) := ⟨name', .running, .subordinate { sub with deadline? := some (q.issued + 1) }⟩
  let w : Run := { s with agenda := agenda', world, nextId := s.nextId + 1, entities := u.entities.push slot }
  have hw : v.core = w.core := by
    rw [hcore, hu]
    change ({ s.core with agenda := agenda', world, nextId := s.nextId + 1, waiting := [], entities := _ } : Run) = _
    rw [← h.idle]
    rfl
  have hwsize : w.entities.size = s.entities.size + 1 := (Array.size_push _).trans (congrArg (· + 1) hsize)
  have hstaffed : Staffed settings.manager settings.manager.schedule.length m.ledger w.entities world := by
    have hold := (h.staffed.setManager name hm).keeps (hworld ▸ hk)
    rw [← hentities] at hold
    refine hold.push name' _ ?_ hacc htasks
    intro k hk
    cases hk
    exact ha.issued.trans (Nat.le_succ _)
  have hawaits : Awaits settings.manager.schedule.length w.entities.size rest
      (q.extend (sub.planned u.entities.size q.now q.issued)) := by
    rw [hwsize]
    refine ha.extend ?_ (h.size ▸ Nat.succ_pos _)
    intro e he
    obtain ⟨hfirst, htarget, hmessage⟩ := Subordinate.mem_planned _ _ he
    exact ⟨ha.issued.trans hfirst, htarget.trans hsize, hmessage⟩
  have hon : OnTrack settings rest m.ledger w _ :=
    ⟨hr', hq', h.live, h.going, h.idle, h.limits, hwsize ▸ congrArg (· + 1) h.placed, by
      rw [hwsize, h.size, Manager.length_ledger, hl], hstaffed, hawaits⟩
  rw [hsize] at hon
  refine ⟨v, name', hv, hon.of_core hw, ?_, hcounters⟩
  have hentities' : v.entities = u.entities.push slot := (congrArg Simulation.entities hw :)
  rw [hentities', hentities]

end

/-- what the delivery of an event to the manager changes, apart from the log -/
inductive Led (settings : RunSettings) (q : Plain Signal) (s : Run) (l : Ledger) (u : Run) (l' : Ledger)
    (q' : Plain Signal) : Prop
  | acted (name : String) (m : Manager) (r : Except SimError Unit) (records : l'.records.length = l.records.length)
      (told : l.Told l' r) (queue : q' = q)
      (entities : u.entities = s.entities.setIfInBounds 0 ⟨name, .running, .manager m⟩)
      (counters : u.counters = { s.counters with dispatched := s.dispatched + 1 }.survive r)
  | hired (name name' : String) (m : Manager) (sub : Subordinate) (r : Except SimError Unit)
      (records : l'.records.length = l.records.length + 1) (told : l.Told l' r)
      (policy : settings.manager.policy.fault? = none) (new : sub.IsNew settings.manager.policy)
      (queue : q' = q.extend (sub.planned s.entities.size q.now q.issued))
      (entities : u.entities = (s.entities.setIfInBounds 0 ⟨name, .running, .manager m⟩).push
        ⟨name', .running, .subordinate { sub with deadline? := some (q.issued + 1) }⟩)
      (counters : u.counters = { { s.counters with dispatched := s.dispatched + 1 }.survive r with
        registered := s.registered + 1, spawned := s.spawned + 1 })

/-- an event of the manager is delivered: the ledger is what the action leaves behind, and one subordinate at most has
    started since -/
theorem OnTrack.manager (h : OnTrack settings (x :: rest) l s p) {q : Plain Signal} (hr : Refines agenda q)
    (hq : q.Sound) (hnow : q.now = 0 + x.1.delay)
    (ha : Awaits settings.manager.schedule.length s.entities.size rest q) (fuel : Nat) :
    ∃ u q', ({ s with agenda } : Run).dispatch (fuel + 1) (Manager.planned 0 0 x) = some (.ok (), u) ∧
      OnTrack settings rest (l.act settings.manager x.1) u q' ∧
      Led settings q s l u (l.act settings.manager x.1) q' := by
  obtain ⟨name, m, hs, hsettings, rfl⟩ := h.staffed.manager
  have hsize : s.nextId = m.records.length + 1 := by
    rw [h.placed, h.size, Manager.length_ledger]
  let now := ({ s with agenda } : Run).delivering (Manager.planned 0 0 x)
  obtain ⟨r, m', t, ht, htold, hsettings', hledger, hact⟩ :=
    Manager.play_action 0 m now (e := Manager.planned 0 0 x) rfl (hr.now.trans hnow) hsize
  have hplay := Agent.play_react_manager 0 now (Manager.planned 0 0 x) m
  rw [ht] at hplay
  obtain ⟨u, hu, hucore, hcounters⟩ := Simulation.dispatch_play (fuel + 1) (s := { s with agenda })
    (e := Manager.planned 0 0 x) hs rfl hplay htold.recoverable
  rw [hu, ← hsettings, ← hledger]
  have hm := hsettings'.trans hsettings
  have hlength : m'.ledger.records.length = m'.records.length := m'.length_ledger
  rcases hact with ⟨hsame, world, hk, hcore⟩ | ⟨hmore, hf, sub, hnew, hcore⟩
  · have heq : u.core = ({ s with
        agenda, world, entities := s.entities.setIfInBounds 0 ⟨name, .running, .manager m'⟩ } : Run).core := by
      rw [hucore, hcore]
      rfl
    have hon := (h.acted hr hq ha name hm (hsame.trans m.length_ledger.symm) hk).of_core heq
    refine ⟨u, q, Simulation.settle_idle (fuel + 1) hon.idle, hon, ?_⟩
    exact .acted name m' r (hlength.trans (hsame.trans m.length_ledger.symm)) htold rfl
      (congrArg Simulation.entities heq :) hcounters
  · rw [hsettings] at hf hnew
    obtain ⟨v, name', hv, hon, hentities, hvcounters⟩ := h.hired hr hq ha name hm
      (hmore.trans (congrArg (· + 1) m.length_ledger.symm)) (hnew.policy ▸ hf) (by
        rw [hucore, hcore]
        rfl) fuel
    refine ⟨v, _, hv, hon, ?_⟩
    refine .hired name name' m' sub r (hlength.trans (hmore.trans (congrArg (· + 1) m.length_ledger.symm))) htold hf
      hnew rfl hentities (hvcounters.trans ?_)
    have hregistered : u.registered = s.registered :=
      (congrArg Simulation.Counters.registered (hcounters.trans (Simulation.Counters.survive_eq r _)) :)
    have hspawned : u.spawned = s.spawned :=
      (congrArg Simulation.Counters.spawned (hcounters.trans (Simulation.Counters.survive_eq r _)) :)
    rw [hregistered, hspawned, hcounters]
    rfl

/-- an event of the manager adds two events at most -/
theorem Led.length_le {q q' : Plain Signal} {u : Run} {l' : Ledger} (h : Led settings q s l u l' q') :
    q'.live.length ≤ q.live.length + 2 := by
  cases h with
  | acted _ _ _ _ _ queue => rw [queue]; exact Nat.le_add_right _ _
  | hired _ _ _ _ _ _ _ _ _ queue => simp [queue, Plain.extend, Subordinate.planned]

/-- one event of a run -/
theorem OnTrack.step (h : OnTrack settings todo l s p)
    (hs : todo.Pairwise fun x y => (Manager.planned 0 0 x).key ≤ (Manager.planned 0 0 y).key) {q : Plain Signal}
    (hr : Refines agenda q) (hp : p.next? = some (e, q)) (fuel : Nat) :
    ∃ u q' todo', ({ s with agenda } : Run).dispatch (fuel + 1) e = some (.ok (), u) ∧
      2 * todo'.length + q'.live.length < 2 * todo.length + p.live.length ∧
      (todo' = todo ∧ OnTrack settings todo l u q' ∧ Served e q s u q' ∨
        ∃ x, todo = x :: todo' ∧ e = Manager.planned 0 0 x ∧
          OnTrack settings todo' (l.act settings.manager x.1) u q' ∧
          Led settings q s l u (l.act settings.manager x.1) q') := by
  have hq := h.sound.next? hp
  obtain ⟨f, hf, heq⟩ := Option.map_eq_some_iff.1 hp
  cases heq
  have he := mem_of_earliest? hf
  have hmin := key_le_of_earliest? h.sound.time hf
  have hlt : (p.without e.handle).length < p.live.length := by
    rw [h.sound.length_without (Plain.isPending_iff.2 ⟨e, he, rfl⟩)]
    exact Nat.sub_lt (List.length_pos_of_mem he) Nat.one_pos
  by_cases hn : e.handle < settings.manager.schedule.length
  · obtain ⟨x, rest, rfl, rfl⟩ := h.awaits.least h.sound hs he hmin hn
    obtain ⟨u, q', hu, hon, hled⟩ := h.manager hr hq rfl (h.awaits.take h.sound rfl rfl) fuel
    refine ⟨u, q', rest, hu, ?_, .inr ⟨x, rfl, rfl, hon, hled⟩⟩
    have hlen := hled.length_le
    rw [List.length_cons]
    change q'.live.length ≤ (p.without x.2).length + 2 at hlen
    change (p.without x.2).length < _ at hlt
    omega
  · have hn := not_lt.1 hn
    obtain ⟨u, q', hu, hon, hlen, hserved⟩ := h.subordinate hr hq (h.awaits.strike hn rfl rfl) he hn (fuel + 1)
    refine ⟨u, q', todo, hu, ?_, .inl ⟨rfl, hon, hserved⟩⟩
    exact Nat.add_lt_add_left (hlen.trans_lt hlt) _

/-- what can bring a run to rest before its next event: nothing is left, or the next event lies beyond the horizon -/
theorem OnTrack.rest?_eq (h : OnTrack settings todo l s p) (hm : settings.limits.maxEvents? = none)
    (horizon : Option Time) :
    s.rest? horizon =
      match p.nextTime? with
      | none => some (.drained, s)
      | some t => if Simulation.isBeyond horizon t then some (.horizon, s) else none := by
  have hlimit : s.limitReached? = none := by
    unfold Simulation.limitReached?
    rw [h.limits, hm]
    rfl
  have htime : s.agenda.nextTime? = p.nextTime? := congrArg Display.nextTime? (h.refines.display h.sound)
  unfold Simulation.rest?
  rw [h.live, h.going, hlimit, htime]
  cases p.nextTime? with
  | none => rfl
  | some t => rfl

/-- an action whose event is still to come when the next event lies beyond the horizon is not covered -/
theorem OnTrack.not_covered (h : OnTrack settings todo l s p)
    (hu : ∀ horizon, settings.limits.until? = some horizon → horizon.isNaN = false)
    (hd : ∀ x ∈ todo, Agenda.accepts x.1.delay = true) (hf : earliest? p.live = some e)
    (hb : Simulation.isBeyond settings.limits.until? e.time = true) :
    (todo.map Prod.fst).filter settings.covers = [] := by
  rw [List.filter_eq_nil_iff]
  intro a ha
  obtain ⟨x, hx, rfl⟩ := List.mem_map.1 ha
  have hlive : Manager.planned 0 0 x ∈ p.live :=
    (List.mem_filter.1 (h.awaits.todo.mem_iff.2 (List.mem_map_of_mem hx))).1
  have hkey := key_le_of_earliest? h.sound.time hf _ hlive
  have hrank : e.time.rank ≤ (Manager.planned 0 0 x).time.rank := by
    rw [Event.key, Event.key, Prod.Lex.toLex_le_toLex] at hkey
    exact hkey.elim le_of_lt fun h => h.1.le
  have hle := (Time.rank_le_iff (h.sound.time e (mem_of_earliest? hf)) (h.sound.time _ hlive)).1 hrank
  rw [RunSettings.covers_eq hu (hd x hx)]
  have hbeyond : Simulation.isBeyond settings.limits.until? (0 + x.1.delay) = true := Simulation.isBeyond_of_le hb hle
  simp [hbeyond]

/-- **All events of a run.** It comes to rest, and by then the ledger is what all actions within the horizon leave
    behind. Each action still to come takes three events at most: its own, and two of a subordinate. -/
theorem OnTrack.loop (hm : settings.limits.maxEvents? = none)
    (hu : ∀ horizon, settings.limits.until? = some horizon → horizon.isNaN = false)
    (h : OnTrack settings todo l s p)
    (hs : todo.Pairwise fun x y => (Manager.planned 0 0 x).key ≤ (Manager.planned 0 0 y).key)
    (hd : ∀ x ∈ todo, Agenda.accepts x.1.delay = true) {fuel : Nat} (hf : 2 * todo.length + p.live.length < fuel) :
    ∃ outcome u q todo', s.loop settings.limits.until? fuel = some (.ok outcome, u) ∧
      OnTrack settings todo'
        (((todo.map Prod.fst).filter settings.covers).foldl (Ledger.act settings.manager) l) u q := by
  -- by `step`, what `hf` bounds falls with every event, of the manager or of a subordinate
  induction fuel generalizing todo l s p with
  | zero => exact absurd hf (Nat.not_lt_zero _)
  | succ fuel ih =>
    unfold Simulation.loop
    rw [h.rest?_eq hm]
    have hnext := h.refines.next h.sound
    cases hp : p.next? with
    | none =>
      have hlive := h.sound.next
      rw [hp] at hlive
      have htodo := h.awaits.todo
      rw [hlive, List.filter_nil, List.nil_perm, List.map_eq_nil_iff] at htodo
      subst htodo
      rw [Plain.nextTime?, hp]
      exact ⟨_, s, p, [], rfl, h⟩
    | some x =>
      obtain ⟨e, q⟩ := x
      have hearliest : earliest? p.live = some e := by
        obtain ⟨f, hf, heq⟩ := Option.map_eq_some_iff.1 hp
        cases heq
        exact hf
      rw [Plain.nextTime?, hp]
      simp only [Option.map_some]
      by_cases hb : Simulation.isBeyond settings.limits.until? e.time = true
      · rw [if_pos hb, h.not_covered hu hd hearliest hb]
        exact ⟨_, s, p, todo, rfl, h⟩
      · rw [if_neg hb]
        rw [hp] at hnext
        have hpos := List.length_pos_of_mem (mem_of_earliest? hearliest)
        cases ha : s.agenda.next? with
        | none =>
          rw [ha] at hnext
          exact hnext.elim
        | some y =>
          obtain ⟨f, agenda⟩ := y
          rw [ha] at hnext
          obtain ⟨rfl, hr⟩ := hnext
          obtain ⟨fuel, rfl⟩ : ∃ k, fuel = k + 1 := ⟨fuel - 1, by omega⟩
          obtain ⟨u, q', todo', hdispatch, hlt, hon⟩ := h.step hs hr hp fuel
          simp only [hdispatch]
          rcases hon with ⟨rfl, hon, -⟩ | ⟨x, rfl, rfl, hon, -⟩
          · exact ih hon hs hd (by omega)
          · have hx : settings.covers x.1 = true := by
              have hb : ¬ Simulation.isBeyond settings.limits.until? (0 + x.1.delay) = true := hb
              rw [RunSettings.covers_eq hu (hd x List.mem_cons_self)]
              simpa using hb
            rw [List.map_cons, List.filter_cons_of_pos hx]
            exact ih hon (List.pairwise_cons.1 hs).2 (fun y hy => hd y (List.mem_cons_of_mem x hy)) (by omega)

/-! ## The whole run -/

/-- a manager that is registered in a fresh run has its whole schedule, and nothing else, still to come -/
theorem manager_registered (fuel : Nat) (world : Timetable) {todo : List (ScheduledAction × Handle)}
    (hp : todo.Perm settings.manager.schedule.zipIdx)
    (hd : ∀ a ∈ settings.manager.schedule, Agenda.accepts a.delay = true) (entry : Entry (Agent Empty) Signal) :
    ∃ id u, ((Simulation.fresh settings.limits world : Run).note entry).register fuel
        (.manager (.ofSettings settings.manager)) = some (.ok id, u) ∧
      OnTrack settings todo { strategy := settings.manager.initialStrategy } u
        (({} : Plain Signal).extend (settings.manager.schedule.zipIdx.map (Manager.planned 0 0))) ∧
      u.counters = { dispatched := 0, registered := 1, spawned := 0, recoverable := {} } := by
  let s : Run := (Simulation.fresh settings.limits world : Run).note entry
  let m := Manager.ofSettings settings.manager
  let start := (s.nameNext (.manager m)).2.starting 0 (.manager m)
  obtain ⟨t, agenda, ht, hcore, hr, hq⟩ :=
    Manager.play_start (ε := Agent Empty) (W := Timetable) 0 m (s := start) Refines.fresh Plain.sound_fresh hd
  have hplay := Agent.play_start_manager 0 start m
  rw [ht] at hplay
  obtain ⟨u, hu, hucore, hcounters⟩ :=
    Simulation.register_play fuel (s := s) rfl rfl hplay (congrArg Simulation.waiting hcore :)
  rw [hcore] at hucore
  let v : Run := { s with
    agenda, nextId := 1, entities := #[⟨settings.manager.name, .running, .manager m⟩] }
  have hv : u.core = v.core := by
    rw [hucore]
    rfl
  have hon : OnTrack settings todo { strategy := settings.manager.initialStrategy } v _ :=
    ⟨hr, hq, rfl, rfl, rfl, rfl, rfl, rfl, .fresh _ _ _ _, .fresh hp⟩
  exact ⟨_, u, hu, hon.of_core hv, hcounters⟩

theorem register_manager (fuel : Nat) (world : Timetable) {todo : List (ScheduledAction × Handle)}
    (hp : todo.Perm settings.manager.schedule.zipIdx)
    (hd : ∀ a ∈ settings.manager.schedule, Agenda.accepts a.delay = true) (entry : Entry (Agent Empty) Signal) :
    ∃ id u q, ((Simulation.fresh settings.limits world : Run).note entry).register fuel
        (.manager (.ofSettings settings.manager)) = some (.ok id, u) ∧
      OnTrack settings todo { strategy := settings.manager.initialStrategy } u q ∧ q.live.length = todo.length := by
  obtain ⟨id, u, hu, hon, -⟩ := manager_registered fuel world hp hd entry
  refine ⟨id, u, _, hu, hon, ?_⟩
  rw [hp.length_eq]
  exact List.length_map _

/-- the last report of a manager leaves its ledger as it is -/
theorem ledger_shutdown (now : Time) (m : Manager) (world : Timetable) :
    (m.shutdown now world).1.ledger = m.ledger := by
  obtain ⟨report, stats, hl, ha⟩ := Manager.analyze_eq now m world
  have heq : (m.shutdown now world).1 =
      { m with records := List.zipWith Manager.refresh m.records stats, finalReport? := some report } :=
    congrArg (fun x : PerformanceReport × Manager => { x.2 with finalReport? := some x.1 }) ha
  rw [heq]
  simp [Manager.ledger, Manager.unmeasured_refresh m.records stats hl]

/-- a manager at the first place is the manager of the simulation -/
theorem manager?_first {m : Manager} {slot : Slot (Agent Empty)} (hslot : s.entities[0]? = some slot)
    (hm : slot.entity = .manager m) : manager? s = some m := by
  rw [← Array.getElem?_toList] at hslot
  unfold manager?
  cases hl : s.entities.toList with
  | nil =>
    rw [hl] at hslot
    cases hslot
  | cons first slots =>
    rw [hl] at hslot
    cases hslot
    rw [List.findSome?_cons, hm]
    rfl

/-- when the run has ended, the manager is still found: shut down, with the same ledger -/
theorem OnTrack.manager?_finish (h : OnTrack settings todo l s p) :
    ∃ (m : Manager) (world : Timetable), manager? s.finish = some (m.shutdown s.now world).1 ∧ m.ledger = l := by
  obtain ⟨name, m, hs, -, hledger⟩ := h.staffed.manager
  have hlt : 0 < s.entities.size := (Array.getElem?_eq_some_iff.1 hs).1
  obtain ⟨world, hclosed⟩ := (Simulation.finish_closed h.live).closed 0 hlt _ hs rfl
  exact ⟨m, world, manager?_first hclosed rfl, hledger⟩

theorem OnTrack.finish (h : OnTrack settings todo l s p) : ∃ m, manager? s.finish = some m ∧ m.ledger = l := by
  obtain ⟨m, world, hm, hledger⟩ := h.manager?_finish
  exact ⟨_, hm, (ledger_shutdown s.now m world).trans hledger⟩

/-- **A run does what its timeline says.** With settings that the timetable accepts, delays that are finite and not
    negative, no bound on events and a horizon that is a number, the run comes to its end without an error, and its
    records (figures of reports aside), refusals and last strategy are what the actions of the timeline leave behind.
    Subordinates ask for results and give up waiting at any times in between; that changes nothing. -/
theorem run_implements_timeline (settings : RunSettings) {world : Timetable}
    (ht : settings.executor.timetable = .ok world)
    (hd : ∀ a ∈ settings.manager.schedule, a.delay.isFinite = true ∧ 0 ≤ a.delay)
    (hm : settings.limits.maxEvents? = none)
    (hu : ∀ horizon, settings.limits.until? = some horizon → horizon.isNaN = false) {fuel : Nat}
    (hf : 3 * settings.manager.schedule.length < fuel) :
    ∃ summary s, run settings fuel = some (.ok (summary, s)) ∧ summary.error? = none ∧
      summary.records.map ManagedRecord.unmeasured = (timelineLedger settings).records ∧
      summary.creationFailures = (timelineLedger settings).failures ∧
      summary.finalStrategy = (timelineLedger settings).strategy := by
  have haccepts : ∀ a ∈ settings.manager.schedule, Agenda.accepts a.delay = true := fun a ha =>
    Time.accepts_of_le (hd a ha).1 (hd a ha).2
  obtain ⟨todo, hperm, hsorted, hfst⟩ := exists_sorted haccepts
  have hlen : todo.length = settings.manager.schedule.length := by
    rw [hperm.length_eq, List.length_zipIdx]
  have htodo : ∀ x ∈ todo, Agenda.accepts x.1.delay = true := by
    intro x hx
    have hmem : x.1 ∈ todo.map Prod.fst := List.mem_map_of_mem hx
    rw [hfst, List.mem_mergeSort] at hmem
    exact haccepts x.1 hmem
  obtain ⟨id, u, q, hregister, hon, hq⟩ := register_manager fuel world hperm haccepts
    (.remark ⟨.info, s!"Running {settings.manager.name} until the queue drains"⟩)
  have hfuel : 2 * todo.length + q.live.length < fuel := by
    rw [hq, hlen]
    omega
  obtain ⟨outcome, v, q', todo', hloop, hon'⟩ := hon.loop hm hu hsorted htodo hfuel
  obtain ⟨m, hmanager, hledger⟩ := hon'.finish
  rw [hfst] at hledger
  have hrun : run settings fuel = some (.ok (summarize settings (.ok outcome) v.finish, v.finish)) := by
    unfold run play Simulation.run
    simp only [ht, hregister, hon.limits, hloop, Option.map_some, bind, Option.bind]
    rfl
  refine ⟨_, _, hrun, rfl, ?_, ?_, ?_⟩ <;> rw [summarize, hmanager]
  · exact congrArg Ledger.records hledger
  · exact congrArg Ledger.failures hledger
  · exact congrArg Ledger.strategy hledger

/-- a schedule out of order, with two actions for one time and one beyond the horizon -/
def crossedSettings : RunSettings where
  limits := { until? := some 5 }
  manager := {
    schedule := [⟨5, .redistributeWorkload⟩, ⟨0, .createSubordinate (some " Peak ")⟩, ⟨5, .createSubordinate none⟩,
      ⟨6, .redistributeWorkload⟩] }

theorem timeline_crossed : timeline crossedSettings =
    [⟨0, .createSubordinate (some " Peak ")⟩, ⟨5, .redistributeWorkload⟩, ⟨5, .createSubordinate none⟩] := by
  have h50 : ¬ (5 : Float) ≤ 0 := by decide +kernel
  have h05 : (0 : Float) ≤ 5 := by decide +kernel
  have h55 : (5 : Float) ≤ 5 := by decide +kernel
  have h56 : (5 : Float) ≤ 6 := by decide +kernel
  have h65 : ¬ (6 : Float) ≤ 5 := by decide +kernel
  simp [timeline, crossedSettings, RunSettings.covers, List.mergeSort, List.MergeSort.Internal.splitInTwo, h05, h50,
    h55, h56, h65]

theorem run_implements_timeline_of_crossed :
    ∃ summary s, run crossedSettings 13 = some (.ok (summary, s)) ∧
      summary.records.map (·.name) = ["GlobalManagedBroker_1_Peak"] ∧
      summary.creationFailures = [.missingWorkload] ∧ summary.finalStrategy = .loadBalanced := by
  have haccepted : crossedSettings.executor.timetable = .ok { settings := {}, stream := .ofSeed 42 } := by
    have h : ExecutorSettings.fault? {} = none := by decide +kernel
    change ExecutorSettings.timetable {} = _
    rw [ExecutorSettings.timetable, h]
  have hdelays : ∀ a ∈ crossedSettings.manager.schedule, a.delay.isFinite = true ∧ 0 ≤ a.delay := by decide +kernel
  have hhorizon : ∀ horizon, crossedSettings.limits.until? = some horizon → horizon.isNaN = false := by
    intro horizon h
    cases h
    decide +kernel
  obtain ⟨summary, s, hrun, -, hrecords, hfailures, hstrategy⟩ :=
    run_implements_timeline crossedSettings haccepted hdelays rfl hhorizon (by decide : 3 * 4 < 13)
  have hledger : ((timelineLedger crossedSettings).records.map (·.name) = ["GlobalManagedBroker_1_Peak"] ∧
      (timelineLedger crossedSettings).failures = [.missingWorkload]) ∧
      (timelineLedger crossedSettings).strategy = .loadBalanced := by
    rw [timelineLedger, timeline_crossed]
    decide +kernel
  obtain ⟨⟨hnames, hmissing⟩, hlast⟩ := hledger
  refine ⟨summary, s, hrun, ?_, hfailures.trans hmissing, hstrategy.trans hlast⟩
  rw [← hnames, ← hrecords, List.map_map]
  rfl

end Scenario

end BrokerSim
