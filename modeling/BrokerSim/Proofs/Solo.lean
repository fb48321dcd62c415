/-
One manager and nobody else but its subordinates, whatever the service.
- `Solo`: the manager has the first place, its records have the ids 1, 2, 3 and so on, and the next id is for the next
  record.
- `Solo.step`: what one beat can be (`Solo.Step`): nothing of note, the start of a subordinate, a subordinate that
  reacts, the manager that reacts, or the end.
- `Solo.registered`: so it is once the manager was registered with a simulation in which nobody is (`Vacant`).
- `Solo.later`: so it is at all times, with all that each step keeps.
-/
import BrokerSim.Proofs.Books

namespace BrokerSim

/-- a simulation without guests -/
abbrev Office (W : Type) : Type := Simulation (Agent Empty) Signal W

variable {W : Type} [ExecutionService W]

open Simulation

/-- a manager and its subordinates -/
structure Solo (settings : ManagerSettings) (m : Manager) (s : Office W) : Prop where
  timely : s.agenda.IsTimely
  given : (0, .manager (.ofSettings settings)) ∈ s.handouts
  manager : ∃ slot, s.entities[0]? = some slot ∧ slot.entity = .manager m
  others : ∀ id slot, 0 < id → s.entities[id]? = some slot → ∃ sub, slot.entity = .subordinate sub
  books : m.Books 0 s
  ids : m.subordinateIds = List.range' 1 m.records.length
  nextId : s.nextId = m.records.length + 1

namespace Solo

variable {settings : ManagerSettings} {m m' : Manager} {s t : Office W}

/-- what a beat of such a simulation can be -/
inductive Step (m : Manager) (s : Office W) : Manager → Office W → Prop
  /-- nothing of note -/
  | idle {t : Office W} (size : t.entities.size = s.entities.size) (world : t.world = s.world)
      (story : t.happenings = s.happenings) : Step m s m t
  /-- the subordinate of a record starts -/
  | started {t v : Office W} {r : ManagedRecord} {sub : Subordinate} (record : r ∈ m.entries)
      (place : r.subordinateId = s.entities.size) (vms : sub.bundle.vms = r.vms) (tasks : sub.bundle.tasks = r.tasks)
      (size : t.entities.size = s.entities.size + 1) (before : v.world = s.world)
      (world : t.world = ((Subordinate.start : Reaction Subordinate (Agent Empty) Signal W Unit).play r.subordinateId
        sub v).2.world)
      (story : t.happenings = s.happenings) : Step m s m t
  /-- a subordinate reacts -/
  | polled {t v : Office W} {e : Event Signal} {sub : Subordinate} (target : 0 < e.target)
      (size : t.entities.size = s.entities.size) (before : v.world = s.world)
      (world : t.world = ((Subordinate.react e : Reaction Subordinate (Agent Empty) Signal W Unit).play e.target
        sub v).2.world)
      (story : t.happenings = s.happenings ++ [.reacted e]) : Step m s m t
  /-- the manager reacts, while everybody has a place -/
  | led {m' : Manager} {t : Office W} {v : View W} {e : Event Signal} {r : Except SimError Unit}
      {recruits : List Subordinate} (target : e.target = 0) (full : s.nextId = s.entities.size)
      (size : t.entities.size = s.entities.size) (before : v.world = s.world) (next : v.nextId = s.nextId)
      (reacted : m.Reacted v e.message r m' t.world recruits)
      (story : t.happenings = s.happenings ++ .reacted e :: handed s.nextId (recruits.map Agent.subordinate)) :
      Step m s m' t
  /-- the run ends -/
  | ended {m' : Manager} (stays : m' = m ∨ ∃ world : W, m' = (m.shutdown s.now world).1) : Step m s m' s.finish

end Solo

/-! ## What the manager adds -/

namespace Manager

variable {m m' : Manager}

theorem subordinateIds_entries (m : Manager) : m.entries.map ManagedRecord.subordinateId = m.subordinateIds := by
  rw [entries, List.map_map]
  rfl

theorem mem_subordinateIds {r : ManagedRecord} (hr : r ∈ m.entries) : r.subordinateId ∈ m.subordinateIds :=
  m.subordinateIds_entries ▸ List.mem_map_of_mem hr

theorem entries_eq (h : m'.entries = m.entries) :
    m'.subordinateIds = m.subordinateIds ∧ m'.records.length = m.records.length := by
  rw [← subordinateIds_entries, ← subordinateIds_entries, ← length_entries, ← length_entries, h]
  exact ⟨rfl, rfl⟩

/-- a report changes the figures only that are measured -/
theorem entries_refreshed {stats : List SubordinateStats} (hl : stats.length = m.records.length)
    (h : m'.records = List.zipWith refresh m.records stats) : m'.entries = m.entries := by
  rw [entries, h]
  exact unmeasured_refresh _ _ hl

/-- one id for each recruit -/
theorem Reacted.ids {v : View W} {signal : Signal} {r : Except SimError Unit} {world : W} {recruits : List Subordinate}
    (h : m.Reacted v signal r m' world recruits) :
    m'.subordinateIds = m.subordinateIds ++ List.range' v.nextId recruits.length ∧
      m'.records.length = m.records.length + recruits.length := by
  have same : m'.entries = m.entries → recruits = [] →
      m'.subordinateIds = m.subordinateIds ++ List.range' v.nextId recruits.length ∧
        m'.records.length = m.records.length + recruits.length := by
    rintro hentries rfl
    obtain ⟨hids, hlength⟩ := entries_eq hentries
    exact ⟨hids.trans (List.append_nil _).symm, hlength⟩
  cases h with
  | granted h =>
    refine ⟨?_, List.length_append⟩
    unfold subordinateIds keep
    rw [List.map_append]
    rfl
  | analyzed => exact same (entries_refreshed (length_gathered v.world m) rfl) rfl
  | refused | redistributed => exact same rfl rfl
  | monitored | unhandled => exact same rfl rfl

theorem entries_shutdown (now : Time) (world : W) (m : Manager) :
    (m.shutdown now world).1.entries = m.entries := by
  obtain ⟨stats, hl, heq⟩ := m.shutdown_fst now world
  exact entries_refreshed hl (congrArg records heq)

end Manager

/-! ## Step by step -/

namespace Solo

variable {settings : ManagerSettings} {m m' : Manager} {s t : Office W}

section

omit [ExecutionService W]

variable {r r' : ManagedRecord}

/-- there is one manager -/
theorem unique (h : Solo settings m s) (h' : Solo settings m' s) : m = m' := by
  obtain ⟨slot, hslot, hm⟩ := h.manager
  obtain ⟨slot', hslot', hm'⟩ := h'.manager
  cases hslot.symm.trans hslot'
  cases hm.symm.trans hm'
  rfl

/-- all ids but that of the manager are given to those on record -/
theorem mem_ids (h : Solo settings m s) (id : EntityId) : id ∈ m.subordinateIds ↔ 0 < id ∧ id < s.nextId := by
  rw [h.ids, List.mem_range'_1, h.nextId, Nat.add_comm]
  exact Iff.rfl

theorem record (h : Solo settings m s) {id : EntityId} (h0 : 0 < id) (hlt : id < s.nextId) :
    ∃ r ∈ m.entries, r.subordinateId = id := by
  obtain ⟨r, hr, rfl⟩ := List.mem_map.1 ((h.mem_ids id).2 ⟨h0, hlt⟩)
  exact ⟨r.unmeasured, List.mem_map_of_mem hr, rfl⟩

theorem positive (h : Solo settings m s) (hr : r ∈ m.entries) : 0 < r.subordinateId :=
  ((h.mem_ids _).1 (Manager.mem_subordinateIds hr)).1

/-- records are told by their ids -/
theorem injective (h : Solo settings m s) (hr : r ∈ m.entries) (hr' : r' ∈ m.entries)
    (hid : r.subordinateId = r'.subordinateId) : r = r' := by
  refine List.inj_on_of_nodup_map ?_ hr hr' hid
  rw [m.subordinateIds_entries, h.ids]
  exact List.nodup_range'

end

omit [ExecutionService W] in
/-- no subordinate starts another -/
theorem nobody {id : EntityId} {sub : Subordinate} {v u : Office W} {spawned : List (Agent Empty)} {α : Type}
    {r : Reaction Subordinate (Agent Empty) Signal W α}
    (hr : Reaction.Leads (fun s t => t.waiting = s.waiting) r) (hu : u = (r.play id sub v).2)
    (effect : Effect spawned v u) : spawned = [] := by
  have hw : u.waiting = v.waiting := hu ▸ hr id sub v
  exact effect.spawned_eq (hw.trans (List.append_nil _).symm)

omit [ExecutionService W] in
theorem lenient_waiting : Reaction.Lenient fun s t : Office W => t.waiting = s.waiting :=
  ⟨fun _ => rfl, fun h k => k.trans h, fun _ _ => rfl, fun _ _ => rfl⟩

/-- the manager has its place, the others theirs, and each new id has a record: the books are kept anyway -/
theorem after (h : Solo settings m s) (placed : Placed s) (beat : Beat (fun _ => False) s t) {slot : Slot (Agent Empty)}
    (hslot : t.entities[0]? = some slot) (hm : slot.entity = .manager m')
    (others : ∀ id slot, 0 < id → t.entities[id]? = some slot → ∃ sub, slot.entity = .subordinate sub) {n : Nat}
    (ids : m'.subordinateIds = m.subordinateIds ++ List.range' s.nextId n)
    (length : m'.records.length = m.records.length + n) (nextId : t.nextId = s.nextId + n) : Solo settings m' t := by
  have given := (beat.onward h.timely).handouts.subset h.given
  have balanced : Simulation.Balanced 0 settings s := by
    refine ⟨h.timely, fun _ slot hslot => ?_⟩
    obtain ⟨slot', hslot', hm'⟩ := h.manager
    cases hslot.symm.trans hslot'
    exact ⟨m, hm', h.books⟩
  obtain ⟨n', hn', books⟩ := (balanced.beat placed beat).books given slot hslot
  cases hm.symm.trans hn'
  refine ⟨(beat.timely h.timely).1, given, ⟨slot, hslot, hm⟩, others, books, ?_, ?_⟩
  · rw [ids, h.ids, length, h.nextId, Nat.add_comm, List.range'_append_1]
  · rw [nextId, length, h.nextId, Nat.add_right_comm]

theorem finish (h : Solo settings m s) (placed : Placed s) (live : s.terminated = false) :
    ∃ m', Solo settings m' s.finish ∧ (m' = m ∨ ∃ world : W, m' = (m.shutdown s.now world).1) := by
  obtain ⟨first, h0, hm⟩ := h.manager
  have hlt : 0 < s.finish.entities.size := size_finish s ▸ (Array.getElem?_eq_some_iff.1 h0).1
  have hslot := Array.getElem?_eq_getElem hlt
  -- the manager as it was, or as its shutdown has left it
  obtain ⟨m', hm', stays⟩ : ∃ m', s.finish.entities[0].entity = .manager m' ∧
      (m' = m ∨ ∃ world : W, m' = (m.shutdown s.now world).1) := by
    obtain ⟨old, hold, -, hlast⟩ := (finish_closed live).slot le_rfl hslot
    cases h0.symm.trans hold
    rcases hlast with ⟨-, heq⟩ | ⟨-, -, world, heq⟩
    · exact ⟨m, heq ▸ hm, .inl rfl⟩
    · rw [hm] at heq
      exact ⟨_, heq, .inr ⟨world, rfl⟩⟩
  have others : ∀ id slot, 0 < id → s.finish.entities[id]? = some slot → ∃ sub, slot.entity = .subordinate sub := by
    intro id slot hid hs
    obtain ⟨old, hold, -, hlast⟩ := (finish_closed live).slot le_rfl hs
    obtain ⟨sub, hsub⟩ := h.others id old hid hold
    rcases hlast with ⟨-, rfl⟩ | ⟨-, -, world, heq⟩
    · exact ⟨sub, hsub⟩
    · rw [hsub] at heq
      exact ⟨_, heq⟩
  have hentries : m'.entries = m.entries := by
    rcases stays with rfl | ⟨world, rfl⟩
    · rfl
    · exact m.entries_shutdown s.now world
  obtain ⟨hids, hlength⟩ := Manager.entries_eq hentries
  have hnext : s.finish.nextId = s.nextId := finish_keeps Simulation.nextId (fun _ _ _ _ _ _ => rfl) s
  have hids : m'.subordinateIds = m.subordinateIds ++ [] := hids.trans (List.append_nil _).symm
  exact ⟨m', h.after placed (.finish live) (n := 0) hslot hm' others hids hlength hnext, stays⟩

/-- a beat that leaves the manager as it is, and gives out no ids -/
theorem stays (h : Solo settings m s) (placed : Placed s) (beat : Beat (fun _ => False) s t)
    (first : t.entities[0]? = s.entities[0]?)
    (others : ∀ id slot, 0 < id → t.entities[id]? = some slot → ∃ sub, slot.entity = .subordinate sub)
    (nextId : t.nextId = s.nextId) : Solo settings m t := by
  obtain ⟨slot, hslot, hm⟩ := h.manager
  exact h.after placed beat (n := 0) (first.trans hslot) hm others (List.append_nil _).symm rfl nextId

/-- the first in line is the subordinate of a record -/
theorem first_in_line (h : Solo settings m s) (placed : Placed s) {e : Agent Empty}
    {rest : List (EntityId × Agent Empty)} (line : s.waiting = (s.entities.size, e) :: rest) :
    ∃ r ∈ m.entries, r.subordinateId = s.entities.size ∧
      ∃ sub, e = .subordinate sub ∧ sub.bundle.vms = r.vms ∧ sub.bundle.tasks = r.tasks := by
  obtain ⟨slot, hslot, -⟩ := h.manager
  have hgiven : (s.entities.size, e) ∈ s.handouts := placed.waiting _ (line ▸ List.mem_cons_self)
  have hlt : s.entities.size < s.nextId := by
    have hmem : s.entities.size ∈ s.handouts.map Prod.fst := List.mem_map_of_mem hgiven
    rwa [placed.counted, List.mem_range] at hmem
  obtain ⟨r, hr, hplace⟩ := h.record (Array.getElem?_eq_some_iff.1 hslot).1 hlt
  obtain ⟨-, sub, hsub, -, hvms, htasks⟩ := h.books.hired r hr
  exact ⟨r, hr, hplace, sub, placed.handed hgiven (hplace ▸ hsub), hvms, htasks⟩

section

variable {u v : Office W} {e y : Agent Empty} {rest : List (EntityId × Agent Empty)} {r : Except SimError Unit}
  {spawned : List (Agent Empty)}

/-- a beat in which the first in line starts -/
theorem step_started (h : Solo settings m s) (placed : Placed s) (beat : Beat (fun _ => False) s t)
    (line : s.waiting = (s.entities.size, e) :: rest)
    (before : v.core = { s.core with waiting := rest, entities := s.entities.push ⟨Named.name e, .created, e⟩ })
    (play : (Entity.start : Reaction (Agent Empty) (Agent Empty) Signal W Unit).play s.entities.size e v = ((r, y), u))
    (effect : Effect spawned v u)
    (after : t.core = { u.core with entities := s.entities.push ⟨Named.name e, stateAfter (failure? r), y⟩ })
    (nextId : t.nextId = s.nextId + spawned.length)
    (story : t.happenings = s.happenings ++ handed s.nextId spawned) :
    Solo settings m t ∧ Step m s m t := by
  obtain ⟨first, h0, -⟩ := h.manager
  have hpos : 0 < s.entities.size := (Array.getElem?_eq_some_iff.1 h0).1
  obtain ⟨record, hrecord, hplace, sub, rfl, hvms, htasks⟩ := h.first_in_line placed line
  rw [Agent.play_start_subordinate] at play
  have hy := congrArg (·.1.2) play
  have hu := congrArg Prod.snd play
  dsimp only at hy hu
  have hnobody : spawned = [] := nobody
    (Subordinate.start_leads lenient_waiting (fun _ _ _ => rfl) (fun _ _ _ => rfl)) hu.symm effect
  subst hnobody
  have hentities : t.entities = s.entities.push _ := congrArg entities after
  have hv : v.world = s.world := (congrArg Simulation.world before :)
  have hw : t.world = u.world := (congrArg Simulation.world after :)
  refine ⟨h.stays placed beat ?_ ?_ nextId, ?_⟩
  · rw [hentities, Array.getElem?_push_lt hpos]
    exact (Array.getElem?_eq_getElem hpos).symm
  · intro id slot hid hs
    rw [hentities, Array.getElem?_push] at hs
    split_ifs at hs
    · cases hs
      exact ⟨_, hy.symm⟩
    · exact h.others id slot hid hs
  · refine .started (v := v) hrecord hplace hvms htasks ?_ hv ?_ (story.trans (List.append_nil _))
    · rw [hentities, Array.size_push]
    · rw [hplace, hu, hw]

end

section

variable {u v : Office W} {e : Event Signal} {agenda : Agenda Signal} {slot : Slot (Agent Empty)} {y : Agent Empty}
  {r : Except SimError Unit} {spawned : List (Agent Empty)} (h : Solo settings m s) (placed : Placed s)
  (beat : Beat (fun _ => False) s t) (target : s.entities[e.target]? = some slot)
  (before : v.core = { s.core with agenda })
  (play : (Entity.react e : Reaction (Agent Empty) (Agent Empty) Signal W Unit).play e.target slot.entity v =
    ((r, y), u))
  (effect : Effect spawned v u)
  (after : t.core = { u.core with entities := s.entities.setIfInBounds e.target { slot with entity := y } })
  (nextId : t.nextId = s.nextId + spawned.length)
  (story : t.happenings = s.happenings ++ .reacted e :: handed s.nextId spawned)
include h placed beat target before play effect after nextId story

/-- a beat in which the manager reacts, and may recruit -/
theorem step_led (hzero : e.target = 0) (full : s.nextId = s.entities.size) :
    ∃ m', Solo settings m' t ∧ Step m s m' t := by
  obtain ⟨first, h0, hm⟩ := h.manager
  have hpos : 0 < s.entities.size := (Array.getElem?_eq_some_iff.1 h0).1
  have hslot : slot = first := by
    rw [hzero] at target
    exact Option.some.inj (target.symm.trans h0)
  subst hslot
  obtain ⟨r', m', w, recruits, u', hplay, reacted, hcore⟩ := Manager.play_reacted e.target m Agent.subordinate e v
  rw [hm, Agent.play_react_manager, hplay] at play
  cases play
  have hspawned : spawned = recruits.map .subordinate := effect.spawned_eq (congrArg waiting hcore :)
  subst hspawned
  have hentities : t.entities = s.entities.setIfInBounds e.target _ := congrArg entities after
  have hv : v.world = s.world := (congrArg Simulation.world before :)
  have hnext : v.nextId = s.nextId := (congrArg Simulation.nextId before :)
  obtain ⟨hids, hlength⟩ := reacted.ids
  have hslot : t.entities[0]? = some { slot with entity := .manager m' } := by
    rw [hentities, hzero]
    exact Array.getElem?_setIfInBounds_self_of_lt hpos
  refine ⟨m', h.after placed beat (n := recruits.length) hslot rfl ?_ (hnext ▸ hids) hlength ?_, ?_⟩
  · intro id slot hid hs
    rw [hentities, hzero, Array.getElem?_setIfInBounds_ne hid.ne] at hs
    exact h.others id slot hid hs
  · rw [nextId, List.length_map]
  · cases (congrArg Simulation.world after : _).trans (congrArg Simulation.world hcore :)
    refine .led (v := v.view e.target) hzero full ?_ hv hnext reacted story
    rw [hentities, Array.size_setIfInBounds]

/-- a beat in which a subordinate reacts -/
theorem step_polled (htarget : 0 < e.target) : Solo settings m t ∧ Step m s m t := by
  obtain ⟨sub, hsub⟩ := h.others _ slot htarget target
  rw [hsub, Agent.play_react_subordinate] at play
  have hy := congrArg (·.1.2) play
  have hu := congrArg Prod.snd play
  dsimp only at hy hu
  have hnobody : spawned = [] := nobody (Subordinate.react_leads lenient_waiting (fun _ _ => rfl) e) hu.symm effect
  subst hnobody
  have hentities : t.entities = s.entities.setIfInBounds e.target _ := congrArg entities after
  have hv : v.world = s.world := (congrArg Simulation.world before :)
  have hw : t.world = u.world := (congrArg Simulation.world after :)
  refine ⟨h.stays placed beat ?_ ?_ nextId, ?_⟩
  · rw [hentities, Array.getElem?_setIfInBounds_ne htarget.ne']
  · intro id slot' hid hs
    rw [hentities, Array.getElem?_setIfInBounds] at hs
    split_ifs at hs
    · cases hs
      exact ⟨_, hy.symm⟩
    · exact h.others id slot' hid hs
  · have hlast : t.world =
        ((Subordinate.react e : Reaction Subordinate (Agent Empty) Signal W Unit).play e.target sub v).2.world := by
      rw [hw, hu]
    refine .polled htarget ?_ hv hlast story
    rw [hentities, Array.size_setIfInBounds]

end

/-- **A beat is one of these steps**, and there is still one manager with its subordinates. -/
theorem step (h : Solo settings m s) (tidy : Tidy s) (placed : Placed s) (beat : Beat (fun _ => False) s t) :
    ∃ m', Solo settings m' t ∧ Step m s m' t := by
  have unchanged : t.entities = s.entities → t.nextId = s.nextId → Solo settings m t := fun hentities =>
    h.stays placed beat (hentities ▸ rfl) (hentities ▸ h.others)
  have taken := beat
  cases beat with
  | aside core effect story =>
    exact ⟨m, unchanged effect.entities effect.nextId,
      .idle (congrArg Array.size effect.entities) (congrArg world core :) story⟩
  | schedule delay source target message =>
    have effect := schedule_effect delay source target message s
    have hworld : (s.schedule delay source target message).2.world = s.world := by
      unfold schedule
      split <;> rfl
    exact ⟨m, unchanged effect.entities effect.nextId,
      .idle (congrArg Array.size effect.entities) hworld (happenings_schedule delay source target message s)⟩
  | cancel handle => exact ⟨m, unchanged rfl rfl, .idle rfl rfl rfl⟩
  | accept welcome => exact welcome.elim
  | drop live idle next nobody core effect story =>
    exact ⟨m, unchanged effect.entities effect.nextId,
      .idle (congrArg Array.size effect.entities) (congrArg world core :) story⟩
  | start live line before play effect after change story =>
    exact ⟨m, h.step_started placed taken line before play effect after change.nextId story⟩
  | @react _ _ u v e agenda slot y r spawned live idle next target running before play effect after change story =>
    rcases Nat.eq_zero_or_pos e.target with hzero | htarget
    · exact h.step_led placed taken target before play effect after change.nextId story hzero
        (tidy_reserved tidy idle live)
    · exact ⟨m, h.step_polled placed taken target before play effect after change.nextId story htarget⟩
  | finish live =>
    obtain ⟨m', solo, last⟩ := h.finish placed live
    exact ⟨m', solo, .ended last⟩

/-! ## Whole runs -/

/-- **So it begins**: a manager is registered with a vacant simulation, whatever comes of its start. -/
theorem registered {fuel : Nat} {r : Except SimError EntityId} (h : Vacant s)
    (begun : s.register fuel (.manager (.ofSettings settings)) = some (r, t)) :
    Solo settings (.ofSettings settings) t ∧ Settled t ∧ t.world = s.world ∧ t.entities.size = 1 ∧
      t.happenings = [.handed 0 (.manager (.ofSettings settings))] := by
  have hsize : s.entities.size = 0 := congrArg Array.size h.nobody
  let m := Manager.ofSettings settings
  obtain ⟨r, u, hplay, hcore⟩ := Manager.play_start_keeps (ε := Agent Empty) s.entities.size m
    ((s.nameNext (.manager m)).2.starting s.entities.size (.manager m))
  have hagent := Agent.play_start_manager s.entities.size
    ((s.nameNext (.manager m)).2.starting s.entities.size (.manager m)) m
  rw [hplay] at hagent
  have idle : u.waiting = [] := (congrArg Simulation.waiting hcore).trans h.settled.waiting
  obtain ⟨core, story⟩ := register_alone h.live h.settled.nextId h.settled.waiting hagent idle begun
  rw [h.story, List.nil_append, hsize] at story
  have spans := register_spans (fun _ => True) fuel (e := .manager (.ofSettings settings)) trivial h.live
  rw [begun] at spans
  have beats : Beats (fun _ => True) s t := spans.legs.1.beats (fun _ _ => trivial) h.settled.tidy h.settled.idle
  have given : (0, .manager m) ∈ t.handouts := by
    rw [handouts_eq, story]
    exact List.mem_singleton_self _
  have hentities : t.entities = #[⟨settings.name, stateAfter (failure? r), .manager m⟩] := by
    have hpush : t.entities = s.entities.push _ := (congrArg Simulation.entities core :)
    rw [hpush, h.nobody]
    rfl
  have hone : t.entities.size = 1 := congrArg Array.size hentities
  have hnext : t.nextId = 1 := by
    have hstart : u.nextId = s.nextId + 1 := (congrArg Simulation.nextId hcore :)
    have hlast : t.nextId = u.nextId := (congrArg Simulation.nextId core :)
    rw [hlast, hstart, h.settled.nextId, hsize]
  have hfirst : u.world = s.world := (congrArg Simulation.world hcore :)
  have hworld : t.world = u.world := (congrArg Simulation.world core :)
  refine ⟨⟨beats.timely h.timely, given, ⟨_, congrArg (·[0]?) hentities, rfl⟩, ?_, .fresh settings 0 t, rfl, hnext⟩,
    ⟨(congrArg Simulation.waiting core :).trans idle, hnext.trans hone.symm, beats.moves.placed h.settled.placed⟩,
    hworld.trans hfirst, hone, story⟩
  intro id slot hid hslot
  have hlt := (Array.getElem?_eq_some_iff.1 hslot).1
  rw [hone] at hlt
  exact absurd (Nat.lt_one_iff.1 hlt) hid.ne'

omit [ExecutionService W] in
theorem turn (h : Solo settings m s) (world : W) : Solo settings m { s with world } :=
  ⟨h.timely, h.given, h.manager, h.others,
    h.books.mono ⟨h.timely.now_le, le_rfl, List.prefix_rfl, List.prefix_rfl⟩ rfl rfl rfl rfl, h.ids, h.nextId⟩

/-- **What every step keeps holds of the manager and its simulation as long as they last.** -/
theorem later {Q : Manager → Office W → Prop} {drift : W → W → Prop} (solo : Solo settings m s) (settled : Settled s)
    (step : ∀ m m' s t, Solo settings m s → Placed s → Step m s m' t → Q m s → Q m' t)
    (turn : ∀ m s world, drift s.world world → Q m s → Q m { s with world }) (hq : Q m s)
    (h : Sequel Sealed drift s t) : ∃ m', Solo settings m' t ∧ Q m' t := by
  have beat : ∀ s t : Office W, Tidy s → Placed s → Beat (fun _ => False) s t →
      (∃ m, Solo settings m s ∧ Q m s) → ∃ m, Solo settings m t ∧ Q m t := by
    rintro s t tidy placed beat ⟨m, solo, hq⟩
    obtain ⟨m', solo', taken⟩ := solo.step tidy placed beat
    exact ⟨m', solo', step m m' s t solo placed taken hq⟩
  have turn : ∀ (s : Office W) (world : W), drift s.world world → (∃ m, Solo settings m s ∧ Q m s) →
      ∃ m, Solo settings m { s with world } ∧ Q m { s with world } := by
    rintro s world hdrift ⟨m, solo, hq⟩
    exact ⟨m, solo.turn world, turn m s world hdrift hq⟩
  exact (h.keep (fun e _ ha => ha e rfl) (fun e _ ha => ha e rfl) beat turn settled.tidy settled.idle settled.placed
    ⟨m, solo, hq⟩).1

end Solo

end BrokerSim
