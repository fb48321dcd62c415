/-
Entities that entities ask for. A reaction or a start reserves ids for them; they are enrolled before the call of the
registrar is over and before the next event leaves, those that they ask for in turn after all that have waited longer.
- `Enrolled`: entities took the next places of the registry in turn, and each was started there. `settle_enrolled`: those
  that wait, and all that they ask for; `register_enrolled`, `dispatch_enrolled`: whole calls.
- `register_answers`, `dispatch_answers`: these come back if no more than so many entities are asked for.
- `Peopled`: what orderly calls keep. `callDeeds_delivers`: an event for an id that was given out is delivered when it
  leaves, unless the entity could not start.
- `spawns_complete`: all of this.
-/
import BrokerSim.Proofs.Kernel.Outcome
import BrokerSim.Proofs.Kernel.Lifecycle
import BrokerSim.Proofs.Kernel.Registry

namespace BrokerSim

variable {ε μ W α : Type}

/-- the entity whose start begins -/
def Visit.started? : Visit μ → Option EntityId
  | start id => some id
  | _ => none

namespace Simulation

variable [Entity ε μ W] {s t u : Simulation ε μ W}

/-! ## Those that take the next places -/

/-- from `s` to `t` these entities took the next places of the registry in turn, and each was started there, once; whether
    it runs now is what its start answered -/
structure Enrolled (row : List ε) (visited : List (Visit μ)) (s t : Simulation ε μ W) : Prop where
  started : visited.filterMap Visit.started? = List.range' s.entities.size row.length
  size : t.entities.size = s.entities.size + row.length
  slots : ∀ i x, row[i]? = some x → ∃ error? entity, Turn μ W (s.entities.size + i) x entity ∧
    .answered (s.entities.size + i) error? ∈ visited ∧
    t.entities[s.entities.size + i]? = some ⟨Named.name x, stateAfter error?, entity⟩

theorem Enrolled.nil (s : Simulation ε μ W) : Enrolled ([] : List ε) [] s s := ⟨rfl, rfl, fun _ _ h => nomatch h⟩

/-- one entity is enrolled, and others after it, which leave it where it is -/
theorem Enrolled.cons {e entity : ε} {error? : Option SimError} {row : List ε} {visited : List (Visit μ)}
    (turn : Turn μ W s.entities.size e entity)
    (he : u.entities = s.entities.push ⟨Named.name e, stateAfter error?, entity⟩)
    (h : Enrolled row visited u t) (kept : ∀ id < u.entities.size, t.entities[id]? = u.entities[id]?) :
    Enrolled (e :: row) ([.start s.entities.size, .answered s.entities.size error?] ++ visited) s t := by
  have hsize : u.entities.size = s.entities.size + 1 := he ▸ Array.size_push _
  refine ⟨?_, ?_, ?_⟩
  · change s.entities.size :: visited.filterMap Visit.started? = _
    rw [h.started, hsize, List.length_cons, List.range'_succ]
  · rw [h.size, hsize, List.length_cons, Nat.add_right_comm, Nat.add_assoc]
  · intro i x hx
    cases i with
    | zero =>
      obtain rfl : e = x := Option.some.inj hx
      refine ⟨error?, entity, turn, List.mem_append_left _ (.tail _ (.head _)), ?_⟩
      rw [Nat.add_zero, kept _ (hsize ▸ Nat.lt_succ_self _), he]
      exact Array.getElem?_push_size
    | succ i =>
      obtain ⟨error?', entity', turn', hanswered, hslot⟩ := h.slots i x hx
      rw [hsize, Nat.add_assoc, Nat.add_comm 1] at turn' hanswered hslot
      exact ⟨error?', entity', turn', List.mem_append_right _ hanswered, hslot⟩

/-- **Those that wait are enrolled in turn,** and after them all that they ask for. -/
theorem settle_enrolled {fuel : Nat} (hs : Tidy s) (hl : s.terminated = false)
    (h : s.settle fuel = some (.ok (), t)) :
    ∃ spawned visited, Change visited spawned s t ∧ Enrolled (s.waiting.map Prod.snd ++ spawned) visited s t ∧
      t.waiting = [] ∧ ∀ id < s.entities.size, t.entities[id]? = s.entities[id]? := by
  fun_induction settle fuel s with
  | case1 fuel s hw =>
    cases h
    refine ⟨[], [], (Effect.refl _).toChange, ?_, hw, fun _ _ => rfl⟩
    rw [hw]
    exact .nil _
  | case2 s id e rest hw => cases h
  | case3 s id e rest hw fuel u hu ih =>
    cases tidy_first hs hl hw
    let b : Simulation ε μ W := { s with waiting := rest, spawned := s.spawned + 1 }
    obtain ⟨error?, entity, spawned, turn, change, entities, waiting⟩ := enrol_change e b
    obtain ⟨move, hl'⟩ := enrol_move (b := s) (s := b) hl hw rfl rfl
      ⟨(List.append_nil _).symm, (List.append_nil _).symm, rfl, rfl, rfl⟩
    rw [show b.enrol b.entities.size e = (.ok (), u) from hu] at change entities waiting move hl'
    obtain ⟨more, visited, changed, enrolled, hidle, kept⟩ := ih (move.tidy hs) hl' h
    rw [waiting, List.map_append, numbered_snd, List.append_assoc] at enrolled
    have all := change.trans changed
    refine ⟨spawned ++ more, _, ⟨all.visits, all.handouts, all.nextId, all.now, all.terminated⟩, ?_, hidle, ?_⟩
    · rw [hw]
      exact .cons (s := s) turn entities enrolled kept
    · intro id hid
      rw [kept id (by rw [entities, Array.size_push]; exact Nat.lt_succ_of_lt hid), entities]
      exact (Array.getElem?_push_lt hid).trans (Array.getElem?_eq_getElem hid).symm
  | case4 s id e rest hw fuel err u hu => cases h

/-- only the registry counts -/
theorem Enrolled.of_entities {row : List ε} {visited : List (Visit μ)} (h : Enrolled row visited s t)
    (he : u.entities = t.entities) : Enrolled row visited s u :=
  ⟨h.started, he ▸ h.size, he ▸ h.slots⟩

/-- what was done before in other places leaves the row as it is -/
theorem Enrolled.recede {row : List ε} {first visited : List (Visit μ)} (h : Enrolled row visited u t)
    (hsize : u.entities.size = s.entities.size) (hf : first.filterMap Visit.started? = []) :
    Enrolled row (first ++ visited) s t where
  started := by rw [List.filterMap_append, hf, List.nil_append, h.started, hsize]
  size := hsize ▸ h.size
  slots := by
    intro i x hx
    obtain ⟨error?, entity, turn, hanswered, hslot⟩ := h.slots i x hx
    rw [hsize] at turn hanswered hslot
    exact ⟨error?, entity, turn, List.mem_append_right _ hanswered, hslot⟩

omit [Entity ε μ W] in
/-- nobody waits, so the next id is the next place -/
theorem tidy_idle (hw : s.waiting = []) (hi : s.nextId = s.entities.size) : Tidy s := by
  intro _
  rw [hw]
  exact ⟨rfl, hi⟩

/-- **The caller's entity is enrolled,** and after it all that is asked for. -/
theorem register_enrolled {fuel : Nat} {e : ε} {id : EntityId} (hl : s.terminated = false) (hw : s.waiting = [])
    (hi : s.nextId = s.entities.size) (h : s.register fuel e = some (.ok id, t)) :
    ∃ spawned visited, Change visited (e :: spawned) s t ∧ Enrolled (e :: spawned) visited s t ∧ t.waiting = [] := by
  have hs := tidy_idle hw hi
  rw [register_eq fuel e hl] at h
  split at h
  · cases h
  · next u hu =>
    obtain ⟨⟨r, v⟩, hr, heq⟩ := Option.map_eq_some_iff.1 h
    cases r with
    | error err => cases heq
    | ok =>
      cases heq
      obtain ⟨move, hl'⟩ := register_enrol_move e hs hl hw
      have hnamed : Change [] [e] s (s.nameNext e).2 :=
        have hr := reserve_effect e s
        ⟨hr.visits, hr.handouts, hr.nextId, hr.now, hr.terminated⟩
      obtain ⟨error?, entity, first, turn, change, entities, waiting⟩ := enrol_change e (s.nameNext e).2
      have hu' : (s.nameNext e).2.enrol (s.nameNext e).2.entities.size e = (.ok (), u) := hi ▸ hu
      rw [hu'] at change entities waiting
      rw [hu] at move hl'
      obtain ⟨more, visited, changed, enrolled, hidle, kept⟩ :=
        settle_enrolled (move.tidy ((reserve_move e hl).tidy hs)) hl' hr
      have hline : u.waiting.map Prod.snd = first := by
        rw [waiting, show (s.nameNext e).2.waiting = [] from hw, List.nil_append, numbered_snd]
      rw [hline] at enrolled
      exact ⟨first ++ more, _, (hnamed.trans change).trans changed, .cons (s := s) turn entities enrolled kept, hidle⟩

/-- **All that a delivery asks for** is enrolled. -/
theorem dispatch_enrolled {fuel : Nat} {e : Event μ} (hl : s.terminated = false) (hw : s.waiting = [])
    (hi : s.nextId = s.entities.size) (h : s.dispatch fuel e = some (.ok (), t)) :
    ∃ spawned visited, Change visited spawned s t ∧ Enrolled spawned visited s t ∧ t.waiting = [] := by
  have hs := tidy_idle hw hi
  unfold dispatch at h
  split at h
  · have hnote : Effect [] s (s.note (.dropped e)) := .note rfl rfl
    have ha := hnote.trans (absorb_effect e.target (.unknownTarget e.target) _)
    cases h
    exact ⟨[], [], ha.toChange, (Enrolled.nil s).of_entities ha.entities, (ha.waiting.trans (List.append_nil _)).trans hw⟩
  · next slot htarget =>
    dsimp only at h
    split at h
    · next u hu =>
      obtain ⟨hslot, hrun⟩ := Option.filter_eq_some_iff.1 htarget
      obtain ⟨entity, first, turn, change, entities, waiting⟩ := react_change e slot s
      have ha := absorbOutcome_effect e.target (s.react e slot).1 (s.react e slot).2
      have reacted : Move s (s.react e slot).2 := .deliver hl hslot (by simpa using hrun) turn change entities waiting
      have moves := (Moves.tidy (.head reacted ha.move)) hs
      rw [hu] at ha moves
      have hchange : Change ([.react e] ++ []) (first ++ []) s u := change.trans ha.toChange
      obtain ⟨more, visited, changed, enrolled, hidle, -⟩ :=
        settle_enrolled moves (hchange.terminated.trans hl) h
      have hline : u.waiting.map Prod.snd = first ++ [] := by
        rw [ha.waiting, waiting, hw, List.nil_append, List.map_append, numbered_snd]
        rfl
      have hsize : u.entities.size = s.entities.size := by
        rw [ha.entities, entities, Array.size_setIfInBounds]
      rw [hline] at enrolled
      exact ⟨(first ++ []) ++ more, _, hchange.trans changed, enrolled.recede hsize rfl, hidle⟩
    · cases h

/-! ## Whole calls -/

/-- with these deeds just these entities were asked for, and all of them are registered and started, in the order in which
    their ids were given out; nobody waits, no event has left and no time has passed -/
structure Complete (deeds : List (Deed ε μ)) (row : List ε) (s t : Simulation ε μ W) : Prop where
  asked : handedOut deeds = numbered s.entities.size row
  enrolled : ∃ visited, t.visits = s.visits ++ visited ∧ Enrolled row visited s t
  registered : t.registered = s.registered + row.length
  settled : t.waiting = [] ∧ t.nextId = t.entities.size
  now : t.now = s.now

theorem Enrolled.complete {deeds : List (Deed ε μ)} {row : List ε} {visited : List (Visit μ)}
    (h : Enrolled row visited s t) (change : Change visited row s t) (hi : s.nextId = s.entities.size)
    (hg : t.handouts = s.handouts ++ handedOut deeds) (ha : Adds deeds s t) (hidle : t.waiting = []) :
    Complete deeds row s t where
  asked := by
    have heq := hg.symm.trans change.handouts
    rw [hi] at heq
    exact List.append_cancel_left heq
  enrolled := ⟨visited, change.visits, h⟩
  registered := by
    have hsize := ha.size
    rw [h.size] at hsize
    rw [ha.registered, Nat.add_left_cancel hsize]
  settled := ⟨hidle, by rw [h.size, change.nextId, hi]⟩
  now := change.now

theorem Strokes.adds {deeds : List (Deed ε μ)} (h : Strokes s deeds t) : Adds deeds s t := by
  induction h with
  | refl => exact .none ⟨rfl, rfl, rfl, rfl, rfl, rfl, rfl⟩
  | tail _ last ih => exact ih.trans (.stroke last)

/-- **A registration completes the spawns.** -/
theorem register_complete {fuel : Nat} {e : ε} {id : EntityId} (hl : s.terminated = false) (hw : s.waiting = [])
    (hi : s.nextId = s.entities.size) (h : s.register fuel e = some (.ok id, t)) :
    ∃ spawned, Complete (s.registerDeeds fuel e) (e :: spawned) s t := by
  obtain ⟨spawned, visited, change, enrolled, hidle⟩ := register_enrolled hl hw hi h
  have spans := register_spans (fun _ => True) (s := s) fuel (e := e) trivial hl
  rw [h] at spans
  obtain ⟨legs, -⟩ := spans.legs
  exact ⟨spawned, enrolled.complete change hi legs.handouts legs.strokes.adds hidle⟩

/-- **A delivery completes the spawns.** -/
theorem dispatch_complete {fuel : Nat} {e : Event μ} {agenda : Agenda μ} (hl : s.terminated = false)
    (hw : s.waiting = []) (hi : s.nextId = s.entities.size) (hn : s.agenda.next? = some (e, agenda))
    (h : ({ s with agenda } : Simulation ε μ W).dispatch fuel e = some (.ok (), t)) :
    ∃ spawned, Complete (({ s with agenda } : Simulation ε μ W).dispatchDeeds fuel e) spawned { s with agenda } t := by
  obtain ⟨spawned, visited, change, enrolled, hidle⟩ :=
    dispatch_enrolled (s := ({ s with agenda } : Simulation ε μ W)) hl hw hi h
  have spans := dispatch_spans (fun _ => True) fuel hl hn
  rw [h] at spans
  obtain ⟨legs, -⟩ := spans.legs
  have ha := legs.strokes.adds
  exact ⟨spawned, enrolled.complete change hi legs.handouts
    ⟨ha.dispatched, ha.size, ha.registered, ha.spawned, ha.line, ha.tally⟩ hidle⟩

/-! ## Calls come back -/

/-- the requests for new entities -/
def requests (deeds : List (Deed ε μ)) : Nat := (deeds.filterMap Deed.spawned?).length

/-- those that are still enrolling when the fuel is gone have enrolled one entity a turn -/
theorem settle_starved {fuel : Nat} (h : s.settle fuel = none) :
    fuel ≤ ((s.settleDeeds fuel).filterMap Deed.enlisted?).length := by
  fun_induction settle fuel s with
  | case1 fuel s hw => cases h
  | case2 s id e rest hw => exact Nat.zero_le _
  | case3 s id e rest hw fuel u hu ih =>
    have hrest := ih h
    unfold settleDeeds
    rw [hw]
    dsimp only
    rw [hu, List.filterMap_append, List.length_append]
    have hfirst : 1 ≤ ((Deed.enlisted id e ::
        enrolDeeds id e { s with waiting := rest, spawned := s.spawned + 1 }).filterMap Deed.enlisted?).length :=
      Nat.succ_le_succ (Nat.zero_le _)
    exact (Nat.add_comm fuel 1).le.trans (Nat.add_le_add hfirst hrest)
  | case4 s id e rest hw fuel err u hu => cases h

omit [Entity ε μ W] in
/-- nobody waited before, so all that were enlisted were asked for -/
theorem enlisted_le {deeds : List (Deed ε μ)} (h : Adds deeds s t) (hw : s.waiting = []) :
    (deeds.filterMap Deed.enlisted?).length ≤ requests deeds := by
  have hline := h.line.length_le
  rw [hw, List.nil_append, List.length_append] at hline
  exact (Nat.le_add_right _ _).trans hline

/-- **A registration is answered** if the requests do not go on for ever. -/
theorem register_answers {e : ε} {bound fuel : Nat} (hw : s.waiting = [])
    (hb : ∀ k, requests (s.registerDeeds k e) ≤ bound) (hfuel : bound < fuel) :
    ∃ r t, s.register fuel e = some (r, t) := by
  cases h : s.register fuel e with
  | some x => exact ⟨x.1, x.2, rfl⟩
  | none =>
    exfalso
    obtain ⟨t, ht⟩ : ∃ t, Strokes s (s.registerDeeds fuel e) t := callDeeds_strokes fuel s (.register e)
    have hle := (enlisted_le ht.adds hw).trans (hb fuel)
    have hmany : fuel ≤ ((s.registerDeeds fuel e).filterMap Deed.enlisted?).length := by
      unfold registerDeeds
      cases hl : s.terminated with
      | true => cases (if_pos hl : s.register fuel e = _).symm.trans h
      | false =>
        rw [register_eq fuel e hl] at h
        rw [if_neg Bool.false_ne_true]
        split at h
        · cases h
        · next u hu =>
          rw [hu, List.filterMap_append, List.length_append]
          exact (settle_starved (Option.map_eq_none_iff.1 h)).trans (Nat.le_add_left _ _)
    omega

/-- **A delivery is answered** if the requests do not go on for ever. -/
theorem dispatch_answers {e : Event μ} {agenda : Agenda μ} {bound fuel : Nat} (hl : s.terminated = false)
    (hw : s.waiting = []) (hn : s.agenda.next? = some (e, agenda))
    (hb : ∀ k, requests (({ s with agenda } : Simulation ε μ W).dispatchDeeds k e) ≤ bound) (hfuel : bound < fuel) :
    ∃ r t, ({ s with agenda } : Simulation ε μ W).dispatch fuel e = some (r, t) := by
  cases h : ({ s with agenda } : Simulation ε μ W).dispatch fuel e with
  | some x => exact ⟨x.1, x.2, rfl⟩
  | none =>
    exfalso
    obtain ⟨q, t, legs, -⟩ := dispatch_spans (fun _ => True) fuel hl hn
    have hle := (enlisted_le legs.strokes.adds hw).trans (hb fuel)
    have hmany : fuel ≤
        ((({ s with agenda } : Simulation ε μ W).dispatchDeeds fuel e).filterMap Deed.enlisted?).length := by
      unfold dispatch at h
      split at h
      · cases h
      · next slot hslot =>
        dsimp only at h
        split at h
        · next u hu =>
          rw [dispatchDeeds_ok hslot hu, List.filterMap_append, List.length_append]
          exact (settle_starved h).trans (Nat.le_add_left _ _)
        · cases h
    omega

/-! ## Events for those that were asked for -/

/-- what orderly calls keep -/
structure Peopled (s : Simulation ε μ W) : Prop where
  placed : Placed s
  alive : Alive s
  tidy : Tidy s
  idle : Idle s

theorem Reached.peopled (h : Reached Orderly s) : Peopled s := by
  obtain ⟨hp, hs, hi⟩ := h.placed
  exact ⟨hp, (h.invariant alive_fresh fun _ _ _ => Move.alive).1, hs, hi⟩

theorem Moves.alive (h : Moves s t) (hs : Alive s) : Alive t := by
  induction h with
  | refl => exact hs
  | tail _ last ih => exact last.alive ih

theorem Peopled.moves (h : Peopled s) (moves : Moves s t) (hi : Idle t) : Peopled t :=
  ⟨moves.placed h.placed, moves.alive h.alive, moves.tidy h.tidy, hi⟩

/-- under an id that was given to `x` stands what became of it; it runs unless it could not start -/
theorem Peopled.seated (h : Peopled s) (hl : s.terminated = false) {id : EntityId} {x : ε} (hx : (id, x) ∈ s.handouts) :
    ∃ slot, s.entities[id]? = some slot ∧ slot.name = Named.name x ∧ Descends μ W id x slot.entity ∧
      (slot.state = .running ∨ ∃ err, .answered id (some err) ∈ s.visits) := by
  have hlt : id < s.entities.size := by
    have hid := List.mem_map_of_mem (f := Prod.fst) hx
    rw [h.placed.counted, tidy_reserved h.tidy (h.idle hl) hl] at hid
    exact List.mem_range.1 hid
  have hslot : s.entities[id]? = some s.entities[id] := Array.getElem?_eq_getElem hlt
  obtain ⟨y, hy, hname, hdesc⟩ := h.placed.slots id _ hslot
  obtain rfl := h.placed.handed hx hy
  refine ⟨_, hslot, hname, hdesc, ?_⟩
  have hown : ∀ v ∈ life id s.visits, v ∈ s.visits ∧ v.isShutdown = false := fun v hv =>
    have hmem := (List.mem_filter.1 hv).1
    ⟨hmem, h.alive.live hl v hmem⟩
  have hpresent := h.alive.present id _ hslot
  generalize s.entities[id].state = state at hpresent
  generalize life id s.visits = own at hpresent hown
  cases hpresent with
  | refused err => exact .inr ⟨err, (hown _ (.tail _ (.head _))).1⟩
  | running events => exact .inl rfl
  | closed events time => cases (hown (.shutdown id time) (by simp)).2

/-- when the deed was done, in `u`, the event reached what had become of `x` and its reaction began, or `x` could not
    start -/
def Delivers (u : Simulation ε μ W) (d : Deed ε μ) (e : Event μ) (x : ε) : Prop :=
  (∃ err, .answered e.target (some err) ∈ u.visits) ∨
  ∃ slot, u.entities[e.target]? = some slot ∧ slot.state = .running ∧ slot.name = Named.name x ∧
    Descends μ W e.target x slot.entity ∧ d = .reacted e.target e e.time

/-- an event leaves with the first deed of its delivery, and with no other -/
theorem dispatchDeeds_head {fuel : Nat} {e f : Event μ} {d : Deed ε μ} {before after : List (Deed ε μ)}
    (h : s.dispatchDeeds fuel e = before ++ d :: after) (hd : d.popped? = some f) : before = [] ∧ f = e := by
  obtain ⟨head, tail, heq, hhead⟩ : ∃ head tail, s.dispatchDeeds fuel e = head :: tail ∧ head.popped? = some e := by
    unfold dispatchDeeds
    split
    · exact ⟨_, _, rfl, rfl⟩
    · exact ⟨_, _, rfl, rfl⟩
  have hpopped := popped_dispatchDeeds fuel e s
  have hall := hpopped
  rw [h, popped_append, popped, popped, List.filterMap_cons_some hd] at hall
  cases before with
  | nil =>
    refine ⟨rfl, ?_⟩
    cases heq.symm.trans h
    exact Option.some.inj (hd.symm.trans hhead)
  | cons b before =>
    cases heq.symm.trans h
    rw [List.filterMap_cons_some hhead] at hall
    simp at hall

omit [Entity ε μ W] in
theorem mem_handedOut {deeds : List (Deed ε μ)} {id : EntityId} {x : ε} (h : .spawned id x ∈ deeds) :
    (id, x) ∈ handedOut deeds :=
  List.mem_filterMap.2 ⟨_, h, rfl⟩

/-- an event that leaves the agenda for one who has an id -/
theorem dispatchDeeds_delivers {fuel : Nat} {e f : Event μ} {agenda : Agenda μ} {d : Deed ε μ}
    {before after : List (Deed ε μ)} {x : ε} (hs : Peopled s) (hl : s.terminated = false)
    (hn : s.agenda.next? = some (e, agenda))
    (h : ({ s with agenda } : Simulation ε μ W).dispatchDeeds fuel e = before ++ d :: after)
    (hd : d.popped? = some f) (hx : (f.target, x) ∈ s.handouts ∨ .spawned f.target x ∈ before) :
    f = e ∧ Delivers s d f x := by
  obtain ⟨rfl, rfl⟩ := dispatchDeeds_head h hd
  refine ⟨rfl, ?_⟩
  obtain ⟨slot, hslot, hname, hdesc, hrun | hfailed⟩ := hs.seated hl (hx.resolve_right List.not_mem_nil)
  · right
    refine ⟨slot, hslot, hrun, hname, hdesc, ?_⟩
    have htarget : (s.entities[f.target]?.filter fun slot => slot.state = .running) = some slot := by
      rw [hslot]
      exact if_pos (decide_eq_true hrun)
    unfold dispatchDeeds at h
    rw [htarget] at h
    cases h
    exact congrArg _ (Agenda.now_next? hn)
  · exact .inl hfailed

/-- a member of two lists in a row stands in the first or in the second -/
theorem split_append {β : Type} {l k before after : List β} {d : β} (h : l ++ k = before ++ d :: after) :
    (∃ after', l = before ++ d :: after') ∨ ∃ before', before = l ++ before' ∧ k = before' ++ d :: after := by
  rcases List.append_eq_append_iff.1 h with ⟨before', hb, hk⟩ | ⟨rest, hl, hk⟩
  · exact .inr ⟨before', hb, hk⟩
  · cases rest with
    | nil => exact .inr ⟨[], by rw [hl, List.append_nil, List.append_nil], hk.symm⟩
    | cons b rest =>
      obtain ⟨rfl, -⟩ := List.cons.inj hk
      exact .inl ⟨rest, hl⟩

/-- **No event for one who has an id is dropped in a run,** unless that one could not start. -/
theorem loopDeeds_delivers {horizon : Option Time} {fuel : Nat} {d : Deed ε μ} {f : Event μ}
    {before after : List (Deed ε μ)} {x : ε} (hs : Peopled s) (h : s.loopDeeds horizon fuel = before ++ d :: after)
    (hd : d.popped? = some f) (hx : (f.target, x) ∈ s.handouts ∨ .spawned f.target x ∈ before) :
    ∃ u agenda, Moves s u ∧ u.terminated = false ∧ u.agenda.next? = some (f, agenda) ∧ Delivers u d f x := by
  fun_induction loopDeeds horizon fuel s generalizing before with
  | case1 fuel s r hrest => simp at h
  | case2 fuel s hrest hnext => simp at h
  | case3 s hrest e agenda hnext => simp at h
  | case4 s hrest e agenda hnext fuel ih =>
    have hl := live_of_rest? hrest
    rcases split_append h with ⟨after', hnow⟩ | ⟨later, rfl, hlater⟩
    · obtain ⟨rfl, delivers⟩ := dispatchDeeds_delivers hs hl hnext hnow hd hx
      exact ⟨s, agenda, .refl, hl, hnext, delivers⟩
    · split at hlater
      · next u hu =>
        have spans := dispatch_spans (fun _ => True) fuel hl hnext
        rw [hu] at spans
        obtain ⟨legs, -⟩ := spans.legs
        obtain ⟨moves, idle⟩ := legs.moves hs.tidy hs.idle
        have hx' : (f.target, x) ∈ u.handouts ∨ .spawned f.target x ∈ later := by
          rw [legs.handouts]
          rcases hx with hx | hx
          · exact .inl (List.mem_append_left _ hx)
          · exact (List.mem_append.1 hx).imp_left fun hx => List.mem_append_right _ (mem_handedOut hx)
        obtain ⟨v, agenda', more, rest⟩ := ih u (hs.moves moves idle) hlater hx'
        exact ⟨v, agenda', moves.trans more, rest⟩
      · simp at hlater

/-- **No event for one who has an id is dropped,** whatever is called, unless that one could not start. -/
theorem callDeeds_delivers {fuel : Nat} {c : Call ε μ} {d : Deed ε μ} {f : Event μ} {before after : List (Deed ε μ)}
    {x : ε} (hs : Peopled s) (h : s.callDeeds fuel c = before ++ d :: after) (hd : d.popped? = some f)
    (hx : (f.target, x) ∈ s.handouts ∨ .spawned f.target x ∈ before) :
    ∃ u agenda, Moves s u ∧ u.terminated = false ∧ u.agenda.next? = some (f, agenda) ∧ Delivers u d f x := by
  have hpopped : popped (s.callDeeds fuel c) ≠ [] := by
    rw [h, popped_append, popped, popped, List.filterMap_cons_some hd]
    simp
  cases c with
  | register e => exact absurd (popped_registerDeeds fuel e s) hpopped
  | schedule delay source target message => exact absurd (popped_of_isAct (s.isAct_scheduling _ _ _ _)) hpopped
  | cancel handle => exact absurd (popped_of_isAct (s.isAct_cancelling _)) hpopped
  | run => exact loopDeeds_delivers hs h hd hx
  | runUntil time => exact loopDeeds_delivers hs h hd hx
  | step =>
    change s.stepDeeds fuel = _ at h
    unfold stepDeeds at h
    split_ifs at h with hl
    · simp at h
    · have hl : s.terminated = false := by simpa using hl
      split at h
      · simp at h
      · next e agenda hnext =>
        obtain ⟨rfl, delivers⟩ := dispatchDeeds_delivers hs hl hnext h hd hx
        exact ⟨s, agenda, .refl, hl, hnext, delivers⟩
  | stop => exact absurd rfl hpopped

/-- **Spawns are complete before the next event.** A registration or a delivery that nobody waited for comes back if the
    requests do not go on for ever. If no error ended it, all that were asked for meanwhile are registered and started,
    in the order of their ids, and neither has the clock moved nor has another event left. Hence an event that leaves,
    in any call, for one who was given an id before that is delivered to what has become of that one, unless that one
    could not start. -/
theorem spawns_complete :
    (∀ s : Simulation ε μ W, Amid s → s.terminated = false → s.waiting = [] → ∀ fuel,
      (∀ e,
        (∀ bound < fuel, (∀ k, requests (s.registerDeeds k e) ≤ bound) → ∃ r t, s.register fuel e = some (r, t)) ∧
        ∀ id t, s.register fuel e = some (.ok id, t) →
          popped (s.registerDeeds fuel e) = [] ∧ ∃ spawned, Complete (s.registerDeeds fuel e) (e :: spawned) s t) ∧
      ∀ e agenda, s.agenda.next? = some (e, agenda) → let left : Simulation ε μ W := { s with agenda }
        (∀ bound < fuel, (∀ k, requests (left.dispatchDeeds k e) ≤ bound) → ∃ r t, left.dispatch fuel e = some (r, t)) ∧
        ∀ t, left.dispatch fuel e = some (.ok (), t) →
          popped (left.dispatchDeeds fuel e) = [e] ∧ ∃ spawned, Complete (left.dispatchDeeds fuel e) spawned left t) ∧
    ∀ s : Simulation ε μ W, Reached Orderly s → ∀ fuel c before d after e x,
      s.callDeeds fuel c = before ++ d :: after → d.popped? = some e →
      ((e.target, x) ∈ s.handouts ∨ .spawned e.target x ∈ before) →
      ∃ u agenda, Moves s u ∧ u.terminated = false ∧ u.agenda.next? = some (e, agenda) ∧ Delivers u d e x := by
  refine ⟨?_, ?_⟩
  · intro s hs hl hw fuel
    have hi : s.nextId = s.entities.size := by
      have hcounted := hs.fair.counted hl
      rwa [hw] at hcounted
    refine ⟨fun e => ⟨?_, ?_⟩, fun e agenda hn => ⟨?_, ?_⟩⟩
    · exact fun bound hfuel hb => register_answers hw hb hfuel
    · exact fun id t h => ⟨popped_registerDeeds fuel e s, register_complete hl hw hi h⟩
    · exact fun bound hfuel hb => dispatch_answers hl hw hn hb hfuel
    · exact fun t h => ⟨popped_dispatchDeeds fuel e _, dispatch_complete hl hw hi hn h⟩
  · intro s hs fuel c before d after e x h hd hx
    exact callDeeds_delivers hs.peopled h hd hx

theorem register_after (fuel : Nat) (s : Simulation ε μ W) (e : ε) {id : EntityId}
    (h : ((s.register fuel e).bind fun x => x.1.toOption) = some id) :
    s.register fuel e = some (.ok id, s.after fuel (.register e)) := by
  obtain ⟨⟨r, t⟩, hr, hid⟩ := Option.bind_eq_some_iff.1 h
  have hafter : s.after fuel (.register e) = t := by
    rw [after, call, hr]
    rfl
  rw [hr, hafter]
  cases r with
  | ok id => cases hid; rfl
  | error err => cases hid

theorem registered_of_register {fuel : Nat} {e : ε} {r : Except SimError EntityId}
    (h : s.register fuel e = some (r, t)) : s.call fuel (.register e) = some (.registered r, t) := by
  rw [call, h]
  rfl

section Family

open Standin

/-- a player that asks for two others, of which the first asks for one more, and that sends a word to the first at once -/
def founder : Player :=
  { name := "founder"
    opening := [.spawn "child" [.spawn "grandchild" []], .spawn "twin" [], .schedule (some 1) 0 "welcome" [] false] }

/-- the founder's family has moved in -/
def household : Simulation Player Cue Stage := theatre.after 4 (.register founder)

theorem spawns_complete_of_household :
    theatre.register 4 founder = some (.ok 0, household) ∧ household.registered = 4 ∧
      (∃ visited, household.visits = theatre.visits ++ visited ∧ visited.filterMap Visit.started? = [0, 1, 2, 3]) ∧
      ∃ d ∈ household.callDeeds 1 .step, ∃ e x, ∃ u : Simulation Player Cue Stage,
        d.popped? = some e ∧ e.target = 1 ∧ Delivers u d e x := by
  have hr : theatre.register 4 founder = some (.ok 0, household) :=
    register_after 4 theatre founder (by decide +kernel)
  obtain ⟨-, spawned, complete⟩ :=
    ((spawns_complete.1 theatre (.between (.fresh _ _)) rfl rfl 4).1 founder).2 0 household hr
  have hrow : spawned.length = 3 := by
    have hcount : (handedOut (theatre.registerDeeds 4 founder)).length = 4 := by decide +kernel
    have hasked := congrArg List.length complete.asked
    exact Nat.succ.inj ((numbered_length _ _).symm.trans (hasked.symm.trans hcount))
  obtain ⟨visited, hvisits, enrolled⟩ := complete.enrolled
  refine ⟨hr, ?_, ⟨visited, hvisits, ?_⟩, ?_⟩
  · rw [complete.registered, List.length_cons, hrow]
    rfl
  · rw [enrolled.started, List.length_cons, hrow]
    rfl
  · have hstep : ((household.callDeeds 1 .step).head?.bind Deed.popped?).any (fun e => e.target == 1) = true := by
      decide +kernel
    have hgiven : (household.handouts.map Prod.fst).contains 1 = true := by decide +kernel
    obtain ⟨e, he, htarget⟩ := (Option.any_eq_true _ _).1 hstep
    obtain ⟨d, hd, hpopped⟩ := Option.bind_eq_some_iff.1 he
    obtain ⟨after, hafter⟩ := List.head?_eq_some_iff.1 hd
    obtain ⟨⟨id, x⟩, hx, rfl⟩ := List.mem_map.1 (List.contains_iff_mem.1 hgiven)
    have orderly : Reached Orderly household :=
      .call (.fresh _ _) (registered_of_register hr) fun _ _ => List.eq_nil_of_length_eq_zero (by decide +kernel)
    have htarget : e.target = 1 := beq_iff_eq.1 htarget
    obtain ⟨u, agenda, -, -, -, delivers⟩ :=
      spawns_complete.2 household orderly 1 .step [] d after e x hafter hpopped (.inl (htarget ▸ hx))
    refine ⟨d, ?_, e, x, u, hpopped, htarget, delivers⟩
    rw [hafter]
    exact List.mem_cons_self

end Family

end Simulation

end BrokerSim
