/-
How a run goes on, whatever was called before: also after a registration that failed and left others waiting under ids
that do not fit the registry any more.
- `Fair`: each of those that wait has an id of its own, under which nothing runs yet, so no start hits an entity that
  runs; and after the end nobody waits and nobody runs.
- `Unbroken`: what entities do never ends the run, shuts nobody down, and leaves running whoever runs.
- `Amid`: a simulation that calls lead to or pass through. `Amid.fair`: all of them are fair.
- `Legs.unbroken`: legs of calls keep it fair, and go on until the run ends.
-/
import Mathlib.Tactic
import BrokerSim.Proofs.Kernel.Chronicle

namespace BrokerSim

variable {ε μ W : Type}

namespace Simulation

/-! ## Going on -/

/-- from `s` to `t` the run went on: nothing was shut down, and whoever ran runs -/
structure Unbroken (s t : Simulation ε μ W) : Prop where
  terminated : t.terminated = s.terminated
  visits : ∃ new, t.visits = s.visits ++ new ∧ ∀ v ∈ new, v.isShutdown = false
  /-- everybody keeps place and name -/
  slots : ∀ (id : EntityId) (slot : Slot ε), s.entities[id]? = some slot →
    ∃ slot', t.entities[id]? = some slot' ∧ slot'.name = slot.name ∧ (slot.state = .running → slot'.state = .running)

/-- those that wait have ids of their own, under which nothing runs; after the end nobody waits and nobody runs -/
structure Fair (s : Simulation ε μ W) : Prop where
  given : ∀ w ∈ s.waiting, w.1 < s.nextId
  distinct : (s.waiting.map Prod.fst).Nodup
  running : ∀ id, s.runs id = true → id < s.nextId ∧ id ∉ s.waiting.map Prod.fst
  /-- as many ids were given out as there are entities, those included that wait -/
  counted : s.terminated = false → s.nextId = s.entities.size + s.waiting.length
  ended : s.terminated = true → s.waiting = [] ∧ ∀ id, s.runs id = false

variable {s t u : Simulation ε μ W}

theorem Unbroken.refl (s : Simulation ε μ W) : Unbroken s s :=
  ⟨rfl, ⟨[], (List.append_nil _).symm, fun _ h => nomatch h⟩, fun _ slot hs => ⟨slot, hs, rfl, id⟩⟩

theorem Unbroken.trans (h : Unbroken s t) (k : Unbroken t u) : Unbroken s u where
  terminated := k.terminated.trans h.terminated
  visits := by
    obtain ⟨first, hfirst, hf⟩ := h.visits
    obtain ⟨rest, hrest, hr⟩ := k.visits
    refine ⟨first ++ rest, by rw [hrest, hfirst, List.append_assoc], ?_⟩
    intro v hv
    exact (List.mem_append.1 hv).elim (hf v) (hr v)
  slots := by
    intro id slot hs
    obtain ⟨slot', hs', hname, hruns⟩ := h.slots id slot hs
    obtain ⟨slot'', hs'', hname', hruns'⟩ := k.slots id slot' hs'
    exact ⟨slot'', hs'', hname'.trans hname, fun hr => hruns' (hruns hr)⟩

/-- the registry is as it was -/
theorem Unbroken.of_entities {new : List (Visit μ)} (hv : t.visits = s.visits ++ new)
    (hn : ∀ v ∈ new, v.isShutdown = false) (ht : t.terminated = s.terminated) (he : t.entities = s.entities) :
    Unbroken s t :=
  ⟨ht, ⟨new, hv, hn⟩, fun _ slot hs => ⟨slot, he ▸ hs, rfl, id⟩⟩

theorem runs_iff {id : EntityId} : s.runs id = true ↔ ∃ slot, s.entities[id]? = some slot ∧ slot.state = .running := by
  simp [runs, Option.any_eq_true]

theorem fair_fresh (limits : Limits) (world : W) : Fair (fresh limits world : Simulation ε μ W) where
  given := fun _ h => nomatch h
  distinct := List.nodup_nil
  running := fun id h => by simp [runs, fresh] at h
  counted := fun _ => rfl
  ended := fun h => nomatch h

/-- whoever comes to wait gets the next ids -/
theorem Fair.extend (line : List EntityId) (spawned : List ε) (hs : Fair s) (hl : t.terminated = false)
    (hsub : line.Sublist (s.waiting.map Prod.fst)) (hw : t.waiting.map Prod.fst = line ++ List.range' s.nextId spawned.length)
    (hi : t.nextId = s.nextId + spawned.length) (hr : ∀ id, t.runs id = true → id < s.nextId ∧ id ∉ line)
    (hc : t.nextId = t.entities.size + t.waiting.length) : Fair t := by
  have hline : ∀ id ∈ line, id < s.nextId := by
    intro id hid
    obtain ⟨w, hw, rfl⟩ := List.mem_map.1 (hsub.subset hid)
    exact hs.given w hw
  constructor
  case given =>
    intro w hmem
    have hid := List.mem_map_of_mem (f := Prod.fst) hmem
    rw [hw, List.mem_append, List.mem_range'_1] at hid
    rw [hi]
    exact hid.elim (fun h => Nat.lt_add_right _ (hline _ h)) And.right
  case distinct =>
    rw [hw]
    refine List.nodup_append.2 ⟨hsub.nodup hs.distinct, List.nodup_range', ?_⟩
    rintro a ha b hb rfl
    exact absurd (hline a ha) (Nat.not_lt.2 (List.mem_range'_1.1 hb).1)
  case running =>
    intro id hid
    obtain ⟨hlt, hnot⟩ := hr id hid
    refine ⟨hi ▸ Nat.lt_add_right _ hlt, ?_⟩
    rw [hw, List.mem_append, List.mem_range'_1]
    exact fun h => h.elim hnot fun h => absurd hlt (Nat.not_lt.2 h.1)
  case counted => exact fun _ => hc
  case ended => exact fun ht => Bool.noConfusion (hl.symm.trans ht)

/-- **Whatever an entity does,** the run goes on. -/
theorem Effect.unbroken {spawned : List ε} (h : Effect spawned s t) : Unbroken s t :=
  .of_entities h.visits (fun _ hv => nomatch hv) h.terminated h.entities

theorem Effect.runs {spawned : List ε} (h : Effect spawned s t) (id : EntityId) : t.runs id = s.runs id := by
  rw [Simulation.runs, Simulation.runs, h.entities]

theorem Effect.fair {spawned : List ε} (h : Effect spawned s t) (hl : s.terminated = true → spawned = [])
    (hs : Fair s) : Fair t := by
  cases ht : s.terminated with
  | false =>
    refine hs.extend _ spawned (h.terminated.trans ht) (List.Sublist.refl _) ?_ h.nextId ?_ ?_
    · rw [h.waiting, List.map_append, numbered_fst]
    · intro id hid
      exact hs.running id (h.runs id ▸ hid)
    · rw [h.nextId, hs.counted ht, h.entities, h.waiting, List.length_append, numbered_length, Nat.add_assoc]
  | true =>
    obtain ⟨hw, hr⟩ := hs.ended ht
    obtain rfl := hl ht
    have hwaiting : t.waiting = [] := by rw [h.waiting, hw]; rfl
    have hnone : ∀ id, t.runs id = false := fun id => (h.runs id).trans (hr id)
    refine ⟨?_, ?_, ?_, ?_, fun _ => ⟨hwaiting, hnone⟩⟩
    · intro w hmem
      rw [hwaiting] at hmem
      cases hmem
    · rw [hwaiting]
      exact List.nodup_nil
    · intro id hid
      exact Bool.noConfusion ((hnone id).symm.trans hid)
    · exact fun hf => Bool.noConfusion (hf.symm.trans (h.terminated.trans ht))

/-- one slot is written anew, under an id at which nothing ran or still runs -/
theorem Unbroken.of_slot {id : EntityId} {old new : Slot ε} {visited : List (Visit μ)}
    (hv : t.visits = s.visits ++ visited) (hn : ∀ v ∈ visited, v.isShutdown = false) (ht : t.terminated = s.terminated)
    (ho : s.entities[id]? = some old) (he : t.entities = s.entities.setIfInBounds id new) (hname : new.name = old.name)
    (hr : old.state = .running → new.state = .running) : Unbroken s t := by
  refine ⟨ht, ⟨visited, hv, hn⟩, ?_⟩
  intro k slot hs
  by_cases hk : id = k
  · subst hk
    cases ho.symm.trans hs
    refine ⟨new, ?_, hname, hr⟩
    rw [he]
    exact Array.getElem?_setIfInBounds_self_of_lt (Array.getElem?_eq_some_iff.1 hs).1
  · refine ⟨slot, ?_, rfl, fun hrun => hrun⟩
    rw [he]
    exact (Array.getElem?_setIfInBounds_ne hk).trans hs

/-- nothing but the slot under one id can have come to run -/
theorem runs_of_setSlot {id k : EntityId} {new : Slot ε} (he : t.entities = s.entities.setIfInBounds id new)
    (hr : t.runs k = true) : k = id ∨ s.runs k = true := by
  by_cases hk : id = k
  · exact .inl hk.symm
  · right
    rw [runs, he, Array.getElem?_setIfInBounds_ne hk] at hr
    exact hr

/-! ## Starts and reactions -/

variable [Entity ε μ W]

/-- a start under an id that was given out, for which nobody waits any more and under which nothing runs -/
theorem start_unbroken {id : EntityId} (hs : Fair s) (hl : s.terminated = false) (hid : id < s.nextId)
    (hw : id ∉ s.waiting.map Prod.fst) (hr : s.runs id = false) : Unbroken s (s.start id).2 ∧ Fair (s.start id).2 := by
  cases hslot : s.entities[id]? with
  | none =>
    have hc : Change [.stray id] [] s (s.note (.misplaced id)) := .visit rfl rfl s
    rw [start_astray hslot]
    refine ⟨.of_entities hc.visits (by simp [Visit.isShutdown]) rfl rfl, ?_⟩
    exact ⟨hs.given, hs.distinct, hs.running, hs.counted, hs.ended⟩
  | some slot =>
    obtain ⟨error?, entity, spawned, -, hc, he, hline⟩ := start_change hslot
    have hidle : slot.state ≠ .running := by
      intro hrun
      exact Bool.noConfusion (hr.symm.trans (runs_iff.2 ⟨slot, hslot, hrun⟩))
    refine ⟨.of_slot hc.visits (by simp [Visit.isShutdown]) hc.terminated hslot he rfl (absurd · hidle), ?_⟩
    refine hs.extend _ spawned (hc.terminated.trans hl) (List.Sublist.refl _) ?_ hc.nextId ?_ ?_
    · rw [hline, List.map_append, numbered_fst]
    · intro k hk
      rcases runs_of_setSlot he hk with rfl | hk
      · exact ⟨hid, hw⟩
      · exact hs.running k hk
    · rw [hc.nextId, hs.counted hl, he, Array.size_setIfInBounds, hline, List.length_append, numbered_length,
        Nat.add_assoc]

/-- a new place is not taken by anybody who runs -/
theorem runs_insert (id k : EntityId) (e : ε) (s : Simulation ε μ W) :
    (s.insert id e).runs k = s.runs k := by
  change ((s.entities.push ⟨Named.name e, .created, e⟩)[k]?).any _ = (s.entities[k]?).any _
  rw [Array.getElem?_push]
  split_ifs with hk
  · rw [hk, Array.getElem?_eq_none le_rfl]
    rfl
  · rfl

/-- to put an entity into the registry shuts nobody down -/
theorem insert_unbroken (id : EntityId) (e : ε) (s : Simulation ε μ W) : Unbroken s (s.insert id e) := by
  have hn : Effect [] s (s.note (.registered id (Named.name e))) := .note rfl rfl
  refine ⟨rfl, ⟨[], hn.visits, fun _ h => nomatch h⟩, fun k slot hs => ⟨slot, ?_, rfl, fun hrun => hrun⟩⟩
  change (s.entities.push _)[k]? = _
  rw [Array.getElem?_push_lt (Array.getElem?_eq_some_iff.1 hs).1]
  exact (Array.getElem?_eq_getElem _).symm.trans hs

omit [Entity ε μ W] in
theorem absorbOutcome_unbroken (id : EntityId) (r : Except SimError Unit) (hs : Fair s) :
    Unbroken s (s.absorbOutcome id r).2 ∧ Fair (s.absorbOutcome id r).2 :=
  have ha := absorbOutcome_effect id r s
  ⟨ha.unbroken, ha.fair (fun _ => rfl) hs⟩

/-- an entity is enrolled under an id for which nobody waits any more -/
theorem enrol_unbroken {id : EntityId} {e : ε} (hs : Fair (s.insert id e)) (hl : s.terminated = false)
    (hid : id < s.nextId) (hw : id ∉ s.waiting.map Prod.fst) (hr : s.runs id = false) :
    Unbroken s (s.enrol id e).2 ∧ Fair (s.enrol id e).2 := by
  obtain ⟨started, hf⟩ := start_unbroken (s := s.insert id e) hs hl hid hw ((runs_insert id id e s).trans hr)
  obtain ⟨absorbed, hf⟩ := absorbOutcome_unbroken id ((s.insert id e).start id).1 hf
  exact ⟨((insert_unbroken id e s).trans started).trans absorbed, hf⟩

/-- **The first in line is enrolled.** -/
theorem enlist_unbroken {id : EntityId} {e : ε} {rest : List (EntityId × ε)} (hs : Fair s) (hl : s.terminated = false)
    (hw : s.waiting = (id, e) :: rest) :
    Unbroken s (({ s with waiting := rest, spawned := s.spawned + 1 }).enrol id e).2 ∧
      Fair (({ s with waiting := rest, spawned := s.spawned + 1 }).enrol id e).2 := by
  let b : Simulation ε μ W := { s with waiting := rest, spawned := s.spawned + 1 }
  have hfirst : id < s.nextId := hs.given (id, e) (hw ▸ List.mem_cons_self)
  have hdistinct := hs.distinct
  rw [hw, List.map_cons, List.nodup_cons] at hdistinct
  have hidle : s.runs id = false := by
    by_contra hrun
    refine (hs.running id (by simpa using hrun)).2 ?_
    rw [hw]
    exact List.mem_cons_self
  have hinserted : Fair (b.insert id e) := by
    refine hs.extend (rest.map Prod.fst) [] hl ?_ (List.append_nil _).symm rfl ?_ ?_
    · rw [hw]
      exact List.sublist_cons_self _ _
    · intro k hk
      obtain ⟨hlt, hnot⟩ := hs.running k ((runs_insert id k e b).symm.trans hk)
      rw [hw, List.map_cons, List.mem_cons, not_or] at hnot
      exact ⟨hlt, hnot.2⟩
    · have hcounted := hs.counted hl
      rw [hw, List.length_cons] at hcounted
      change s.nextId = (s.entities.push _).size + rest.length
      rw [Array.size_push, hcounted, Nat.add_comm rest.length, Nat.add_assoc]
  obtain ⟨enrolled, hf⟩ := enrol_unbroken (s := b) hinserted hl hfirst hdistinct.1 hidle
  exact ⟨⟨enrolled.terminated, enrolled.visits, enrolled.slots⟩, hf⟩

/-- **The caller's entity is given the next id and enrolled.** -/
theorem admit_unbroken (e : ε) (hs : Fair s) (hl : s.terminated = false) :
    Unbroken s ((s.nameNext e).2.enrol s.nextId e).2 ∧ Fair ((s.nameNext e).2.enrol s.nextId e).2 := by
  let b : Simulation ε μ W := (s.nameNext e).2
  have hnew : s.nextId ∉ s.waiting.map Prod.fst := by
    intro hmem
    obtain ⟨w, hw, heq⟩ := List.mem_map.1 hmem
    exact (hs.given w hw).ne heq
  have hidle : s.runs s.nextId = false := by
    by_contra hrun
    exact lt_irrefl _ (hs.running s.nextId (by simpa using hrun)).1
  have hnamed : Unbroken s b :=
    have hv : b.visits = s.visits ++ [] := told_note _ _ s
    .of_entities hv (fun _ h => nomatch h) rfl rfl
  have hinserted : Fair (b.insert s.nextId e) := by
    have hrunning : ∀ k, (b.insert s.nextId e).runs k = true → s.runs k = true := fun k hk =>
      (runs_insert s.nextId k e b).symm.trans hk
    refine ⟨fun w hw => Nat.lt_succ_of_lt (hs.given w hw), hs.distinct, ?_, ?_, ?_⟩
    · exact fun k hk => (hs.running k (hrunning k hk)).imp_left Nat.lt_succ_of_lt
    · intro _
      change s.nextId + 1 = (s.entities.push _).size + s.waiting.length
      rw [Array.size_push, hs.counted hl]
      exact Nat.add_right_comm _ _ _
    · exact fun ht => Bool.noConfusion (hl.symm.trans ht)
  obtain ⟨enrolled, hf⟩ := enrol_unbroken (s := b) hinserted hl (Nat.lt_succ_self _) hnew hidle
  exact ⟨hnamed.trans enrolled, hf⟩

/-- **An entity that runs reacts.** -/
theorem react_unbroken {e : Event μ} {slot : Slot ε} (hs : Fair s) (hl : s.terminated = false)
    (hslot : s.entities[e.target]? = some slot) :
    Unbroken s (s.react e slot).2 ∧ Fair (s.react e slot).2 := by
  obtain ⟨entity, spawned, -, hc, he, hline⟩ := react_change e slot s
  have hruns : ∀ k, (s.react e slot).2.runs k = true → s.runs k = true := by
    intro k hk
    by_cases hke : e.target = k
    · subst hke
      obtain ⟨slot', hs', hrun⟩ := runs_iff.1 hk
      rw [he, Array.getElem?_setIfInBounds_self_of_lt (Array.getElem?_eq_some_iff.1 hslot).1] at hs'
      cases hs'
      exact runs_iff.2 ⟨slot, hslot, hrun⟩
    · exact (runs_of_setSlot he hk).resolve_left (Ne.symm hke)
  refine ⟨.of_slot hc.visits (by simp [Visit.isShutdown]) hc.terminated hslot he rfl (fun hrun => hrun), ?_⟩
  refine hs.extend _ spawned (hc.terminated.trans hl) (List.Sublist.refl _) ?_ hc.nextId ?_ ?_
  · rw [hline, List.map_append, numbered_fst]
  · exact fun k hk => hs.running k (hruns k hk)
  · rw [hc.nextId, hs.counted hl, he, Array.size_setIfInBounds, hline, List.length_append, numbered_length,
      Nat.add_assoc]

/-- **The end of a run leaves nobody waiting and nobody running.** -/
theorem finish_fair (hs : Fair s) : Fair s.finish := by
  cases hl : s.terminated with
  | true =>
    rw [finish_of_terminated hl]
    exact hs
  | false =>
    have h := finish_closed hl
    have hnone : ∀ id, s.finish.runs id = false := by
      intro id
      by_contra hrun
      obtain ⟨slot, hslot, hstate⟩ := runs_iff.1 (by simpa using hrun)
      obtain ⟨old, -, -, ⟨hidle, rfl⟩ | ⟨-, hdown, -⟩⟩ := h.slot le_rfl hslot
      · exact hidle hstate
      · cases hdown.symm.trans hstate
    have hwaiting : s.finish.waiting = [] := h.waiting
    refine ⟨?_, ?_, ?_, ?_, fun _ => ⟨hwaiting, hnone⟩⟩
    · intro w hmem
      rw [hwaiting] at hmem
      cases hmem
    · rw [hwaiting]
      exact List.nodup_nil
    · exact fun id hid => Bool.noConfusion ((hnone id).symm.trans hid)
    · exact fun hf => Bool.noConfusion (hf.symm.trans (terminated_finish s))

/-! ## Whatever was called -/

omit [Entity ε μ W] in
/-- an event that leaves the agenda changes nothing else -/
theorem leave_unbroken (agenda : Agenda μ) (hs : Fair s) : Unbroken s { s with agenda } ∧ Fair { s with agenda } :=
  ⟨⟨rfl, ⟨[], (List.append_nil _).symm, fun _ h => nomatch h⟩, fun _ slot hslot => ⟨slot, hslot, rfl, fun hr => hr⟩⟩,
    ⟨hs.given, hs.distinct, hs.running, hs.counted, hs.ended⟩⟩

section

variable {admits : Call ε μ → Prop} {p q : Phase} {deeds new : List (Deed ε μ)}

/-- **Every leg keeps it fair,** and the run goes on as long as it does not end. -/
theorem Leg.unbroken (h : Leg admits p s new q t) (hs : Fair s) :
    Fair t ∧ (t.terminated = false → Unbroken s t) := by
  have along : ∀ {u : Simulation ε μ W}, Unbroken s u ∧ Fair u → Fair u ∧ (u.terminated = false → Unbroken s u) :=
    fun ⟨goes, fair⟩ => ⟨fair, fun _ => goes⟩
  have aside : ∀ {u : Simulation ε μ W}, Effect [] s u → Fair u ∧ (u.terminated = false → Unbroken s u) :=
    fun he => along ⟨he.unbroken, he.fair (fun _ => rfl) hs⟩
  cases h with
  | schedule delay source target message => exact aside (schedule_effect delay source target message s)
  | cancel handle => exact aside (cancel_effect handle s)
  | accept _ live => exact along (admit_unbroken _ hs live)
  | enlist live line => exact along (enlist_unbroken hs live line)
  | settled => exact along ⟨.refl s, hs⟩
  | @drop _ e agenda live =>
    obtain ⟨left, fair⟩ := leave_unbroken agenda hs
    have dropped := drop_effect e { s with agenda }
    exact along ⟨left.trans dropped.unbroken, dropped.fair (fun _ => rfl) fair⟩
  | @react _ e agenda slot live next target =>
    obtain ⟨left, fair⟩ := leave_unbroken agenda hs
    obtain ⟨reacted, fair⟩ := react_unbroken fair live target
    obtain ⟨absorbed, fair⟩ :=
      absorbOutcome_unbroken e.target (({ s with agenda } : Simulation ε μ W).react e slot).1 fair
    exact along ⟨(left.trans reacted).trans absorbed, fair⟩
  | notice h => exact aside (notice_effect h)
  | finish => exact ⟨finish_fair hs, fun live => Bool.noConfusion (live.symm.trans (terminated_finish s))⟩

theorem Legs.unbroken (h : Legs admits p s deeds q t) (hs : Fair s) :
    Fair t ∧ (t.terminated = false → Unbroken s t) := by
  refine h.keep (P := fun _ _ t => Fair t ∧ (t.terminated = false → Unbroken s t)) ⟨hs, fun _ => .refl s⟩ ?_
  rintro _ _ _ _ _ _ ⟨fair, goes⟩ leg
  obtain ⟨fair', on⟩ := leg.unbroken fair
  exact ⟨fair', fun live => (goes (leg.live live)).trans (on live)⟩

end

/-- **Every call keeps it fair.** -/
theorem Fair.call {fuel : Nat} {c : Call ε μ} {a : Answer} (hs : Fair s) (h : s.call fuel c = some (a, t)) :
    Fair t := by
  obtain ⟨q, legs, -⟩ := call_legs (fun _ => True) trivial h
  exact (legs.unbroken hs).1

theorem Recorded.fair {deeds : List (Deed ε μ)} (h : Recorded deeds s) : Fair s := by
  induction h with
  | fresh limits world => exact fair_fresh limits world
  | call before h ih => exact ih.call h

/-- a simulation that calls lead to, or that they pass through on their way -/
inductive Amid : Simulation ε μ W → Prop
  | between {s : Simulation ε μ W} {deeds : List (Deed ε μ)} (h : Recorded deeds s) : Amid s
  | admitted {s : Simulation ε μ W} (before : Amid s) (live : s.terminated = false) (e : ε) :
      Amid ((s.nameNext e).2.enrol s.nextId e).2
  | left {s : Simulation ε μ W} {e : Event μ} {agenda : Agenda μ} (before : Amid s) (live : s.terminated = false)
      (next : s.agenda.next? = some (e, agenda)) : Amid { s with agenda }
  | reacted {s : Simulation ε μ W} {e : Event μ} {slot : Slot ε} (before : Amid s) (live : s.terminated = false)
      (target : s.entities[e.target]? = some slot) (running : slot.state = .running) :
      Amid ((s.react e slot).2.absorbOutcome e.target (s.react e slot).1).2
  | enlisted {s : Simulation ε μ W} {id : EntityId} {e : ε} {rest : List (EntityId × ε)} (before : Amid s)
      (live : s.terminated = false) (line : s.waiting = (id, e) :: rest) :
      Amid (({ s with waiting := rest, spawned := s.spawned + 1 }).enrol id e).2

theorem Amid.fair (h : Amid s) : Fair s := by
  induction h with
  | between h => exact h.fair
  | admitted before live e ih => exact (admit_unbroken e ih live).2
  | left before live next ih => exact (leave_unbroken _ ih).2
  | reacted before live target running ih =>
    exact (absorbOutcome_unbroken _ _ (react_unbroken ih live target).2).2
  | enlisted before live line ih => exact (enlist_unbroken ih live line).2

end Simulation

end BrokerSim
