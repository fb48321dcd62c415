/-
Ids name places of the registry. `Placed` is what every move keeps: the ids given out so far are 0, 1, 2, … without a
gap, the entity under an id came of the one that the id was given to, and nothing is started outside the registry.
- `Legs.handouts`: ids are given out as the deeds say.
- `ids_name_places`: so it is after any calls of which no failed registration left entities waiting; then, as long as the
  run has not ended, nobody waits and the next id is the next place of the registry. And a call keeps it so if and only
  if it is not such a registration.
- `failed_start_leaves_waiting`: there are such registrations. An entity that spawns another and then fails to start
  leaves it waiting, with an id beyond the registry, and the next registration goes astray.
-/
import Mathlib.Tactic
import BrokerSim.Proofs.Kernel.Moves

namespace BrokerSim

variable {σ ε μ W α : Type}

/-- the code of the entity under an id took it from `x` to `y`, in any number of turns -/
abbrev Descends (μ W : Type) [Entity ε μ W] (id : EntityId) : ε → ε → Prop := Relation.ReflTransGen (Turn μ W id)

variable [Entity ε μ W]

namespace Simulation

/-- each id was given out once, in turn, and names the place of the entity that it was given to -/
structure Placed (s : Simulation ε μ W) : Prop where
  counted : s.handouts.map Prod.fst = List.range s.nextId
  waiting : ∀ w ∈ s.waiting, w ∈ s.handouts
  slots : ∀ id slot, s.entities[id]? = some slot →
    ∃ e, (id, e) ∈ s.handouts ∧ slot.name = Named.name e ∧ Descends μ W id e slot.entity
  strays : ∀ id, .stray id ∉ s.visits

variable {s t : Simulation ε μ W}

theorem placed_fresh (limits : Limits) (world : W) : Placed (fresh limits world : Simulation ε μ W) where
  counted := rfl
  waiting := fun _ h => nomatch h
  slots := fun _ _ h => by cases h
  strays := fun _ h => nomatch h

/-- an id is given out once -/
theorem Placed.handed (h : Placed s) {id : EntityId} {e e' : ε} (he : (id, e) ∈ s.handouts)
    (he' : (id, e') ∈ s.handouts) : e = e' := by
  have nodup : (s.handouts.map Prod.fst).Nodup := h.counted ▸ List.nodup_range
  have heq := List.inj_on_of_nodup_map nodup he he' rfl
  exact congrArg Prod.snd heq

/-! ## Every move keeps it -/

theorem Move.placed (h : Move s t) (hs : Placed s) : Placed t := by
  cases h with
  | act h live =>
    refine ⟨h.counted hs.counted, h.mem_waiting hs.waiting h.waiting, ?_, h.not_stray hs.strays (by simp)⟩
    intro id slot hslot
    rw [h.entities] at hslot
    obtain ⟨e, he, rest⟩ := hs.slots id slot hslot
    exact ⟨e, h.mem_handouts (.inl he), rest⟩
  | leave agenda live => exact ⟨hs.counted, hs.waiting, hs.slots, hs.strays⟩
  | @enrol _ e entity rest error? spawned live line turn change entities waiting =>
    have hline : ∀ w ∈ (s.entities.size, e) :: rest, w ∈ s.handouts := line ▸ hs.waiting
    refine ⟨change.counted hs.counted,
      change.mem_waiting (fun w hw => hline w (List.mem_cons_of_mem _ hw)) waiting, ?_,
      change.not_stray hs.strays (by simp)⟩
    intro id slot hslot
    rw [entities, Array.getElem?_push] at hslot
    split_ifs at hslot with hid
    · cases hslot
      rw [hid]
      exact ⟨e, change.mem_handouts (.inl (hline _ List.mem_cons_self)), rfl, .single turn⟩
    · obtain ⟨e', he', rest⟩ := hs.slots id slot hslot
      exact ⟨e', change.mem_handouts (.inl he'), rest⟩
  | @deliver _ event slot₀ entity spawned live target running turn change entities waiting =>
    refine ⟨change.counted hs.counted, change.mem_waiting hs.waiting waiting, ?_, change.not_stray hs.strays (by simp)⟩
    intro id slot hslot
    rw [entities, Array.getElem?_setIfInBounds] at hslot
    split_ifs at hslot with hid hlt
    · cases hslot
      obtain ⟨e, he, hname, hdesc⟩ := hs.slots _ _ target
      rw [← hid]
      exact ⟨e, change.mem_handouts (.inl he), hname, hdesc.tail turn⟩
    · obtain ⟨e, he, rest⟩ := hs.slots id slot hslot
      exact ⟨e, change.mem_handouts (.inl he), rest⟩
  | finish live =>
    have h := finish_closed live
    refine ⟨h.change.counted hs.counted, ?_, ?_, h.change.not_stray hs.strays (by simp)⟩
    · intro w hw
      rw [h.waiting] at hw
      cases hw
    · intro id slot hslot
      obtain ⟨old, hold, hname, hlast⟩ := h.slot le_rfl hslot
      obtain ⟨e, he, hname', hdesc⟩ := hs.slots id old hold
      refine ⟨e, h.change.mem_handouts (.inl he), hname.trans hname', ?_⟩
      rcases hlast with ⟨-, heq⟩ | ⟨-, -, world, heq⟩
      · rw [heq]; exact hdesc
      · rw [heq]; exact hdesc.tail (.shutdown s.now old.entity world)

theorem Moves.placed (h : Moves s t) (hs : Placed s) : Placed t := by
  induction h with
  | refl => exact hs
  | tail _ last ih => exact last.placed ih

/-! ## A place is kept -/

/-- whoever has a place keeps it -/
theorem Move.descends (h : Move s t) {id : EntityId} {slot : Slot ε} (hs : s.entities[id]? = some slot) :
    ∃ slot', t.entities[id]? = some slot' ∧ Descends μ W id slot.entity slot'.entity := by
  cases h with
  | act h live => exact ⟨slot, h.entities ▸ hs, .refl⟩
  | leave agenda live => exact ⟨slot, hs, .refl⟩
  | enrol live line turn change entities waiting =>
    refine ⟨slot, ?_, .refl⟩
    rw [entities, Array.getElem?_push_lt (Array.getElem?_eq_some_iff.1 hs).1]
    exact (Array.getElem?_eq_getElem _).symm.trans hs
  | @deliver _ event old entity spawned live target running turn change entities waiting =>
    by_cases hid : event.target = id
    · cases hid
      cases target.symm.trans hs
      refine ⟨{ slot with entity }, ?_, .single turn⟩
      rw [entities]
      exact Array.getElem?_setIfInBounds_self_of_lt (Array.getElem?_eq_some_iff.1 hs).1
    · exact ⟨slot, entities ▸ (Array.getElem?_setIfInBounds_ne hid).trans hs, .refl⟩
  | finish live =>
    have closed := finish_closed live
    have hlt := (Array.getElem?_eq_some_iff.1 hs).1
    by_cases hr : slot.state = .running
    · obtain ⟨world, heq⟩ := closed.closed id hlt slot hs hr
      exact ⟨_, heq, .single (.shutdown s.now slot.entity world)⟩
    · have idle : runs ({ s with terminated := true, waiting := [] } : Simulation ε μ W) id = false := by
        rw [runs, hs]
        simpa using hr
      exact ⟨slot, (closed.other id (.inr idle)).trans hs, .refl⟩

theorem Moves.descends (h : Moves s t) {id : EntityId} {slot : Slot ε} (hs : s.entities[id]? = some slot) :
    ∃ slot', t.entities[id]? = some slot' ∧ Descends μ W id slot.entity slot'.entity := by
  induction h with
  | refl => exact ⟨slot, hs, .refl⟩
  | tail _ last ih =>
    obtain ⟨slot', hs', first⟩ := ih
    obtain ⟨slot'', hs'', rest⟩ := last.descends hs'
    exact ⟨slot'', hs'', first.trans rest⟩

/-! ## Ids are given out as the deeds say -/

omit [Entity ε μ W] in
theorem handedOut_scheduling (delay : Float) (source target : EntityId) (message : μ) (s : Simulation ε μ W) :
    handedOut (s.scheduling delay source target message) = [] := by
  unfold scheduling
  split <;> rfl

omit [Entity ε μ W] in
theorem handedOut_cancelling (handle : Handle) (s : Simulation ε μ W) : handedOut (s.cancelling handle) = [] := by
  unfold cancelling
  split_ifs <;> rfl

end Simulation

open Simulation in
omit [Entity ε μ W] in
theorem Action.handouts_perform (self : EntityId) (x : Action ε μ W α) (s : Simulation ε μ W) :
    (x.perform self s).2.handouts = s.handouts ++ handedOut (x.deeds self s) := by
  induction x generalizing s with
  | done a => exact (List.append_nil _).symm
  | observe next ih => exact ih _ s
  | schedule target delay message next ih =>
    have hdeeds : handedOut (s.scheduling delay self target message) = [] := handedOut_scheduling ..
    have hsame : (s.schedule delay self target message).2.handouts = s.handouts :=
      (schedule_effect delay self target message s).handouts.trans (List.append_nil _)
    rw [Action.perform, Action.deeds, handedOut_append, hdeeds, List.nil_append, ← hsame]
    exact ih _ _
  | cancel handle next ih =>
    have hdeeds : handedOut (s.cancelling handle) = [] := handedOut_cancelling ..
    rw [Action.perform, Action.deeds, handedOut_append, hdeeds, List.nil_append]
    exact ih _ (s.cancel handle).2
  | spawn e next ih =>
    have hmore : (s.reserve e).2.handouts = s.handouts ++ [(s.nextId, e)] := (reserve_effect e s).handouts
    refine (ih (s.reserve e).1 (s.reserve e).2).trans ?_
    rw [hmore, List.append_assoc]
    rfl
  | stop next ih => exact ih s.requestStop
  | write world next ih => exact ih { s with world }
  | remark r next ih =>
    have hsame : (s.note (.remark r)).handouts = s.handouts := (told_note _ _ s).trans (List.append_nil _)
    rw [← hsame]
    exact ih (s.note (.remark r))

omit [Entity ε μ W] in
/-- the end of a reaction gives nothing out -/
theorem Reaction.handedOut_deeds (r : Reaction σ ε μ W Unit) (self : EntityId) (x : σ) (s : Simulation ε μ W) :
    handedOut (r.deeds self x s) = handedOut ((r.run.run x).deeds self s) := by
  rw [Reaction.deeds, handedOut_append]
  exact List.append_nil _

namespace Simulation

variable {s t : Simulation ε μ W}

omit [Entity ε μ W] in
theorem handouts_absorbOutcome (id : EntityId) (r : Except SimError Unit) (s : Simulation ε μ W) :
    (s.absorbOutcome id r).2.handouts = s.handouts :=
  (absorbOutcome_effect id r s).handouts.trans (List.append_nil _)

theorem handouts_enrol (id : EntityId) (e : ε) (s : Simulation ε μ W) :
    (s.enrol id e).2.handouts = s.handouts ++ handedOut (s.enrolDeeds id e) := by
  have hinsert : (s.insert id e).handouts = s.handouts := (told_note _ _ s).trans (List.append_nil _)
  have hstart : ((s.insert id e).start id).2.handouts = s.handouts ++ handedOut (s.enrolDeeds id e) := by
    unfold enrolDeeds startDeeds
    split
    · next hnone =>
      rw [start_astray hnone]
      exact (told_note _ _ _).trans (congrArg (· ++ []) hinsert)
    · next slot hslot =>
      have hnote : ((s.insert id e).note (.started id)).handouts = s.handouts :=
        ((told_note _ _ _).trans (List.append_nil _)).trans hinsert
      have hplayed := (Entity.start.run.run slot.entity).handouts_perform id ((s.insert id e).note (.started id))
      rw [start_eq hslot, Reaction.handedOut_deeds, ← hnote]
      exact ((told_note _ _ _).trans (List.append_nil _)).trans hplayed
  exact (handouts_absorbOutcome id _ _).trans hstart

theorem handouts_react (e : Event μ) (slot : Slot ε) (s : Simulation ε μ W) :
    (s.react e slot).2.handouts = s.handouts ++ handedOut (s.reactDeeds e slot) := by
  have hdelivering : (s.delivering e).handouts = s.handouts := (told_note _ _ s).trans (List.append_nil _)
  have hplayed := ((Entity.react e : Reaction ε ε μ W Unit).run.run slot.entity).handouts_perform e.target (s.delivering e)
  rw [hdelivering] at hplayed
  exact hplayed.trans (congrArg _ (Reaction.handedOut_deeds ..).symm)

theorem handouts_finish (s : Simulation ε μ W) : s.finish.handouts = s.handouts := by
  cases hl : s.terminated with
  | false => exact (finish_closed hl).change.handouts.trans (List.append_nil _)
  | true => rw [finish_of_terminated hl]

section

variable {admits : Call ε μ → Prop} {p q : Phase} {deeds new : List (Deed ε μ)}

theorem Leg.handouts (h : Leg admits p s new q t) : t.handouts = s.handouts ++ handedOut new := by
  cases h with
  | schedule delay source target message =>
    rw [handedOut_scheduling]
    exact (schedule_effect delay source target message s).handouts
  | cancel handle =>
    rw [handedOut_cancelling]
    exact (cancel_effect handle s).handouts
  | @accept _ e =>
    have hnamed : (s.nameNext e).2.handouts = s.handouts ++ [(s.nextId, e)] := told_note _ _ s
    rw [handouts_enrol, hnamed, List.append_assoc]
    rfl
  | @enlist _ id e rest => exact handouts_enrol id e { s with waiting := rest, spawned := s.spawned + 1 }
  | settled => exact (List.append_nil _).symm
  | @drop _ e agenda => exact (drop_effect e { s with agenda }).handouts
  | @react _ e agenda slot => exact (handouts_absorbOutcome e.target _ _).trans (handouts_react e slot { s with agenda })
  | notice h => exact (notice_effect h).handouts
  | finish =>
    rw [handouts_finish]
    exact (List.append_nil _).symm

theorem Legs.handouts (h : Legs admits p s deeds q t) : t.handouts = s.handouts ++ handedOut deeds := by
  refine h.keep (P := fun deeds _ t => t.handouts = s.handouts ++ handedOut deeds) (List.append_nil _).symm ?_
  intro _ _ _ _ _ _ before leg
  rw [leg.handouts, before, handedOut_append, List.append_assoc]

end

/-! ## Any calls -/

theorem Reached.placed (h : Reached Orderly s) : Placed s ∧ Tidy s ∧ Idle s :=
  h.invariant placed_fresh fun _ _ _ => Move.placed

theorem register_id {fuel : Nat} {e : ε} {id : EntityId} (hl : s.terminated = false)
    (h : s.register fuel e = some (.ok id, t)) : id = s.nextId := by
  rw [register_eq fuel e hl] at h
  split at h
  · cases h
  · obtain ⟨⟨r, u⟩, -, heq⟩ := Option.map_eq_some_iff.1 h
    cases r with
    | error err => cases heq
    | ok => cases heq; rfl

/-- the id that a registration answers is that of the new entity, which has its place -/
theorem register_ok {fuel : Nat} {e : ε} {id : EntityId} (hp : Placed s) (hs : Tidy s) (hi : Idle s)
    (h : s.register fuel e = some (.ok id, t)) : (id, e) ∈ t.handouts ∧ id < t.entities.size := by
  cases hl : s.terminated with
  | true =>
    have hr : s.register fuel e = some (.error (.terminated s.now), s) := if_pos hl
    cases hr.symm.trans h
  | false =>
    have spans := register_spans (fun _ => True) (s := s) fuel (e := e) trivial hl
    rw [h] at spans
    obtain ⟨legs, live⟩ := spans.legs
    obtain ⟨moves, idle⟩ := legs.moves hs hi
    have given : (id, e) ∈ t.handouts := by
      rw [legs.handouts, register_id hl h, registerDeeds, if_neg (by simp [hl])]
      exact List.mem_append_right _ List.mem_cons_self
    have hid := List.mem_map_of_mem (f := Prod.fst) given
    rw [(moves.placed hp).counted, tidy_reserved (moves.tidy hs) (idle live) live] at hid
    exact ⟨given, List.mem_range.1 hid⟩

theorem orderly_iff {fuel : Nat} {c : Call ε μ} {a : Answer} (hs : Tidy s) (hi : Idle s)
    (h : s.call fuel c = some (a, t)) :
    (t.terminated = false → t.waiting = [] ∧ t.nextId = t.entities.size) ↔ Orderly s c a t := by
  constructor
  · rintro ht hl ⟨err, rfl⟩
    obtain ⟨e, rfl, hr⟩ := register_of_call h
    have spans := register_spans (fun _ => True) (s := s) fuel (e := e) trivial hl
    rw [hr] at spans
    exact (ht spans.legs.2).1
  · intro ha hl
    obtain ⟨moves, hidle⟩ := idle_call hs hi h ha
    exact ⟨hidle hl, tidy_reserved (moves.tidy hs) (hidle hl) hl⟩

/-- **Ids name places of the registry.** After any calls of which no failed registration left entities waiting, the ids
    given out are 0, 1, 2, … in turn; under each id there is, if anything, what became of the entity that the id was
    given to; no start went astray; and nobody waits and the next id is the next place, as long as the run has not ended.
    The next call keeps it so if and only if it is not a registration that fails and leaves entities waiting. -/
theorem ids_name_places (h : Reached Orderly s) :
    s.handouts.map Prod.fst = List.range s.nextId ∧
    (∀ id slot, s.entities[id]? = some slot →
      ∃ e, (id, e) ∈ s.handouts ∧ slot.name = Named.name e ∧ Descends μ W id e slot.entity) ∧
    (∀ id, .stray id ∉ s.visits) ∧
    (s.terminated = false → s.waiting = [] ∧ s.nextId = s.entities.size) ∧
    (∀ fuel e id t, s.call fuel (.register e) = some (.registered (.ok id), t) →
      (id, e) ∈ t.handouts ∧ id < t.entities.size) ∧
    ∀ fuel c a t, s.call fuel c = some (a, t) →
      ((t.terminated = false → t.waiting = [] ∧ t.nextId = t.entities.size) ↔ Orderly s c a t) := by
  obtain ⟨hp, hs, hi⟩ := h.placed
  refine ⟨hp.counted, hp.slots, hp.strays, fun hl => ⟨hi hl, tidy_reserved hs (hi hl) hl⟩, ?_,
    fun _ _ _ _ hc => orderly_iff hs hi hc⟩
  intro fuel e id t hc
  obtain ⟨⟨r, u⟩, hu, heq⟩ := Option.map_eq_some_iff.1 hc
  cases heq
  exact register_ok hp hs hi hu

/-! ## Players -/

/-- the lead's family took the first three places, and the latecomer of the run the next one -/
theorem ids_name_places_of_player :
    Reached Orderly gathered ∧ gathered.nextId = 3 ∧ Reached Orderly performed ∧
      performed.handouts.map Prod.fst = [0, 1, 2, 3] ∧
      ∃ slot e, performed.entities[3]? = some slot ∧ (3, e) ∈ performed.handouts ∧ e.name = "latecomer" ∧
        Descends Standin.Cue Standin.Stage 3 e slot.entity := by
  have before := ids_name_places gathered_loyal.orderly
  have after := ids_name_places performed_loyal.orderly
  have hnext : gathered.nextId = gathered.entities.size := (before.2.2.2.1 (by decide +kernel)).2
  have hcount : performed.nextId = 4 := by decide +kernel
  have hlast : performed.entities[3]?.map Slot.name = some "latecomer" := by decide +kernel
  obtain ⟨slot, hslot, hname⟩ := Option.map_eq_some_iff.1 hlast
  obtain ⟨e, he, hcalled, hdesc⟩ := after.2.1 3 slot hslot
  refine ⟨gathered_loyal.orderly, ?_, performed_loyal.orderly, ?_, slot, e, hslot, he, hcalled.symm.trans hname, hdesc⟩
  · rw [hnext]
    decide +kernel
  · rw [after.1, hcount]
    rfl

/-- a player that spawns another and then fails to start -/
def troublemaker : Standin.Player := ⟨"troublemaker", [.spawn "player" [], .fail (.reaction 0 "trouble")], 0⟩

/-- **A failed start leaves its spawns waiting.** The troublemaker's player waits under an id beyond the registry, the
    run goes on, and the next registration goes astray. -/
theorem failed_start_leaves_waiting :
    Reached (fun _ _ _ _ => True) (theatre.after 1 (.register troublemaker)) ∧
      (theatre.after 1 (.register troublemaker)).terminated = false ∧
      (theatre.after 1 (.register troublemaker)).waiting.length = 1 ∧
      (theatre.after 1 (.register troublemaker)).nextId = 2 ∧
      (theatre.after 1 (.register troublemaker)).entities.size = 1 ∧
      .stray 2 ∈ ((theatre.after 1 (.register troublemaker)).after 2 (.register ⟨"player", [], 0⟩)).visits := by
  obtain ⟨a, ha⟩ := call_after 1 theatre (.register troublemaker) (by decide +kernel)
  refine ⟨.call (.fresh {} {}) ha trivial, by decide +kernel, by decide +kernel, by decide +kernel, by decide +kernel, ?_⟩
  have h : ((theatre.after 1 (.register troublemaker)).after 2 (.register ⟨"player", [], 0⟩)).visits.any
      (fun v => match v with | .stray id => id == 2 | _ => false) = true := by decide +kernel
  obtain ⟨v, hv, hs⟩ := List.any_eq_true.1 h
  cases v with
  | stray id =>
    have hid : id = 2 := beq_iff_eq.1 hs
    exact hid ▸ hv
  | _ => cases hs

end Simulation

end BrokerSim
