/-
The record of a run, and the accounts it keeps.
- `Stroke`: what one deed changes. `Strokes.call`: every call that is answered is a row of strokes, with its own deeds.
- `Booked`: the events. Those accepted have the handles 0, 1, 2 and so on; each of them is still to come, or it has gone
  in one way, once. `Adds`: what deeds add to the counters. Every stroke keeps to both (`Booked.stroke`, `Adds.stroke`).
- `stats_account`: after any calls, the statistics account for every event, every entity and every error.
-/
import BrokerSim.Proofs.Kernel.Moves
import BrokerSim.Proofs.Kernel.Queue

namespace BrokerSim

variable {ε μ W α : Type}

namespace Simulation

variable [Entity ε μ W]

/-! ## Strokes -/

/-- from `s` to `t` nothing changed that is counted -/
structure Silent (s t : Simulation ε μ W) : Prop where
  agenda : t.agenda = s.agenda
  waiting : t.waiting = s.waiting
  size : t.entities.size = s.entities.size
  dispatched : t.dispatched = s.dispatched
  registered : t.registered = s.registered
  spawned : t.spawned = s.spawned
  recoverable : t.recoverable = s.recoverable

/-- one deed, or none, and what it changes -/
inductive Stroke : Simulation ε μ W → List (Deed ε μ) → Simulation ε μ W → Prop
  | silent {s t : Simulation ε μ W} (h : Silent s t) : Stroke s [] t
  | schedule {s t : Simulation ε μ W} {delay : Float} {source target : EntityId} {message : μ} {handle : Handle}
      (h : s.schedule delay source target message = (.ok handle, t)) :
      Stroke s [.scheduled { time := s.now + delay, source, target, handle, message }] t
  | cancel {s t : Simulation ε μ W} {handle : Handle} (h : s.cancel handle = (true, t)) :
      Stroke s [.cancelled handle] t
  | drop {s : Simulation ε μ W} {e : Event μ} {agenda : Agenda μ} (next : s.agenda.next? = some (e, agenda)) :
      Stroke s [.dropped e] (({ s with agenda }.note (.dropped e)).absorb e.target (.unknownTarget e.target)).2
  | react {s : Simulation ε μ W} {e : Event μ} {agenda : Agenda μ} (next : s.agenda.next? = some (e, agenda)) :
      Stroke s [.reacted e.target e agenda.now] ({ s with agenda }.delivering e)
  | outcome (id : EntityId) (r : Except SimError Unit) (s : Simulation ε μ W) :
      Stroke s [.ended r] (s.absorbOutcome id r).2
  | spawn (e : ε) (s : Simulation ε μ W) : Stroke s [.spawned s.nextId e] (s.reserve e).2
  | register (e : ε) (s : Simulation ε μ W) : Stroke s [.admitted s.nextId e] ((s.nameNext e).2.insert s.nextId e)
  | enlist {s : Simulation ε μ W} {id : EntityId} {e : ε} {rest : List (EntityId × ε)}
      (line : s.waiting = (id, e) :: rest) :
      Stroke s [.enlisted id e] ({ s with waiting := rest, spawned := s.spawned + 1 }.insert id e)
  | finish (s : Simulation ε μ W) : Stroke s [] s.finish

/-- strokes in a row, and all their deeds -/
inductive Strokes : Simulation ε μ W → List (Deed ε μ) → Simulation ε μ W → Prop
  | refl (s : Simulation ε μ W) : Strokes s [] s
  | tail {s t u : Simulation ε μ W} {deeds new : List (Deed ε μ)} (before : Strokes s deeds t) (h : Stroke t new u) :
      Strokes s (deeds ++ new) u

variable {s t u : Simulation ε μ W} {deeds new : List (Deed ε μ)}

theorem Stroke.single (h : Stroke s new t) : Strokes s new t := .tail (.refl s) h

theorem Strokes.trans (h : Strokes s deeds t) (k : Strokes t new u) : Strokes s (deeds ++ new) u := by
  induction k with
  | refl => rw [List.append_nil]; exact h
  | tail _ last ih =>
    rw [← List.append_assoc]
    exact .tail ih last

theorem Strokes.silent (h : Strokes s deeds t) (k : Silent t u) : Strokes s deeds u := by
  have all := h.tail (.silent k)
  rwa [List.append_nil] at all

theorem Silent.strokes (k : Silent s t) (h : Strokes t deeds u) : Strokes s deeds u := (Stroke.silent k).single.trans h

theorem schedule_strokes (delay : Float) (source target : EntityId) (message : μ) (s : Simulation ε μ W) :
    Strokes s (s.scheduling delay source target message) (s.schedule delay source target message).2 := by
  unfold scheduling
  cases hd : Agenda.accepts delay with
  | true =>
    obtain ⟨h, agenda, heq⟩ := schedule_accepted hd source target message s
    rw [heq]
    exact (Stroke.schedule heq).single
  | false =>
    obtain ⟨reason, heq⟩ := schedule_refused hd source target message s
    rw [heq]
    exact .refl s

theorem cancel_strokes (h : Handle) (s : Simulation ε μ W) : Strokes s (s.cancelling h) (s.cancel h).2 := by
  unfold cancelling
  split_ifs with hc
  · exact (Stroke.cancel (Prod.ext hc rfl)).single
  · have hsame : (s.cancel h).2 = s := by
      unfold Simulation.cancel Agenda.cancel at hc ⊢
      split_ifs at hc ⊢
      · exact absurd rfl hc
      · rfl
    rw [hsame]
    exact .refl s

omit [Entity ε μ W] in
theorem silent_note (entry : Entry ε μ) (s : Simulation ε μ W) : Silent s (s.note entry) :=
  ⟨rfl, rfl, rfl, rfl, rfl, rfl, rfl⟩

/-- **The deeds of an action are all that it does.** -/
theorem perform_strokes (self : EntityId) (x : Action ε μ W α) (s : Simulation ε μ W) :
    Strokes s (x.deeds self s) (x.perform self s).2 := by
  induction x generalizing s with
  | done a => exact .refl s
  | observe next ih => exact ih _ s
  | schedule target delay message next ih => exact (schedule_strokes delay self target message s).trans (ih _ _)
  | cancel handle next ih => exact (cancel_strokes handle s).trans (ih _ _)
  | spawn e next ih => exact (Stroke.spawn e s).single.trans (ih _ _)
  | stop next ih => exact Silent.strokes (t := s.requestStop) ⟨rfl, rfl, rfl, rfl, rfl, rfl, rfl⟩ (ih _)
  | write world next ih => exact Silent.strokes (t := { s with world }) ⟨rfl, rfl, rfl, rfl, rfl, rfl, rfl⟩ (ih _)
  | remark r next ih => exact (silent_note _ s).strokes (ih _)

/-- an entity that is in the registry is started, and the outcome is taken -/
theorem start_strokes (id : EntityId) (s : Simulation ε μ W) :
    Strokes s (s.startDeeds id) ((s.start id).2.absorbOutcome id (s.start id).1).2 := by
  unfold startDeeds
  split
  · next hnone =>
    rw [start_astray hnone]
    exact (Strokes.refl s).silent (silent_note _ s)
  · next slot hslot =>
    have played := (silent_note (.started id) s).strokes
      (perform_strokes id ((Entity.start : Reaction ε ε μ W Unit).run.run slot.entity) (s.note (.started id)))
    rw [start_eq hslot]
    refine .tail (played.silent ?_) (.outcome id _ _)
    exact ⟨rfl, rfl, Array.size_setIfInBounds, rfl, rfl, rfl, rfl⟩

/-- the first in line is enrolled -/
theorem enlist_strokes {id : EntityId} {e : ε} {rest : List (EntityId × ε)} (hw : s.waiting = (id, e) :: rest) :
    Strokes s (.enlisted id e :: ({ s with waiting := rest, spawned := s.spawned + 1 }).enrolDeeds id e)
      (({ s with waiting := rest, spawned := s.spawned + 1 }).enrol id e).2 :=
  (Stroke.enlist hw).single.trans (start_strokes id _)

/-- the entity that the caller registers is enrolled -/
theorem admit_strokes (e : ε) (s : Simulation ε μ W) :
    Strokes s (.admitted s.nextId e :: (s.nameNext e).2.enrolDeeds s.nextId e)
      ((s.nameNext e).2.enrol s.nextId e).2 :=
  (Stroke.register e s).single.trans (start_strokes s.nextId _)

/-- an event leaves the agenda, and its target reacts -/
theorem react_strokes {e : Event μ} {agenda : Agenda μ} (hn : s.agenda.next? = some (e, agenda)) (slot : Slot ε) :
    Strokes s (({ s with agenda } : Simulation ε μ W).reactDeeds e slot)
      ((({ s with agenda } : Simulation ε μ W).react e slot).2.absorbOutcome e.target
        (({ s with agenda } : Simulation ε μ W).react e slot).1).2 := by
  let v : Simulation ε μ W := { s with agenda }
  have played := (Stroke.react hn).single.trans
    (perform_strokes e.target ((Entity.react e : Reaction ε ε μ W Unit).run.run slot.entity) (v.delivering e))
  exact .tail (played.silent (u := (v.react e slot).2) ⟨rfl, rfl, Array.size_setIfInBounds, rfl, rfl, rfl, rfl⟩)
    (.outcome e.target _ _)

section

variable {admits : Call ε μ → Prop} {p q : Phase}

/-- **Every leg is a row of strokes,** with the deeds of the leg. -/
theorem Leg.strokes (h : Leg admits p s new q t) : Strokes s new t := by
  cases h with
  | schedule delay source target message => exact schedule_strokes delay source target message s
  | cancel handle => exact cancel_strokes handle s
  | accept => exact admit_strokes _ s
  | enlist live line => exact enlist_strokes line
  | settled => exact .refl s
  | drop live next => exact (Stroke.drop next).single
  | react live next => exact react_strokes next _
  | notice => exact (Strokes.refl s).silent (silent_note _ s)
  | finish => exact (Stroke.finish s).single

theorem Legs.strokes (h : Legs admits p s deeds q t) : Strokes s deeds t :=
  h.keep (P := fun deeds _ t => Strokes s deeds t) (.refl s) fun before leg => before.trans leg.strokes

end

/-- **Every call that is answered is a row of strokes,** with the deeds of the call. -/
theorem Strokes.call {fuel : Nat} {c : Call ε μ} {a : Answer} (h : s.call fuel c = some (a, t)) :
    Strokes s (s.callDeeds fuel c) t := by
  obtain ⟨q, legs, -⟩ := call_legs (fun _ => True) trivial h
  exact legs.strokes

/-- what is kept by every stroke is kept by strokes in a row -/
theorem Strokes.keep {P : List (Deed ε μ) → Simulation ε μ W → Prop}
    (stroke : ∀ deeds new s t, Stroke s new t → P deeds s → P (deeds ++ new) t) (h : Strokes s new t)
    (hs : P deeds s) : P (deeds ++ new) t := by
  induction h with
  | refl => rw [List.append_nil]; exact hs
  | tail _ last ih =>
    rw [← List.append_assoc]
    exact stroke _ _ _ _ last ih

/-- what holds at first, of no deeds, and is kept by every stroke holds after any calls, of all their deeds -/
theorem Recorded.invariant {P : List (Deed ε μ) → Simulation ε μ W → Prop}
    (fresh : ∀ limits world, P [] (Simulation.fresh limits world))
    (stroke : ∀ deeds new s t, Stroke s new t → P deeds s → P (deeds ++ new) t) (h : Recorded deeds s) : P deeds s := by
  induction h with
  | fresh limits world => exact fresh limits world
  | call before h ih => exact (Strokes.call h).keep stroke ih

end Simulation

/-! ## Events -/

/-- the deeds of a run, and the queue that they leave: every event that was accepted is still to come, or has gone once -/
structure Booked (deeds : List (Deed ε μ)) (p : Plain μ) : Prop where
  sound : p.Sound
  issued : (deeds.filterMap Deed.scheduled?).map Event.handle = List.range p.issued
  live : ∀ e ∈ p.live, .scheduled e ∈ deeds ∧ e.handle ∉ deeds.filterMap Deed.gone?
  given : ∀ h ∈ deeds.filterMap Deed.gone?, h < p.issued
  once : (deeds.filterMap Deed.gone?).Nodup
  balance : p.issued = (deeds.filterMap Deed.gone?).length + p.live.length
  cancelled : p.cancelled = deeds.countP Deed.isCancellation
  reacted : ∀ id e now, .reacted id e now ∈ deeds → .scheduled e ∈ deeds ∧ id = e.target ∧ now = e.time

/-- whatever goes is cancelled, dropped or delivered -/
theorem Deed.length_gone (deeds : List (Deed ε μ)) :
    (deeds.filterMap gone?).length =
      deeds.countP isReaction + deeds.countP isDrop + deeds.countP isCancellation := by
  induction deeds with
  | nil => rfl
  | cons d deeds ih =>
    simp only [List.filterMap_cons, List.countP_cons]
    cases d <;> simp [gone?, isReaction, isDrop, isCancellation, ih] <;> omega

namespace Booked

variable {deeds : List (Deed ε μ)} {p q : Plain μ}

theorem fresh : Booked ([] : List (Deed ε μ)) {} where
  sound := Plain.sound_fresh
  issued := rfl
  live := fun _ he => (List.not_mem_nil he).elim
  given := fun _ he => (List.not_mem_nil he).elim
  once := List.nodup_nil
  balance := rfl
  cancelled := rfl
  reacted := fun _ _ _ he => (List.not_mem_nil he).elim

/-- what was delivered before was accepted before that -/
theorem reacted_append (hb : Booked deeds p) {d : Deed ε μ}
    (hd : ∀ id e now, d = .reacted id e now → .scheduled e ∈ deeds ∧ id = e.target ∧ now = e.time) (id : EntityId)
    (e : Event μ) (now : Time) (he : .reacted id e now ∈ deeds ++ [d]) :
    .scheduled e ∈ deeds ++ [d] ∧ id = e.target ∧ now = e.time := by
  refine And.imp_left (List.mem_append_left _) ?_
  rcases List.mem_append.1 he with he | he
  · exact hb.reacted id e now he
  · exact hd id e now (List.mem_singleton.1 he).symm

/-- a deed that is not about events -/
theorem aside (hb : Booked deeds p) {d : Deed ε μ} (hs : d.scheduled? = none) (hg : d.gone? = none) :
    Booked (deeds ++ [d]) p := by
  have hgone : (deeds ++ [d]).filterMap Deed.gone? = deeds.filterMap Deed.gone? := by simp [hg]
  have hscheduled : (deeds ++ [d]).filterMap Deed.scheduled? = deeds.filterMap Deed.scheduled? := by simp [hs]
  constructor
  case sound => exact hb.sound
  case issued => rw [hscheduled]; exact hb.issued
  case live =>
    intro e he
    rw [hgone]
    exact (hb.live e he).imp_left (List.mem_append_left _)
  case given => rw [hgone]; exact hb.given
  case once => rw [hgone]; exact hb.once
  case balance => rw [hgone]; exact hb.balance
  case cancelled =>
    have hc : d.isCancellation = false := by cases d <;> first | rfl | cases hg
    simp [hb.cancelled, hc]
  case reacted =>
    refine hb.reacted_append ?_
    rintro id e now rfl
    cases hg

/-- an event is accepted, under the next handle -/
theorem accept (hb : Booked deeds p) {e : Event μ} (he : e.handle = p.issued) (hq : (p.extend [e]).Sound) :
    Booked (deeds ++ [.scheduled e]) (p.extend [e]) := by
  have hgone : (deeds ++ [Deed.scheduled e]).filterMap Deed.gone? = deeds.filterMap Deed.gone? := by simp [Deed.gone?]
  constructor
  case sound => exact hq
  case issued => simp [Deed.scheduled?, hb.issued, Plain.extend, List.range_succ, he]
  case live =>
    intro f hf
    rw [hgone]
    rcases List.mem_append.1 hf with hf | hf
    · exact (hb.live f hf).imp_left (List.mem_append_left _)
    · cases List.mem_singleton.1 hf
      exact ⟨List.mem_append_right _ (List.mem_singleton_self _), fun hg => (hb.given _ hg).ne he⟩
  case given =>
    intro h hh
    rw [hgone] at hh
    exact Nat.lt_succ_of_lt (hb.given h hh)
  case once => rw [hgone]; exact hb.once
  case balance =>
    have := hb.balance
    rw [hgone]
    simp only [Plain.extend, List.length_append, List.length_singleton]
    omega
  case cancelled => simp [hb.cancelled, Plain.extend, Deed.isCancellation]
  case reacted =>
    refine hb.reacted_append ?_
    intro id f now hf
    cases hf

/-- an event that was still to come goes -/
theorem remove (hb : Booked deeds p) {d : Deed ε μ} {e : Event μ} (he : e ∈ p.live) (hs : d.scheduled? = none)
    (hg : d.gone? = some e.handle) (hd : ∀ id f now, d = .reacted id f now → f = e ∧ id = e.target ∧ now = e.time)
    (hq : q.Sound) (hlive : ∀ f, f ∈ q.live ↔ f ∈ p.live ∧ f.handle ≠ e.handle) (hissued : q.issued = p.issued)
    (hlength : q.live.length + 1 = p.live.length) (hcancelled : q.cancelled = p.cancelled + d.isCancellation.toNat) :
    Booked (deeds ++ [d]) q := by
  have hgone : (deeds ++ [d]).filterMap Deed.gone? = deeds.filterMap Deed.gone? ++ [e.handle] := by simp [hg]
  have hscheduled : (deeds ++ [d]).filterMap Deed.scheduled? = deeds.filterMap Deed.scheduled? := by simp [hs]
  obtain ⟨hsched, hstill⟩ := hb.live e he
  constructor
  case sound => exact hq
  case issued => rw [hscheduled, hissued]; exact hb.issued
  case live =>
    intro f hf
    obtain ⟨hf, hne⟩ := (hlive f).1 hf
    obtain ⟨hfs, hfg⟩ := hb.live f hf
    rw [hgone]
    exact ⟨List.mem_append_left _ hfs, fun h => (List.mem_append.1 h).elim hfg fun h => hne (List.mem_singleton.1 h)⟩
  case given =>
    intro h hh
    rw [hgone] at hh
    rw [hissued]
    rcases List.mem_append.1 hh with hh | hh
    · exact hb.given h hh
    · cases List.mem_singleton.1 hh
      exact hb.sound.handle e he
  case once =>
    rw [hgone]
    exact List.nodup_append.2 ⟨hb.once, List.nodup_singleton _, fun a ha b hb' hab => by
      cases List.mem_singleton.1 hb'
      exact hstill (hab ▸ ha)⟩
  case balance =>
    have := hb.balance
    rw [hgone, hissued, List.length_append, List.length_singleton]
    omega
  case cancelled =>
    rw [hcancelled, hb.cancelled]
    cases hc : d.isCancellation <;> simp [hc]
  case reacted =>
    refine hb.reacted_append ?_
    intro id f now hf
    obtain ⟨rfl, rfl, rfl⟩ := hd id f now hf
    exact ⟨hsched, rfl, rfl⟩

/-- the event that is due leaves -/
theorem leave (hb : Booked deeds p) {d : Deed ε μ} {e : Event μ} (hn : p.next? = some (e, q)) (hs : d.scheduled? = none)
    (hg : d.gone? = some e.handle) (hc : d.isCancellation = false)
    (hd : ∀ id f now, d = .reacted id f now → f = e ∧ id = e.target ∧ now = e.time) : Booked (deeds ++ [d]) q := by
  obtain ⟨he, hlive, -, hissued, hcancelled, hlength⟩ := hb.sound.next?_eq hn
  refine hb.remove he hs hg hd (hb.sound.next? hn) hlive hissued hlength ?_
  rw [hcancelled, hc]
  rfl

variable [Entity ε μ W] {s t : Simulation ε μ W} {new : List (Deed ε μ)}

/-- **Every stroke keeps the books.** -/
theorem stroke (hb : Booked deeds p) (hr : Refines s.agenda p) (h : Simulation.Stroke s new t) :
    ∃ q, Booked (deeds ++ new) q ∧ Refines t.agenda q := by
  -- none of the deeds of entities touches the agenda
  have aside : ∀ {d : Deed ε μ} {u : Simulation ε μ W}, d.scheduled? = none → d.gone? = none → u.agenda = s.agenda →
      ∃ q, Booked (deeds ++ [d]) q ∧ Refines u.agenda q := by
    intro d u hs hg hu
    exact ⟨p, hb.aside hs hg, hu ▸ hr⟩
  cases h with
  | silent h => exact ⟨p, (List.append_nil deeds).symm ▸ hb, h.agenda ▸ hr⟩
  | @schedule _ _ delay source target message handle h =>
    cases hd : Agenda.accepts delay with
    | true =>
      obtain ⟨agenda, heq, hr', hq⟩ := Simulation.schedule_eq hr hb.sound hd source target message
      cases heq.symm.trans h
      refine ⟨_, hb.accept rfl ?_, ?_⟩
      all_goals rw [show s.now = p.now from hr.now]
      · exact hq
      · exact hr'
    | false =>
      obtain ⟨reason, heq⟩ := Simulation.schedule_refused hd source target message s
      cases heq.symm.trans h
  | @cancel _ _ handle h =>
    obtain ⟨hdone, hr'⟩ := hr.cancel hb.sound handle
    have hpending : p.isPending handle = true := by
      have htrue : (s.agenda.cancel handle).1 = true := congrArg Prod.fst h
      rw [htrue] at hdone
      unfold Plain.cancel at hdone
      split_ifs at hdone with hp
      · exact hp
    obtain ⟨e, he, rfl⟩ := Plain.isPending_iff.1 hpending
    have hq : (p.cancel e.handle).2 = { p with live := p.without e.handle, cancelled := p.cancelled + 1 } := by
      unfold Plain.cancel
      rw [if_pos hpending]
    have ht : t.agenda = (s.agenda.cancel e.handle).2 := congrArg (fun x => x.2.agenda) h.symm
    refine ⟨(p.cancel e.handle).2, ?_, ht ▸ hr'⟩
    refine hb.remove he rfl rfl nofun (hb.sound.cancel e.handle) ?_ ?_ ?_ ?_
    all_goals rw [hq]
    · exact fun f => Plain.mem_without
    · have := List.length_pos_of_mem he
      have := hb.sound.length_without hpending
      change (p.without e.handle).length + 1 = _
      omega
    · rfl
  | @drop _ e agenda hn =>
    obtain ⟨q, hq, hr', -⟩ := Simulation.next?_eq hr hb.sound hn
    refine ⟨q, hb.leave hq rfl rfl rfl nofun, ?_⟩
    exact hr'
  | @react _ e agenda hn =>
    obtain ⟨q, hq, hr', -⟩ := Simulation.next?_eq hr hb.sound hn
    refine ⟨q, hb.leave hq rfl rfl rfl ?_, hr'⟩
    rintro id f now ⟨⟩
    obtain ⟨-, -, hnow, -⟩ := hb.sound.next?_eq hq
    exact ⟨rfl, rfl, hr'.now.trans hnow⟩
  | outcome id r s =>
    refine aside rfl rfl ?_
    unfold Simulation.absorbOutcome Simulation.absorb
    split
    · rfl
    · split_ifs <;> rfl
  | spawn e s => exact aside rfl rfl rfl
  | register e s => exact aside rfl rfl rfl
  | enlist line => exact aside rfl rfl rfl
  | finish s =>
    refine ⟨p, (List.append_nil deeds).symm ▸ hb, ?_⟩
    rw [Simulation.agenda_finish]
    exact hr

end Booked

/-! ## Counters -/

theorem Tally.mem_met {t : Tally} {k : ErrorKind} {n : Nat} (h : (k, n) ∈ t.met) : n = t.count k ∧ t.count k ≠ 0 := by
  unfold met at h
  obtain ⟨hmem, hn⟩ := List.mem_filter.1 h
  obtain ⟨j, -, heq⟩ := List.mem_map.1 hmem
  cases heq
  exact ⟨rfl, by simpa using hn⟩

/-- a kind of error is tallied if the run survives it; a drop is an unknown target -/
theorem Deed.countP_tallied (k : ErrorKind) (deeds : List (Deed ε μ)) :
    deeds.countP (tallied k) =
      if k.isRecoverable then deeds.countP (fails k) + if k = .unknownTarget then deeds.countP isDrop else 0 else 0 := by
  induction deeds with
  | nil => cases k <;> rfl
  | cons d deeds ih =>
    simp only [List.countP_cons, ih]
    rcases d with - | - | - | - | (err | -) | - | - | -
    case ended.error =>
      by_cases hkind : err.kind = k
      · cases hk : k.isRecoverable <;> simp [tallied, fails, isDrop, hkind, hk]
        omega
      · simp [tallied, fails, isDrop, hkind]
    case dropped =>
      cases k <;> simp [tallied, fails, isDrop, ErrorKind.isRecoverable]
      omega
    all_goals simp [tallied, fails, isDrop]

/-- what deeds add to what is counted -/
structure Adds (new : List (Deed ε μ)) (s t : Simulation ε μ W) : Prop where
  dispatched : t.dispatched = s.dispatched + new.countP Deed.isReaction
  size : t.entities.size = s.entities.size + new.countP Deed.isRegistration
  registered : t.registered = s.registered + new.countP Deed.isRegistration
  spawned : t.spawned = s.spawned + (new.filterMap Deed.enlisted?).length
  line : (new.filterMap Deed.enlisted? ++ t.waiting).Sublist (s.waiting ++ new.filterMap Deed.spawned?)
  tally : ∀ k, t.recoverable.count k = s.recoverable.count k + new.countP (Deed.tallied k)

namespace Adds

variable {deeds new : List (Deed ε μ)} {s t u : Simulation ε μ W}

theorem none (h : Simulation.Silent s t) : Adds ([] : List (Deed ε μ)) s t where
  dispatched := h.dispatched
  size := h.size
  registered := h.registered
  spawned := h.spawned
  line := by simp [h.waiting]
  tally := fun k => congrArg (Tally.count · k) h.recoverable

theorem trans (h : Adds deeds s t) (k : Adds new t u) : Adds (deeds ++ new) s u where
  dispatched := by rw [k.dispatched, h.dispatched, List.countP_append, Nat.add_assoc]
  size := by rw [k.size, h.size, List.countP_append, Nat.add_assoc]
  registered := by rw [k.registered, h.registered, List.countP_append, Nat.add_assoc]
  spawned := by rw [k.spawned, h.spawned, List.filterMap_append, List.length_append, Nat.add_assoc]
  line := by
    have first := h.line.append_right (new.filterMap Deed.spawned?)
    have second := k.line.append_left (deeds.filterMap Deed.enlisted?)
    rw [List.filterMap_append, List.filterMap_append, List.append_assoc, ← List.append_assoc s.waiting]
    rw [List.append_assoc] at first
    exact second.trans first
  tally := fun j => by rw [k.tally, h.tally, List.countP_append, Nat.add_assoc]

/-- an error is tallied if the run survives it -/
theorem failed (id : EntityId) (err : SimError) (s : Simulation ε μ W) :
    Adds ([.ended (.error err)] : List (Deed ε μ)) s (s.absorb id err).2 := by
  have hcount : ∀ k, ([.ended (.error err)] : List (Deed ε μ)).countP (Deed.tallied k) =
      if err.kind = k ∧ err.isRecoverable = true then 1 else 0 := by
    intro k
    rw [List.countP_singleton]
    by_cases hkind : err.kind = k
    · subst hkind
      simp [Deed.tallied, SimError.isRecoverable]
    · simp [Deed.tallied, hkind]
  unfold Simulation.absorb
  split_ifs with hk
  · refine ⟨rfl, rfl, rfl, rfl, by simp [Deed.enlisted?, Simulation.note], fun k => ?_⟩
    rw [hcount k]
    simpa [hk] using Tally.count_add s.recoverable err.kind k
  · refine ⟨rfl, rfl, rfl, rfl, by simp [Deed.enlisted?, Simulation.note], fun k => ?_⟩
    rw [hcount k, if_neg fun h => hk h.2]
    rfl

variable [Entity ε μ W]

/-- **What one stroke adds.** -/
theorem stroke (h : Simulation.Stroke s new t) : Adds new s t := by
  have line : ∀ l : List (EntityId × ε), l.Sublist (l ++ []) := fun l => by rw [List.append_nil]
  cases h with
  | silent h => exact none h
  | schedule h =>
    unfold Simulation.schedule at h
    split at h
    · cases h
      exact ⟨rfl, rfl, rfl, rfl, line _, fun _ => rfl⟩
    · cases h
  | @cancel _ _ handle h =>
    obtain rfl : (s.cancel handle).2 = t := congrArg Prod.snd h
    exact ⟨rfl, rfl, rfl, rfl, line _, fun _ => rfl⟩
  | drop hn =>
    refine ⟨rfl, rfl, rfl, rfl, line _, fun k => ?_⟩
    change (s.recoverable.add .unknownTarget).count k = _
    rw [Tally.count_add, List.countP_singleton]
    simp [Deed.tallied]
  | react hn => exact ⟨rfl, rfl, rfl, rfl, line _, fun _ => rfl⟩
  | outcome id r s =>
    cases r with
    | ok => exact ⟨rfl, rfl, rfl, rfl, line _, fun _ => rfl⟩
    | error err => exact failed id err s
  | spawn e s => exact ⟨rfl, rfl, rfl, rfl, .refl _, fun _ => rfl⟩
  | register e s => exact ⟨rfl, Array.size_push _, rfl, rfl, line _, fun _ => rfl⟩
  | enlist hw =>
    refine ⟨rfl, Array.size_push _, rfl, rfl, ?_, fun _ => rfl⟩
    rw [hw]
    exact line _
  | finish s =>
    have hstats := Simulation.stats_finish s
    exact ⟨congrArg Stats.dispatched hstats, Simulation.size_finish s, congrArg Stats.registered hstats,
      congrArg Stats.spawned hstats, (Simulation.waiting_finish s).trans (line _),
      fun k => congrArg (fun x => x.recoverable.count k) hstats⟩

end Adds

namespace Simulation

variable [Entity ε μ W] {s t : Simulation ε μ W} {deeds : List (Deed ε μ)}

theorem Recorded.booked (h : Recorded deeds s) : ∃ p, Booked deeds p ∧ Refines s.agenda p := by
  refine h.invariant (P := fun deeds s => ∃ p, Booked deeds p ∧ Refines s.agenda p) ?_ ?_
  · exact fun _ _ => ⟨{}, .fresh, .fresh⟩
  · rintro deeds new s t hst ⟨p, hb, hr⟩
    exact hb.stroke hr hst

theorem Recorded.adds (h : Recorded deeds s) : ∃ limits world, Adds deeds (Simulation.fresh limits world) s := by
  refine h.invariant (P := fun deeds s => ∃ limits world, Adds deeds (Simulation.fresh limits world) s) ?_ ?_
  · exact fun limits world => ⟨limits, world, .none ⟨rfl, rfl, rfl, rfl, rfl, rfl, rfl⟩⟩
  · rintro deeds new s t hst ⟨limits, world, ha⟩
    exact ⟨limits, world, ha.trans (.stroke hst)⟩

/-- whatever was called, there is a record of it -/
theorem Reached.recorded {admitted : Simulation ε μ W → Call ε μ → Answer → Simulation ε μ W → Prop}
    (h : Reached admitted s) : ∃ deeds, Recorded deeds s := by
  induction h with
  | fresh limits world => exact ⟨[], .fresh limits world⟩
  | call before h ha ih =>
    obtain ⟨deeds, hd⟩ := ih
    exact ⟨_, hd.call h⟩

/-- the agenda of a simulation is a queue, whatever was called -/
theorem Reached.isQueue {admitted : Simulation ε μ W → Call ε μ → Answer → Simulation ε μ W → Prop}
    (h : Reached admitted s) : s.agenda.IsQueue := by
  obtain ⟨deeds, hd⟩ := h.recorded
  obtain ⟨p, hb, hr⟩ := hd.booked
  exact ⟨p, hr, hb.sound⟩

/-- the statistics of a run against all that was done in it -/
structure Accounted (deeds : List (Deed ε μ)) (s : Simulation ε μ W) : Prop where
  /-- every event that was accepted was delivered, dropped or cancelled, or is still to come -/
  events : (deeds.filterMap Deed.scheduled?).length =
    s.stats.dispatched + deeds.countP Deed.isDrop + s.stats.cancelled + s.agenda.size
  dispatched : s.stats.dispatched = deeds.countP Deed.isReaction
  cancelled : s.stats.cancelled = deeds.countP Deed.isCancellation
  entities : s.stats.registered = s.entities.size ∧ s.stats.registered = deeds.countP Deed.isRegistration
  /-- those that were not registered by the caller were spawned, each by a request of its own -/
  spawned : s.stats.spawned = (deeds.filterMap Deed.enlisted?).length ∧
    (deeds.filterMap Deed.enlisted?).Sublist (deeds.filterMap Deed.spawned?)
  /-- errors that the run survives are tallied by their kind, and a drop is an unknown target -/
  recoverable : ∀ k, k.isRecoverable = true → s.stats.recoverable.count k =
    deeds.countP (Deed.fails k) + if k = .unknownTarget then deeds.countP Deed.isDrop else 0
  fatal : ∀ k n, (k, n) ∈ s.stats.recoverable.met → k.isRecoverable = true
  handles : ((deeds.filterMap Deed.scheduled?).map Event.handle).Nodup
  /-- no event goes twice, in whatever ways -/
  once : (deeds.filterMap Deed.gone?).Nodup
  /-- what is delivered was accepted, goes to its target, at its time, and was not cancelled -/
  delivered : ∀ id e now, .reacted id e now ∈ deeds →
    .scheduled e ∈ deeds ∧ id = e.target ∧ now = e.time ∧ .cancelled e.handle ∉ deeds

/-- **The statistics account for every event, every entity and every error,** after any calls. -/
theorem stats_account (h : Recorded deeds s) : Accounted deeds s := by
  obtain ⟨p, hb, hr⟩ := h.booked
  obtain ⟨limits, world, ha⟩ := h.adds
  have hdispatched : s.dispatched = deeds.countP Deed.isReaction := ha.dispatched.trans (Nat.zero_add _)
  have hsize : s.entities.size = deeds.countP Deed.isRegistration := ha.size.trans (Nat.zero_add _)
  have hregistered : s.registered = deeds.countP Deed.isRegistration := ha.registered.trans (Nat.zero_add _)
  have hspawned : s.spawned = (deeds.filterMap Deed.enlisted?).length := ha.spawned.trans (Nat.zero_add _)
  have hcancelled : s.agenda.cancelled = deeds.countP Deed.isCancellation := hr.cancelled.trans hb.cancelled
  have htally : ∀ k, s.stats.recoverable.count k = deeds.countP (Deed.tallied k) := by
    intro k
    rw [show s.stats.recoverable = s.recoverable from rfl, ha.tally k]
    cases k <;> exact Nat.zero_add _
  constructor
  case events =>
    have hissued := congrArg List.length hb.issued
    rw [List.length_map, List.length_range] at hissued
    have hbalance := hb.balance
    have hgone := Deed.length_gone deeds
    have hpending : s.agenda.size = p.live.length := hr.size
    change _ = s.dispatched + _ + s.agenda.cancelled + s.agenda.size
    omega
  case dispatched => exact hdispatched
  case cancelled => exact hcancelled
  case entities => exact ⟨hregistered.trans hsize.symm, hregistered⟩
  case spawned => exact ⟨hspawned, (List.sublist_append_left _ _).trans ha.line⟩
  case recoverable =>
    intro k hk
    rw [htally k, Deed.countP_tallied, if_pos hk]
  case fatal =>
    intro k n hmet
    by_contra hk
    obtain ⟨-, hne⟩ := Tally.mem_met hmet
    rw [htally k, Deed.countP_tallied, if_neg hk] at hne
    exact hne rfl
  case handles =>
    rw [hb.issued]
    exact List.nodup_range
  case once => exact hb.once
  case delivered =>
    intro id e now hd
    obtain ⟨hscheduled, hid, hnow⟩ := hb.reacted id e now hd
    refine ⟨hscheduled, hid, hnow, fun hc => ?_⟩
    -- two deeds with the same handle would stand in the list of what has gone
    have hsymm : Std.Symm fun a b : Deed ε μ => ∀ h, a.gone? = some h → ∀ k, b.gone? = some k → h ≠ k :=
      ⟨fun a b hab h ha k hb => (hab k hb h ha).symm⟩
    exact (List.pairwise_filterMap.1 hb.once).forall hd hc nofun _ rfl _ rfl rfl

section Premiere

open Standin

/-- a player that plans four events and cancels one of them, and asks for another player, which cannot start -/
def producer : Player :=
  { name := "producer"
    opening := [.scheduleSelf 1 "cue" [] false, .scheduleSelf 2 "cut" [] false, .schedule (some 7) 0 "lost" [] false,
      .scheduleSelf 5 "late" [] false, .cancel 1, .spawn "extra" [.fail (.execution "no stage")]] }

def rehearsed : Simulation Player Cue Stage := theatre.after 1 (.register producer)

/-- the first two events have left: one found no target, the other was delivered -/
def premiere : Simulation Player Cue Stage := (rehearsed.after 1 .step).after 1 .step

theorem stats_account_of_premiere : ∃ deeds, Recorded deeds premiere ∧ Accounted deeds premiere ∧
    (deeds.filterMap Deed.scheduled?).length = 4 ∧ deeds.countP Deed.isDrop = 1 ∧ premiere.stats.dispatched = 1 ∧
      premiere.stats.cancelled = 1 ∧ premiere.stats.spawned = 1 ∧
      premiere.stats.recoverable.met = [(.unknownTarget, 1), (.execution, 1)] := by
  obtain ⟨a, ha⟩ := call_after 1 theatre (.register producer) (by decide +kernel)
  obtain ⟨b, hb⟩ := call_after 1 rehearsed .step (by decide +kernel)
  obtain ⟨c, hc⟩ := call_after 1 (rehearsed.after 1 .step) .step (by decide +kernel)
  have opened : Recorded [] theatre := .fresh _ _
  have registered := opened.call ha
  have dropped := Recorded.call registered hb
  have delivered : Recorded _ premiere := Recorded.call dropped hc
  refine ⟨_, delivered, stats_account delivered, ?_, ?_, ?_, ?_, ?_, ?_⟩
  all_goals decide +kernel

end Premiere

end Simulation

end BrokerSim
