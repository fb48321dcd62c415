/-
Runs beat by beat. A move says what the registry and the journal can look like after it; a beat (`Beat`) also says what
the entity played, on which simulation, and how that ended, so whatever an entity does to itself, to the world and to
the agenda can be followed through a run.
- `Happening`: ids and reactions as they came, for those who follow a run by its story.
- `finish_first`: at the end the first place is shut down first, in the world as it is.
- `Beat.moves`: every beat is a row of moves, so all that moves keep is kept.
- `call_beats`: every call that is answered is a row of beats.
- `Tick`: what is seen of a run: a call is answered, an event is delivered and the run goes on, the world turns by
  itself. `Sequel`: any number of those.
- `Sequel.keep`: what beats keep holds of all that is seen later. `Sequel.settled`: and as long as there are no errors,
  nobody waits and the next id is the next place of the registry (`Settled`). `Vacant`: how it all begins.
-/
import BrokerSim.Proofs.Kernel.Order
import BrokerSim.Proofs.Kernel.Registry

namespace BrokerSim

variable {ε μ W : Type}

/-- a queue stands behind the agenda, in which nothing is overdue -/
def Agenda.IsTimely (a : Agenda μ) : Prop := ∃ history p, Filed history p ∧ Refines a p

theorem Agenda.isTimely_fresh : ({} : Agenda μ).IsTimely := ⟨[], {}, .fresh, .fresh⟩

/-- its clock shows a time -/
theorem Agenda.IsTimely.now_le {a : Agenda μ} (h : a.IsTimely) : a.now ≤ a.now := by
  obtain ⟨history, p, hf, hr⟩ := h
  rw [hr.now]
  exact Time.le_refl hf.sound.now

/-! ## In turn -/

/-- an id was given to an entity, or an entity reacted to an event -/
inductive Happening (ε μ : Type) where
  | handed (id : EntityId) (entity : ε)
  | reacted (event : Event μ)

def Entry.happening? : Entry ε μ → Option (Happening ε μ)
  | .reserved id e => some (.handed id e)
  | .dispatched e => some (.reacted e)
  | _ => none

def Happening.handout? : Happening ε μ → Option (EntityId × ε)
  | handed id e => some (id, e)
  | reacted _ => none

/-- entities are given the next ids in turn -/
def handed (id : EntityId) (l : List ε) : List (Happening ε μ) := (numbered id l).map fun w => .handed w.1 w.2

namespace Simulation

/-- ids and reactions as they came -/
def happenings (s : Simulation ε μ W) : List (Happening ε μ) := s.told Entry.happening?

theorem handouts_eq (s : Simulation ε μ W) : s.handouts = s.happenings.filterMap Happening.handout? := by
  unfold handouts happenings told
  rw [List.filterMap_reverse, List.filterMap_filterMap]
  refine congrArg (fun read => (s.journal.filterMap read).reverse) (funext fun entry => ?_)
  cases entry <;> rfl

theorem happenings_note {x : Entry ε μ} (h : x.happening? = none) (s : Simulation ε μ W) :
    (s.note x).happenings = s.happenings := by
  rw [happenings, told_note, h]
  exact List.append_nil _

theorem happenings_schedule (delay : Float) (source target : EntityId) (message : μ) (s : Simulation ε μ W) :
    (s.schedule delay source target message).2.happenings = s.happenings := by
  unfold schedule
  split <;> rfl

theorem happenings_reserve (e : ε) (s : Simulation ε μ W) :
    (s.reserve e).2.happenings = s.happenings ++ [.handed s.nextId e] := told_note _ _ s

theorem happenings_absorb (id : EntityId) (r : Except SimError Unit) (s : Simulation ε μ W) :
    (s.absorbOutcome id r).2.happenings = s.happenings := by
  cases r with
  | ok => rfl
  | error err =>
    unfold absorbOutcome absorb
    dsimp only
    split_ifs
    · exact happenings_note (x := .recovered s.now id err) rfl s
    · exact happenings_note rfl s

end Simulation

/-- an action tells of those that it spawns, and of nothing else -/
theorem Action.perform_happenings {α : Type} (self : EntityId) (x : Action ε μ W α) {spawned : List ε}
    {s : Simulation ε μ W} (h : Simulation.Effect spawned s (x.perform self s).2) :
    (x.perform self s).2.happenings = s.happenings ++ handed s.nextId spawned := by
  have told : ∀ s : Simulation ε μ W, ∃ l, (x.perform self s).2.handouts = s.handouts ++ l ∧
      (x.perform self s).2.happenings = s.happenings ++ l.map fun w => .handed w.1 w.2 := by
    clear h
    induction x with
    | done a => exact fun s => ⟨[], (List.append_nil _).symm, (List.append_nil _).symm⟩
    | observe next ih => exact fun s => ih _ s
    | schedule target delay message next ih =>
      intro s
      obtain ⟨l, handouts, happenings⟩ := ih (s.schedule delay self target message).1
        (s.schedule delay self target message).2
      have effect := Simulation.schedule_effect delay self target message s
      have same : (s.schedule delay self target message).2.handouts = s.handouts :=
        effect.handouts.trans (List.append_nil _)
      exact ⟨l, same ▸ handouts, Simulation.happenings_schedule delay self target message s ▸ happenings⟩
    | cancel handle next ih => exact fun s => ih _ (s.cancel handle).2
    | spawn e next ih =>
      intro s
      obtain ⟨l, handouts, happenings⟩ := ih s.nextId (s.reserve e).2
      refine ⟨(s.nextId, e) :: l, ?_, ?_⟩
      · rw [(Simulation.reserve_effect e s).handouts, List.append_assoc] at handouts
        exact handouts
      · rw [Simulation.happenings_reserve, List.append_assoc] at happenings
        exact happenings
    | stop next ih => exact fun s => ih s.requestStop
    | write world next ih => exact fun s => ih { s with world }
    | remark r next ih =>
      intro s
      obtain ⟨l, handouts, happenings⟩ := ih (s.note (.remark r))
      have effect : Simulation.Effect [] s (s.note (.remark r)) := .note rfl rfl
      have same : (s.note (.remark r)).handouts = s.handouts := effect.handouts.trans (List.append_nil _)
      have told : (s.note (.remark r)).happenings = s.happenings := Simulation.happenings_note rfl s
      exact ⟨l, same ▸ handouts, told ▸ happenings⟩
  obtain ⟨l, handouts, happenings⟩ := told s
  have heq : l = numbered s.nextId spawned := List.append_cancel_left (handouts.symm.trans h.handouts)
  rw [happenings, heq]
  rfl

namespace Simulation

theorem core_absorb (id : EntityId) (err : SimError) (s : Simulation ε μ W) : (s.absorb id err).2.core = s.core := by
  unfold absorb
  split_ifs <;> rfl

theorem core_absorbOutcome (id : EntityId) (r : Except SimError Unit) (s : Simulation ε μ W) :
    (s.absorbOutcome id r).2.core = s.core := by
  cases r with
  | ok => rfl
  | error err => exact core_absorb id err s

variable [Entity ε μ W]

/-! ## The end of a run -/

variable {s : Simulation ε μ W}

/-- what each shutdown keeps is kept when all are shut down -/
theorem foldl_close {P : Simulation ε μ W → Prop} {l : List EntityId} (hc : ∀ s, ∀ id ∈ l, P s → P (s.close id))
    (hs : P s) : P (l.foldl close s) := by
  induction l generalizing s with
  | nil => exact hs
  | cons id l ih =>
    exact ih (fun s id hid => hc s id (List.mem_cons_of_mem _ hid)) (hc s id List.mem_cons_self hs)

/-- the end of a run tells of shutdowns only -/
theorem happenings_finish (s : Simulation ε μ W) : s.finish.happenings = s.happenings := by
  have closed : ∀ (t : Simulation ε μ W), ∀ id ∈ List.range s.entities.size, t.happenings = s.happenings →
      (t.close id).happenings = s.happenings := by
    intro t id _ h
    unfold close
    split
    · exact h
    · next slot hslot =>
      split_ifs
      · have quiet : ∀ r, (Entry.remark r : Entry ε μ).happening? = none := fun _ => rfl
        have told := told_exchange quiet (Entity.shutdown μ t.now slot.entity) (t.note (.closed t.now id))
        exact told.trans ((happenings_note rfl t).trans h)
      · exact h
  unfold finish
  split_ifs
  · rfl
  · exact (happenings_note rfl _).trans (foldl_close closed rfl)

/-- the world at the end, if shutdowns move it only so far -/
theorem finish_within {R : W → W → Prop} [IsPreorder W R]
    (hk : ∀ now e, Exchange.Within R (Entity.shutdown μ now e : Exchange W ε)) (s : Simulation ε μ W) :
    R s.world s.finish.world := by
  have closed : ∀ (t : Simulation ε μ W), ∀ id ∈ List.range s.entities.size, R s.world t.world →
      R s.world (t.close id).world := by
    intro t id _ h
    unfold close
    split
    · exact h
    · next slot hslot =>
      split_ifs
      · exact IsTrans.trans _ _ _ h (hk t.now slot.entity t.world)
      · exact h
  unfold finish
  split_ifs
  · exact refl _
  · exact foldl_close (P := fun t => R s.world t.world) closed (refl s.world)

/-- the first entity is the first to be shut down -/
theorem finish_first {slot : Slot ε} (hl : s.terminated = false) (h : s.entities[0]? = some slot)
    (hr : slot.state = .running) : s.finish.entities[0]? =
      some { slot with state := .shutdown, entity := (Entity.shutdown μ s.now slot.entity s.world).1 } := by
  let s' : Simulation ε μ W := { s with terminated := true, waiting := [] }
  have other : ∀ (t : Simulation ε μ W) (id : EntityId), id ≠ 0 → (t.close id).entities[0]? = t.entities[0]? := by
    intro t id hid
    unfold close
    split
    · rfl
    · split_ifs
      · exact Array.getElem?_setIfInBounds_ne hid
      · rfl
  obtain ⟨hlt, -⟩ := Array.getElem?_eq_some_iff.1 h
  obtain ⟨n, hn⟩ : ∃ n, s.entities.size = n + 1 := ⟨s.entities.size - 1, by omega⟩
  have first : (s'.close 0).entities[0]? =
      some { slot with state := .shutdown, entity := (Entity.shutdown μ s.now slot.entity s.world).1 } := by
    rw [close_running (t := s') h hr]
    exact Array.getElem?_setIfInBounds_self_of_lt hlt
  have rest := foldl_close (s := s'.close 0) (l := (List.range n).map Nat.succ)
    (P := fun t => t.entities[0]? = (s'.close 0).entities[0]?)
    (fun t id hid ht => by
      obtain ⟨k, -, rfl⟩ := List.mem_map.1 hid
      exact (other t _ (Nat.succ_ne_zero k)).trans ht) rfl
  unfold finish
  rw [if_neg (by simp [hl])]
  change (((List.range s.entities.size).foldl close s').note _).entities[0]? = _
  rw [hn, List.range_succ_eq_map]
  exact rest.trans first

/-! ## Beats -/

/-- one beat of a run to which the caller hands over such entities only as it `admits` -/
inductive Beat (admits : ε → Prop) : Simulation ε μ W → Simulation ε μ W → Prop
  /-- something is logged or counted -/
  | aside {s t : Simulation ε μ W} (core : t.core = s.core) (effect : Effect [] s t)
      (story : t.happenings = s.happenings) : Beat admits s t
  | schedule (delay : Float) (source target : EntityId) (message : μ) (s : Simulation ε μ W) :
      Beat admits s (s.schedule delay source target message).2
  | cancel (handle : Handle) (s : Simulation ε μ W) : Beat admits s (s.cancel handle).2
  /-- the caller hands over an entity, which is then alone in line -/
  | accept {s : Simulation ε μ W} {e : ε} (welcome : admits e) (live : s.terminated = false) (idle : s.waiting = []) :
      Beat admits s (s.reserve e).2
  /-- the first in line takes its place and starts -/
  | start {s t u v : Simulation ε μ W} {e y : ε} {rest : List (EntityId × ε)} {r : Except SimError Unit}
      {spawned : List ε} (live : s.terminated = false) (line : s.waiting = (s.entities.size, e) :: rest)
      (before : v.core =
        { s.core with waiting := rest, entities := s.entities.push ⟨Named.name e, .created, e⟩ })
      (play : (Entity.start : Reaction ε ε μ W Unit).play s.entities.size e v = ((r, y), u))
      (effect : Effect spawned v u)
      (after : t.core =
        { u.core with entities := s.entities.push ⟨Named.name e, stateAfter (failure? r), y⟩ })
      (change : Change [.start s.entities.size, .answered s.entities.size (failure? r)] spawned s t)
      (story : t.happenings = s.happenings ++ handed s.nextId spawned) : Beat admits s t
  /-- an event leaves and finds no running target -/
  | drop {s t : Simulation ε μ W} {e : Event μ} {agenda : Agenda μ} (live : s.terminated = false)
      (idle : s.waiting = []) (next : s.agenda.next? = some (e, agenda))
      (nobody : ∀ slot, s.entities[e.target]? = some slot → slot.state ≠ .running)
      (core : t.core = { s.core with agenda }) (effect : Effect [] { s with agenda } t)
      (story : t.happenings = s.happenings) : Beat admits s t
  /-- an event leaves and its target reacts -/
  | react {s t u v : Simulation ε μ W} {e : Event μ} {agenda : Agenda μ} {slot : Slot ε} {y : ε}
      {r : Except SimError Unit} {spawned : List ε} (live : s.terminated = false) (idle : s.waiting = [])
      (next : s.agenda.next? = some (e, agenda)) (target : s.entities[e.target]? = some slot)
      (running : slot.state = .running) (before : v.core = { s.core with agenda })
      (play : (Entity.react e : Reaction ε ε μ W Unit).play e.target slot.entity v = ((r, y), u))
      (effect : Effect spawned v u)
      (after : t.core = { u.core with entities := s.entities.setIfInBounds e.target { slot with entity := y } })
      (change : Change [.react e] spawned { s with agenda } t)
      (story : t.happenings = s.happenings ++ .reacted e :: handed s.nextId spawned) : Beat admits s t
  | finish {s : Simulation ε μ W} (live : s.terminated = false) : Beat admits s s.finish

/-- any number of beats -/
abbrev Beats (admits : ε → Prop) : Simulation ε μ W → Simulation ε μ W → Prop := Relation.ReflTransGen (Beat admits)

variable {admits : ε → Prop} {t u v : Simulation ε μ W}

theorem Turn.of_start {id : EntityId} {e y : ε} {r : Except SimError Unit}
    (play : (Entity.start : Reaction ε ε μ W Unit).play id e v = ((r, y), u)) : Turn μ W id e y := by
  have turn : Turn μ W id e ((Entity.start : Reaction ε ε μ W Unit).play id e v).1.2 := .start e v
  rwa [play] at turn

theorem Turn.of_react {e : Event μ} {x y : ε} {r : Except SimError Unit}
    (play : (Entity.react e : Reaction ε ε μ W Unit).play e.target x v = ((r, y), u)) : Turn μ W e.target x y := by
  have turn : Turn μ W e.target x ((Entity.react e : Reaction ε ε μ W Unit).play e.target x v).1.2 := .react e x v rfl
  rwa [play] at turn

/-- **A beat is a row of moves.** -/
theorem Beat.moves (h : Beat admits s t) : Moves s t := by
  cases h with
  | aside core effect story => exact effect.move
  | schedule delay source target message => exact (schedule_effect delay source target message s).move
  | cancel handle => exact (cancel_effect handle s).move
  | accept welcome live idle => exact .single (reserve_move _ live)
  | @start _ _ u v e y rest r spawned live line before play effect after change story =>
    refine .single (.enrol live line (Turn.of_start play) change (congrArg entities after :) ?_)
    have hwaiting : t.waiting = u.waiting := (congrArg waiting after :)
    have hbefore : v.waiting = rest := (congrArg waiting before :)
    have hnext : v.nextId = s.nextId := (congrArg nextId before :)
    rw [hwaiting, effect.waiting, hbefore, hnext]
  | @drop _ _ e agenda live idle next nobody core effect story =>
    exact .head (.leave agenda live) effect.move
  | @react _ _ u v e agenda slot y r spawned live idle next target running before play effect after change story =>
    refine .head (.leave agenda live) (.single (.deliver (s := { s with agenda }) live target running
      (Turn.of_react play) change (congrArg entities after :) ?_))
    have hwaiting : t.waiting = u.waiting := (congrArg waiting after :)
    have hbefore : v.waiting = s.waiting := (congrArg waiting before :)
    have hnext : v.nextId = s.nextId := (congrArg nextId before :)
    rw [hwaiting, effect.waiting, hbefore, hnext]
  | finish live => exact .single (.finish live)

theorem Beats.moves (h : Beats admits s t) : Moves s t := by
  induction h with
  | refl => exact .refl
  | tail _ last ih => exact ih.trans last.moves

/-! ## The clock -/

/-- strokes in a row never turn the clock back -/
theorem Strokes.timely {deeds : List (Deed ε μ)} (h : Strokes s deeds t) (hs : s.agenda.IsTimely) :
    t.agenda.IsTimely ∧ s.now ≤ t.now := by
  obtain ⟨history, p, hf, hr⟩ := hs
  obtain ⟨q, hf', hr', hle⟩ := h.filed hf hr
  refine ⟨⟨_, q, hf', hr'⟩, ?_⟩
  change s.agenda.now ≤ t.agenda.now
  rwa [hr.now, hr'.now]

omit [Entity ε μ W] in
/-- an event that leaves does not turn the clock back -/
theorem timely_leave {e : Event μ} {agenda : Agenda μ} (hs : s.agenda.IsTimely)
    (hn : s.agenda.next? = some (e, agenda)) : agenda.IsTimely ∧ s.now ≤ agenda.now := by
  obtain ⟨history, p, hf, hr⟩ := hs
  obtain ⟨q, hq, hr', -⟩ := next?_eq hr hf.sound hn
  refine ⟨⟨_, q, hf.leave hq, hr'⟩, ?_⟩
  change s.agenda.now ≤ agenda.now
  rw [hr.now, hr'.now]
  exact (hf.timely.leave hf.sound hq).2

/-- **No beat turns the clock back.** -/
theorem Beat.timely (h : Beat admits s t) (hs : s.agenda.IsTimely) : t.agenda.IsTimely ∧ s.now ≤ t.now := by
  have same : ∀ {v : Simulation ε μ W}, v.agenda = s.agenda → v.agenda.IsTimely ∧ s.now ≤ v.now := by
    intro v hv
    obtain ⟨history, p, hf, hr⟩ := hs
    refine ⟨⟨history, p, hf, hv ▸ hr⟩, ?_⟩
    change s.agenda.now ≤ v.agenda.now
    rw [hv, hr.now]
    exact Time.le_refl hf.sound.now
  -- what an entity plays begins at the time that the agenda shows
  have played : ∀ {v u w : Simulation ε μ W} {deeds : List (Deed ε μ)}, s.now ≤ v.now → v.agenda.IsTimely →
      Strokes v deeds u → w.agenda = u.agenda → w.agenda.IsTimely ∧ s.now ≤ w.now := by
    intro v u w deeds hle hv strokes hw
    obtain ⟨hu, hle'⟩ := strokes.timely hv
    refine ⟨hw ▸ hu, ?_⟩
    change s.now ≤ w.agenda.now
    rw [hw]
    exact Time.le_trans hle hle'
  cases h with
  | aside core effect story => exact same (congrArg agenda core :)
  | schedule delay source target message => exact (schedule_strokes delay source target message s).timely hs
  | cancel handle => exact (cancel_strokes handle s).timely hs
  | accept welcome live idle => exact same rfl
  | @start _ _ u v e y rest r spawned live line before play effect after change story =>
    have strokes := perform_strokes s.entities.size (Entity.start.run.run e : Action ε μ W _) v
    have hu : (Action.perform s.entities.size (Entity.start.run.run e : Action ε μ W _) v).2 = u :=
      congrArg Prod.snd play
    rw [hu] at strokes
    obtain ⟨hv, hle⟩ := same (v := v) (congrArg agenda before :)
    exact played hle hv strokes (congrArg agenda after :)
  | drop live idle next nobody core effect story =>
    obtain ⟨hv, hle⟩ := timely_leave hs next
    have ht : t.agenda = _ := (congrArg agenda core :)
    refine ⟨ht ▸ hv, ?_⟩
    change s.now ≤ t.agenda.now
    rw [ht]
    exact hle
  | @react _ _ u v e agenda slot y r spawned live idle next target running before play effect after change story =>
    have strokes := perform_strokes e.target ((Entity.react e).run.run slot.entity : Action ε μ W _) v
    have hu : (Action.perform e.target ((Entity.react e).run.run slot.entity : Action ε μ W _) v).2 = u :=
      congrArg Prod.snd play
    rw [hu] at strokes
    obtain ⟨hv, hle⟩ := timely_leave hs next
    have hagenda : v.agenda = agenda := (congrArg Simulation.agenda before :)
    refine played ?_ (hagenda ▸ hv) strokes (congrArg Simulation.agenda after :)
    change s.now ≤ v.agenda.now
    rw [hagenda]
    exact hle
  | finish live => exact same (agenda_finish s)

theorem Beats.timely (h : Beats admits s t) (hs : s.agenda.IsTimely) : t.agenda.IsTimely := by
  induction h with
  | refl => exact hs
  | tail _ last ih => exact (last.timely ih).1

/-! ## Calls, beat by beat -/

/-- whoever is enrolled takes the next place and starts there, however that ends -/
theorem enrol_outcome {e y : ε} {r : Except SimError Unit} (hp : (Entity.start : Reaction ε ε μ W Unit).play
      u.entities.size e (u.starting u.entities.size e) = ((r, y), v)) :
    ∃ spawned, Effect spawned (u.starting u.entities.size e) v ∧
      (u.enrol u.entities.size e).2.core =
        { v.core with entities := u.entities.push ⟨Named.name e, stateAfter (failure? r), y⟩ } ∧
      Change [.start u.entities.size, .answered u.entities.size (failure? r)] spawned u
        (u.enrol u.entities.size e).2 ∧
      (u.enrol u.entities.size e).2.happenings = u.happenings ++ handed u.nextId spawned := by
  let start := u.starting u.entities.size e
  obtain ⟨spawned, effect⟩ := (Entity.start.run.run e : Action ε μ W _).perform_effect u.entities.size start
  have told := Action.perform_happenings u.entities.size (Entity.start.run.run e : Action ε μ W _) effect
  have hv : ((Entity.start.run.run e : Action ε μ W _).perform u.entities.size start).2 = v := congrArg Prod.snd hp
  rw [hv] at effect told
  let place : Slot ε := ⟨Named.name e, stateAfter (failure? r), y⟩
  let answered := v.note (.answered u.entities.size (failure? r))
  let after : Simulation ε μ W := { answered with entities := v.entities.setIfInBounds u.entities.size place }
  have henrol : (u.enrol u.entities.size e).2 = (after.absorbOutcome u.entities.size r).2 := by
    have hslot : (u.insert u.entities.size e).entities[u.entities.size]? = some ⟨Named.name e, .created, e⟩ :=
      Array.getElem?_push_size
    have hp : (Entity.start.run.run e).perform u.entities.size
      ((u.insert u.entities.size e).note (.started u.entities.size)) = ((r, y), v) := hp
    unfold enrol
    rw [start_eq hslot, hp]
  have hpush : v.entities.setIfInBounds u.entities.size place = u.entities.push place := by
    rw [effect.entities]
    exact setIfInBounds_push u.entities _ place
  rw [henrol]
  refine ⟨spawned, effect, ?_, ?_, ?_⟩
  · calc (after.absorbOutcome u.entities.size r).2.core = after.core := core_absorbOutcome ..
      _ = { v.core with entities := v.entities.setIfInBounds u.entities.size place } := rfl
      _ = _ := by rw [hpush]
  · have entered : Change [] [] u (u.note (.registered u.entities.size (Named.name e))) :=
      (Effect.note rfl rfl).toChange
    have first : Change [.start u.entities.size] [] (u.insert u.entities.size e) start := .visit rfl rfl _
    have last : Change [.answered u.entities.size (failure? r)] [] v answered := .visit rfl rfl v
    have all := ((entered.trans (u := start) ⟨first.visits, first.handouts, first.nextId, first.now,
      first.terminated⟩).trans effect.toChange).trans last
    have all : Change _ _ u after := ⟨all.visits, all.handouts, all.nextId, all.now, all.terminated⟩
    have all := all.trans (absorbOutcome_effect u.entities.size r after).toChange
    simpa only [List.nil_append, List.append_nil, List.cons_append] using all
  · have hstart : start.happenings = u.happenings := calc
      start.happenings = (u.insert u.entities.size e).happenings := happenings_note rfl _
      _ = u.happenings := happenings_note (x := .registered u.entities.size (Named.name e)) rfl u
    calc (after.absorbOutcome u.entities.size r).2.happenings = answered.happenings := happenings_absorb ..
      _ = v.happenings := happenings_note rfl v
      _ = start.happenings ++ handed start.nextId spawned := told
      _ = u.happenings ++ handed u.nextId spawned := by rw [hstart]; rfl

/-- enrolling is one beat, if the entity stood at the head of the line just before -/
theorem enrol_beat {e : ε} {rest : List (EntityId × ε)} (hl : s.terminated = false)
    (hw : s.waiting = (s.entities.size, e) :: rest) (hu : u.core = { s.core with waiting := rest })
    (hc : Change [] [] s u) (hh : u.happenings = s.happenings) :
    Beat admits s (u.enrol s.entities.size e).2 ∧ (u.enrol s.entities.size e).2.terminated = false := by
  have hentities : u.entities = s.entities := (congrArg entities hu :)
  obtain ⟨spawned, effect, core, change, story⟩ := enrol_outcome (u := u) (e := e) rfl
  rw [hentities] at effect core change story
  have before : (u.starting s.entities.size e).core =
      { s.core with waiting := rest, entities := s.entities.push ⟨Named.name e, .created, e⟩ } := calc
    _ = { u.core with entities := u.entities.push ⟨Named.name e, .created, e⟩ } := rfl
    _ = _ := by rw [hu, hentities]
  have change := hc.trans change
  rw [hh, hc.nextId] at story
  exact ⟨.start hl hw before rfl effect core change story, change.terminated.trans hl⟩

/-- the first in line is enrolled -/
theorem enlist_beat {id : EntityId} {e : ε} {rest : List (EntityId × ε)} (hs : Tidy s) (hl : s.terminated = false)
    (hw : s.waiting = (id, e) :: rest) :
    let u := ({ s with waiting := rest, spawned := s.spawned + 1 } : Simulation ε μ W).enrol id e
    Beat admits s u.2 ∧ u.2.terminated = false := by
  cases tidy_first hs hl hw
  exact enrol_beat hl hw rfl ⟨(List.append_nil _).symm, (List.append_nil _).symm, rfl, rfl, rfl⟩ rfl

/-- an entity that is registered is handed over, and enrolled as if it had waited alone -/
theorem admit_beats {e : ε} (he : admits e) (hs : Tidy s) (hl : s.terminated = false) (hw : s.waiting = []) :
    Beats admits s ((s.nameNext e).2.enrol s.nextId e).2 := by
  have hi := tidy_reserved hs hw hl
  have admitted : Beat admits s (s.reserve e).2 := .accept he hl hw
  have line : (s.reserve e).2.waiting = ((s.reserve e).2.entities.size, e) :: [] := by
    rw [(reserve_effect e s).waiting, hw, (reserve_effect e s).entities, ← hi]
    rfl
  have named : (s.nameNext e).2.core = { (s.reserve e).2.core with waiting := [] } := by
    calc (s.nameNext e).2.core = { (s.reserve e).2.core with waiting := s.waiting } := rfl
      _ = _ := by rw [hw]
  obtain ⟨beat, -⟩ := enrol_beat (s := (s.reserve e).2) (u := (s.nameNext e).2) hl line named
    ⟨(List.append_nil _).symm, (List.append_nil _).symm, rfl, rfl, rfl⟩ rfl
  rw [hi]
  exact .head admitted (.single beat)

/-- whoever starts nobody else is registered alone, and even who fails to start keeps the place -/
theorem register_alone {fuel : Nat} {e y : ε} {r : Except SimError Unit} {answer : Except SimError EntityId}
    (hl : s.terminated = false) (hi : s.nextId = s.entities.size) (hw : s.waiting = [])
    (hp : (Entity.start : Reaction ε ε μ W Unit).play s.entities.size e
      ((s.nameNext e).2.starting s.entities.size e) = ((r, y), u)) (hu : u.waiting = [])
    (h : s.register fuel e = some (answer, t)) :
    t.core = { u.core with entities := s.entities.push ⟨Named.name e, stateAfter (failure? r), y⟩ } ∧
      t.happenings = s.happenings ++ [.handed s.entities.size e] := by
  obtain ⟨spawned, effect, core, -, story⟩ := enrol_outcome (u := (s.nameNext e).2) hp
  have hspawned : spawned = [] := effect.spawned_eq ((hu.trans hw.symm).trans (List.append_nil _).symm)
  subst hspawned
  have told : (s.nameNext e).2.happenings ++ [] = s.happenings ++ [.handed s.entities.size e] := by
    calc (s.nameNext e).2.happenings ++ [] = (s.reserve e).2.happenings := List.append_nil _
      _ = s.happenings ++ [.handed s.entities.size e] := by rw [happenings_reserve, hi]
  rw [register_eq fuel e hl, hi] at h
  split at h
  · next err w hw' =>
    cases h
    have hw' : (s.nameNext e).2.enrol (s.nameNext e).2.entities.size e = (.error err, t) := hw'
    rw [hw'] at core story
    exact ⟨core, story.trans told⟩
  · next w hw' =>
    have hw' : (s.nameNext e).2.enrol (s.nameNext e).2.entities.size e = (.ok (), w) := hw'
    rw [hw'] at core story
    have idle : w.waiting = [] := (congrArg waiting core :).trans hu
    rw [settle_idle fuel idle] at h
    cases h
    exact ⟨core, story.trans told⟩

/-- an event leaves the agenda, and its target reacts -/
theorem react_beat {e : Event μ} {agenda : Agenda μ} {slot : Slot ε} (hl : s.terminated = false)
    (hw : s.waiting = []) (hn : s.agenda.next? = some (e, agenda)) (hs : s.entities[e.target]? = some slot)
    (hr : slot.state = .running) :
    let x := ({ s with agenda } : Simulation ε μ W).react e slot
    Beat admits s (x.2.absorbOutcome e.target x.1).2 ∧ (x.2.absorbOutcome e.target x.1).2.terminated = false := by
  let v : Simulation ε μ W := ({ s with agenda } : Simulation ε μ W).delivering e
  let x := (Entity.react e : Reaction ε ε μ W Unit).play e.target slot.entity v
  obtain ⟨spawned, effect⟩ := ((Entity.react e).run.run slot.entity : Action ε μ W _).perform_effect e.target v
  have effect : Effect spawned v x.2 := effect
  let after : Simulation ε μ W :=
    { x.2 with entities := x.2.entities.setIfInBounds e.target { slot with entity := x.1.2 } }
  have hentities : x.2.entities = s.entities := effect.entities
  have first : Change [.react e] [] { s with agenda } v := by
    have h : Change [.react e] [] { s with agenda } (({ s with agenda } : Simulation ε μ W).note (.dispatched e)) :=
      .visit rfl rfl _
    exact ⟨h.visits, h.handouts, h.nextId, h.now, h.terminated⟩
  have hchange : Change [.react e] spawned { s with agenda } (after.absorbOutcome e.target x.1.1).2 := by
    have played := first.trans effect.toChange
    have played : Change ([.react e] ++ []) ([] ++ spawned) { s with agenda } after :=
      ⟨played.visits, played.handouts, played.nextId, played.now, played.terminated⟩
    have all := played.trans (absorbOutcome_effect e.target x.1.1 after).toChange
    simpa only [List.nil_append, List.append_nil] using all
  have story : (after.absorbOutcome e.target x.1.1).2.happenings =
      s.happenings ++ .reacted e :: handed s.nextId spawned := by
    have hv : v.happenings = s.happenings ++ [.reacted e] := told_note Entry.happening? (.dispatched e) _
    calc (after.absorbOutcome e.target x.1.1).2.happenings = x.2.happenings := happenings_absorb ..
      _ = v.happenings ++ handed v.nextId spawned := Action.perform_happenings _ _ effect
      _ = s.happenings ++ .reacted e :: handed s.nextId spawned := by rw [hv, List.append_assoc]; rfl
  rw [react_eq]
  refine ⟨.react (r := x.1.1) (y := x.1.2) (u := x.2) (v := v) hl hw hn hs hr rfl rfl effect ?_ hchange story,
    hchange.terminated.trans hl⟩
  calc (after.absorbOutcome e.target x.1.1).2.core = after.core := core_absorbOutcome ..
    _ = { x.2.core with entities := x.2.entities.setIfInBounds e.target { slot with entity := x.1.2 } } := rfl
    _ = _ := by rw [hentities]

/-- an event leaves the agenda and finds nobody -/
theorem drop_beat {e : Event μ} {agenda : Agenda μ} (hl : s.terminated = false) (hw : s.waiting = [])
    (hn : s.agenda.next? = some (e, agenda)) (hr : s.runs e.target = false) :
    Beat admits s (({ s with agenda }.note (.dropped e)).absorb e.target (.unknownTarget e.target)).2 := by
  have story : _ = s.happenings := (happenings_absorb e.target (.error (.unknownTarget e.target))
    (({ s with agenda } : Simulation ε μ W).note (.dropped e))).trans (happenings_note rfl _)
  refine .drop hl hw hn ?_ (core_absorb ..) (drop_effect e { s with agenda }) story
  intro slot hslot
  rw [runs, hslot] at hr
  simpa using hr

theorem finish_beats (s : Simulation ε μ W) : Beats admits s s.finish := by
  cases hl : s.terminated with
  | false => exact .single (.finish hl)
  | true => rw [finish_of_terminated hl]

theorem note_beat {entry : Entry ε μ} (hv : entry.visit? = none) (hh : entry.handout? = none)
    (ht : entry.happening? = none) (s : Simulation ε μ W) : Beat admits s (s.note entry) :=
  .aside rfl (.note hv hh) (happenings_note ht s)

section

variable {allowed : Call ε μ → Prop} {p q : Phase} {deeds new : List (Deed ε μ)}

/-- **Every leg is a row of beats.** -/
theorem Leg.beats (h : Leg allowed p s new q t) (welcome : ∀ e, allowed (.register e) → admits e) (hs : Tidy s)
    (hp : Poised p s) : Beats admits s t := by
  cases h with
  | schedule delay source target message => exact .single (.schedule delay source target message s)
  | cancel handle => exact .single (.cancel handle s)
  | accept allowed live => exact admit_beats (welcome _ allowed) hs live (hp live)
  | enlist live line => exact .single (enlist_beat hs live line).1
  | settled => exact .refl
  | drop live next nobody => exact .single (drop_beat live (hp live) next nobody)
  | react live next target running => exact .single (react_beat live (hp live) next target running).1
  | notice h =>
    obtain rfl | ⟨limit, rfl⟩ := h
    · exact .single (note_beat rfl rfl rfl s)
    · exact .single (note_beat rfl rfl rfl s)
  | finish => exact finish_beats s

theorem Legs.beats (h : Legs allowed p s deeds q t) (welcome : ∀ e, allowed (.register e) → admits e) (hs : Tidy s)
    (hp : Poised p s) : Beats admits s t := by
  have all := h.keep (P := fun _ q t => Beats admits s t ∧ Poised q t) ⟨.refl, hp⟩ ?_
  · exact all.1
  · rintro _ _ _ _ _ _ ⟨beats, hp⟩ leg
    have hs := beats.moves.tidy hs
    exact ⟨beats.trans (leg.beats welcome hs hp), (leg.moves hs hp).2⟩

end

/-- **Every call that is answered is a row of beats.** -/
theorem call_beats {fuel : Nat} {c : Call ε μ} {a : Answer} (he : ∀ e, c = .register e → admits e) (hs : Tidy s)
    (hi : Idle s) (h : s.call fuel c = some (a, t)) : Beats admits s t := by
  obtain ⟨q, legs, -⟩ := call_legs (fun x => x = c) rfl h
  exact legs.beats (fun e hc => he e hc.symm) hs hi

/-- an event leaves the agenda and is delivered -/
theorem dispatch_beats {fuel : Nat} {e : Event μ} {agenda : Agenda μ} {r : Except SimError Unit} (hs : Tidy s)
    (hl : s.terminated = false) (hw : s.waiting = []) (hn : s.agenda.next? = some (e, agenda))
    (h : ({ s with agenda } : Simulation ε μ W).dispatch fuel e = some (r, t)) : Beats admits s t := by
  have spans := dispatch_spans (fun _ => False) fuel hl hn
  rw [h] at spans
  exact spans.legs.1.beats (fun _ => False.elim) hs fun _ => hw

/-! ## What is seen of a run -/

/-- nobody waits, and the next id is the next place of the registry; so were all ids that were given out -/
structure Settled (s : Simulation ε μ W) : Prop where
  waiting : s.waiting = []
  nextId : s.nextId = s.entities.size
  placed : Placed s

namespace Settled

theorem tidy (h : Settled s) : Tidy s := by
  intro _
  rw [h.waiting]
  exact ⟨rfl, h.nextId⟩

theorem idle (h : Settled s) : Idle s := fun _ => h.waiting

theorem fresh (limits : Limits) (world : W) : Settled (Simulation.fresh limits world : Simulation ε μ W) :=
  ⟨rfl, rfl, placed_fresh limits world⟩

theorem of_effect (h : Settled s) (he : Effect [] s t) : Settled t where
  waiting := (he.waiting.trans (List.append_nil _)).trans h.waiting
  nextId := by
    rw [he.nextId, he.entities]
    exact h.nextId
  placed := he.move.placed h.placed

theorem finish (h : Settled s) : Settled s.finish := by
  refine ⟨?_, ?_, (finish_moves s).placed h.placed⟩
  · have hsub := waiting_finish s
    rw [h.waiting] at hsub
    exact List.sublist_nil.1 hsub
  · have hnext : s.finish.nextId = s.nextId := finish_keeps Simulation.nextId (fun _ _ _ _ _ _ => rfl) s
    rw [hnext, size_finish]
    exact h.nextId

end Settled

/-- what calls without an error keep to -/
def Composed : Phase → Simulation ε μ W → Prop
  | .resting, s => Settled s
  | .enrolling, s => s.terminated = false ∧ Tidy s ∧ Placed s
  | .failed _, _ => True

section

variable {allowed : Call ε μ → Prop} {p q : Phase} {deeds new : List (Deed ε μ)}

theorem Leg.composed (h : Leg allowed p s new q t) (hp : Composed p s) : Composed q t := by
  -- whatever an entity did, the run goes on and the registry is in order
  have after : ∀ {p : Phase} {new : List (Deed ε μ)} {r : Except SimError Unit} {u : Simulation ε μ W},
      Leg allowed p s new (.after r) u → Tidy s → Poised p s → Placed s → Composed (.after r) u := by
    intro p new r u leg hs hp placed
    obtain ⟨moves, poised⟩ := leg.moves hs hp
    cases r with
    | ok => exact ⟨poised, moves.tidy hs, moves.placed placed⟩
    | error err => trivial
  cases h with
  | schedule delay source target message => exact Settled.of_effect hp (schedule_effect delay source target message s)
  | cancel handle => exact Settled.of_effect hp (cancel_effect handle s)
  | accept welcome live => exact after (.accept welcome live) (Settled.tidy hp) (Settled.idle hp) hp.placed
  | enlist live line => exact after (.enlist live line) hp.2.1 live hp.2.2
  | settled idle => exact ⟨idle, tidy_reserved hp.2.1 idle hp.1, hp.2.2⟩
  | @drop _ e agenda live next =>
    have left : Settled { s with agenda } := ⟨hp.waiting, hp.nextId, (Move.leave agenda live).placed hp.placed⟩
    exact left.of_effect (drop_effect e { s with agenda })
  | react live next target running =>
    exact after (.react live next target running) (Settled.tidy hp) (Settled.idle hp) hp.placed
  | notice h => exact Settled.of_effect hp (notice_effect h)
  | finish _ h =>
    cases p with
    | resting => exact Settled.finish hp
    | enrolling => exact absurd rfl h
    | failed => trivial

theorem Legs.composed (h : Legs allowed p s deeds q t) (hp : Composed p s) : Composed q t :=
  h.keep (P := fun _ q t => Composed q t) hp fun before leg => leg.composed before

end

/-- a call without an error leaves everything settled -/
theorem Settled.call {fuel : Nat} {c : Call ε μ} {a : Answer} (h : Settled s) (hc : s.call fuel c = some (a, t))
    (ha : a.isFailure = false) : Settled t := by
  cases hl : s.terminated with
  | true => exact h.of_effect (call_of_terminated hl hc)
  | false =>
    obtain ⟨q, legs, hq⟩ := call_legs (fun _ => True) trivial hc
    have composed : Composed q t := legs.composed h
    have rests : a.phase = .resting := by
      rcases a with (_ | _) | _ | _ | (_ | _) | (_ | _) | _ <;> first | rfl | cases ha
    rwa [hq hl, rests] at composed

/-- and so does a delivery -/
theorem Settled.dispatch {fuel : Nat} {e : Event μ} {agenda : Agenda μ} (h : Settled s) (hl : s.terminated = false)
    (hn : s.agenda.next? = some (e, agenda))
    (hd : ({ s with agenda } : Simulation ε μ W).dispatch fuel e = some (.ok (), t)) : Settled t := by
  have spans := dispatch_spans (fun _ => True) fuel hl hn
  rw [hd] at spans
  exact spans.legs.1.composed h

/-- nobody was registered so far -/
structure Vacant (s : Simulation ε μ W) : Prop where
  live : s.terminated = false
  settled : Settled s
  timely : s.agenda.IsTimely
  nobody : s.entities = #[]
  story : s.happenings = []

namespace Vacant

theorem fresh (limits : Limits) (world : W) : Vacant (Simulation.fresh limits world : Simulation ε μ W) :=
  ⟨rfl, .fresh limits world, Agenda.isTimely_fresh, rfl, rfl⟩

theorem remark (h : Vacant s) (r : Remark) : Vacant (s.note (.remark r)) :=
  ⟨h.live, ⟨h.settled.waiting, h.settled.nextId, (Effect.note rfl rfl).move.placed h.settled.placed⟩, h.timely,
    h.nobody, (happenings_note rfl s).trans h.story⟩

end Vacant

/-- calls are answered without an error of the run -/
def Smooth (_ : Call ε μ) (a : Answer) : Prop := a.isFailure = false

/-- calls with which nobody is registered -/
def Sealed (c : Call ε μ) (_ : Answer) : Prop := ∀ e, c ≠ .register e

/-- one thing that is seen of a run: a call is answered as it is `allowed`, an event is delivered and the run goes on,
    or the world turns as it may by itself -/
inductive Tick (allowed : Call ε μ → Answer → Prop) (drift : W → W → Prop) :
    Simulation ε μ W → Simulation ε μ W → Prop
  | call {fuel : Nat} {s t : Simulation ε μ W} {c : Call ε μ} {a : Answer} (ha : allowed c a)
      (h : s.call fuel c = some (a, t)) : Tick allowed drift s t
  | deliver {fuel : Nat} {s t : Simulation ε μ W} {e : Event μ} {agenda : Agenda μ} (live : s.terminated = false)
      (next : s.agenda.next? = some (e, agenda))
      (h : ({ s with agenda } : Simulation ε μ W).dispatch fuel e = some (.ok (), t)) : Tick allowed drift s t
  | turn {s : Simulation ε μ W} {world : W} (h : drift s.world world) : Tick allowed drift s { s with world }

/-- any number of things later -/
abbrev Sequel (allowed : Call ε μ → Answer → Prop) (drift : W → W → Prop) :
    Simulation ε μ W → Simulation ε μ W → Prop :=
  Relation.ReflTransGen (Tick allowed drift)

variable {allowed : Call ε μ → Answer → Prop} {drift : W → W → Prop}

theorem Placed.turn (h : Placed s) (world : W) : Placed { s with world } :=
  ⟨h.counted, h.waiting, h.slots, h.strays⟩

theorem Tick.after {fuel : Nat} {c : Call ε μ}
    (h : (s.call fuel c).any (fun x => !x.1.isFailure) = true) : Tick Smooth drift s (s.after fuel c) := by
  obtain ⟨⟨a, t⟩, ht, ha⟩ := (Option.any_eq_true _ _).1 h
  have hafter : s.after fuel c = t := by
    rw [Simulation.after, ht]
    rfl
  have smooth : Smooth c a := by simpa [Smooth] using ha
  exact hafter ▸ .call smooth ht

/-- where there are no errors, everything remains settled -/
theorem Sequel.settled (h : Sequel Smooth drift s t) (hs : Settled s) : Settled t := by
  induction h with
  | refl => exact hs
  | tail _ last ih =>
    cases last with
    | call ha h => exact ih.call h ha
    | deliver live next h => exact ih.dispatch live next h
    | turn h => exact ⟨ih.waiting, ih.nextId, ih.placed.turn _⟩

/-- what beats keep is kept by beats in a row -/
theorem Beats.keep {P : Simulation ε μ W → Prop} (beat : ∀ s t, Tidy s → Placed s → Beat admits s t → P s → P t)
    (h : Beats admits s t) (hs : Tidy s) (placed : Placed s) (hp : P s) : P t := by
  induction h with
  | refl => exact hp
  | tail before last ih =>
    have moves := Beats.moves before
    exact beat _ _ (moves.tidy hs) (moves.placed placed) last ih

/-- **What beats and the world keep holds of all that is seen later**, also of a run that ends in an error. -/
theorem Sequel.keep {P : Simulation ε μ W → Prop}
    (welcome : ∀ e a, allowed (.register e) a → admits e)
    (loyal : ∀ e err, ¬allowed (.register e) (.registered (.error err)))
    (beat : ∀ s t, Tidy s → Placed s → Beat admits s t → P s → P t)
    (turn : ∀ s world, drift s.world world → P s → P { s with world }) (h : Sequel allowed drift s t) (hs : Tidy s)
    (hi : Idle s) (placed : Placed s) (hp : P s) : P t ∧ Tidy t ∧ Idle t ∧ Placed t := by
  induction h with
  | refl => exact ⟨hp, hs, hi, placed⟩
  | @tail u v _ last ih =>
    obtain ⟨hp, hs, hi, placed⟩ := ih
    cases last with
    | @call fuel _ _ c a ha h =>
      have orderly : Orderly u c a v := by
        rintro - ⟨err, rfl⟩
        obtain ⟨e, rfl, -⟩ := register_of_call h
        exact absurd ha (loyal e err)
      have hw : ∀ e, c = .register e → admits e := by
        rintro e rfl
        exact welcome e a ha
      obtain ⟨moves, idle⟩ := idle_call hs hi h orderly
      exact ⟨(call_beats hw hs hi h).keep beat hs placed hp, moves.tidy hs, idle, moves.placed placed⟩
    | @deliver fuel _ _ e agenda live next h =>
      obtain ⟨moves, -, idle⟩ := dispatch_moves hs live (hi live) next h
      exact ⟨(dispatch_beats hs live (hi live) next h).keep beat hs placed hp, moves.tidy hs, fun _ => idle,
        moves.placed placed⟩
    | turn h => exact ⟨turn _ _ h hp, hs, hi, placed.turn _⟩

/-- a simulation and the same simulation later: no id is taken back, and nobody has lost a place -/
structure Lasting (s t : Simulation ε μ W) : Prop where
  handouts : s.handouts <+: t.handouts
  places : ∀ id slot, s.entities[id]? = some slot →
    ∃ slot', t.entities[id]? = some slot' ∧ Descends μ W id slot.entity slot'.entity

theorem Lasting.beat (h : Lasting s t)
    (beat : Beat admits t u) : Lasting s u := by
  refine ⟨h.handouts.trans beat.moves.handouts.1, fun id slot hslot => ?_⟩
  obtain ⟨slot', hs', first⟩ := h.places id slot hslot
  obtain ⟨slot'', hs'', rest⟩ := beat.moves.descends hs'
  exact ⟨slot'', hs'', first.trans rest⟩

theorem Sequel.lasting (h : Sequel Smooth drift s t) (hs : Settled s) :
    Lasting s t := by
  have beat : ∀ t u : Simulation ε μ W, Tidy t → Placed t → Beat (fun _ => True) t u →
      Lasting s t → Lasting s u := fun _ _ _ _ beat lasting => lasting.beat beat
  have turn : ∀ (t : Simulation ε μ W) (world : W), drift t.world world → Lasting s t →
      Lasting s { t with world } := fun _ _ _ lasting => ⟨lasting.handouts, lasting.places⟩
  have start : Lasting s s := ⟨List.prefix_rfl, fun id slot hslot => ⟨slot, hslot, .refl⟩⟩
  exact (h.keep (fun _ _ _ => trivial) (fun _ _ h => by cases h) beat turn hs.tidy hs.idle hs.placed start).1

end Simulation

end BrokerSim
