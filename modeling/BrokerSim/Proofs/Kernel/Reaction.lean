/-
Reactions carried out. `Reaction.play` is a reaction of an entity with its state on a simulation; every way of building
reactions has an equation that says what playing it comes to, so a reaction is played by rewriting from its first
request to its last. `Simulation.core` leaves out the log and the counters, which no entity sees; the counters are
`Simulation.counters`, and no action touches them.
- `dispatch_play`, `settle_play`, `register_play`: what delivering an event, enrolling a spawned entity and registering
  one come to, once it is known what the entity plays. `register_failed` is a registration that fails.
- `loop_rests`: a run in which every event makes some measure smaller, and none ends in an error, comes to rest.
- `Exchange.Within`: which worlds an exchange may lead to, one rule for each way of building exchanges.
-/
import Mathlib.Tactic
import BrokerSim.Proofs.Kernel.Change

namespace BrokerSim

variable {σ τ ε μ W α β : Type}

theorem Action.perform_andThen (self : EntityId) (f : α → Action ε μ W β) (x : Action ε μ W α) (s : Simulation ε μ W) :
    (x.andThen f).perform self s = (f (x.perform self s).1).perform self (x.perform self s).2 := by
  induction x generalizing s with
  | done a => rfl
  | observe next ih => exact ih _ s
  | schedule target delay message next ih => exact ih _ _
  | cancel handle next ih => exact ih _ _
  | spawn e next ih => exact ih _ _
  | stop next ih => exact ih _
  | write world next ih => exact ih _
  | remark r next ih => exact ih _

/-- an entity and the caller use the world in the same way -/
theorem Action.perform_exchange (self : EntityId) (x : Exchange W α) (s : Simulation ε μ W) :
    (Action.exchange x).perform self s = s.exchange x := by
  have h : ∀ (a : α) (remarks : List Remark) (s : Simulation ε μ W),
      (remarks.foldr Action.remark (Action.done a)).perform self s =
        (a, { s with journal := remarks.foldl (fun j r => .remark r :: j) s.journal }) := by
    intro a remarks
    induction remarks with
    | nil => exact fun _ => rfl
    | cons r rest ih => exact fun s => ih (s.note (.remark r))
  exact h _ _ _

/-- a reaction of entity `self` with state `x`: its outcome, the state it reached, and the simulation after it -/
def Reaction.play (r : Reaction σ ε μ W α) (self : EntityId) (x : σ) (s : Simulation ε μ W) :
    (Except SimError α × σ) × Simulation ε μ W :=
  (r.run.run x).perform self s

namespace Reaction

variable (self : EntityId) (x : σ) (s : Simulation ε μ W)

theorem play_pure (a : α) : (pure a : Reaction σ ε μ W α).play self x s = ((.ok a, x), s) := rfl

theorem play_throw (e : SimError) : (throw e : Reaction σ ε μ W α).play self x s = ((.error e, x), s) := rfl

/-- an error skips what would have come next -/
theorem play_bind (r : Reaction σ ε μ W α) (f : α → Reaction σ ε μ W β) :
    (r >>= f).play self x s =
      match r.play self x s with
      | ((.ok a, y), t) => (f a).play self y t
      | ((.error e, y), t) => ((.error e, y), t) := by
  unfold play
  refine (Action.perform_andThen self _ (r.run.run x) s).trans ?_
  rcases (r.run.run x).perform self s with ⟨⟨_ | _, _⟩, _⟩ <;> rfl

theorem play_get : (get : Reaction σ ε μ W σ).play self x s = ((.ok x, x), s) := rfl

theorem play_set (y : σ) : (set y : Reaction σ ε μ W PUnit).play self x s = ((.ok ⟨⟩, y), s) := rfl

theorem play_modify (f : σ → σ) : (modify f : Reaction σ ε μ W PUnit).play self x s = ((.ok ⟨⟩, f x), s) := rfl

theorem play_ofAction (y : Action ε μ W α) :
    (ofAction y : Reaction σ ε μ W α).play self x s = ((.ok (y.perform self s).1, x), (y.perform self s).2) := by
  change ((y.andThen fun a => Action.done (a, x)).andThen fun p => Action.done (Except.ok p.1, p.2)).perform self s = _
  rw [Action.perform_andThen, Action.perform_andThen]
  rfl

theorem play_ofExcept (r : Except SimError α) :
    (ofExcept r : Reaction σ ε μ W α).play self x s = ((r, x), s) := rfl

theorem play_view : (view : Reaction σ ε μ W (View W)).play self x s = ((.ok (s.view self), x), s) := rfl

theorem play_trySchedule (target : EntityId) (delay : Float) (message : μ) :
    (trySchedule target delay message : Reaction σ ε μ W _).play self x s =
      ((.ok (s.schedule delay self target message).1, x), (s.schedule delay self target message).2) := rfl

theorem play_cancel (h : Handle) :
    (cancel h : Reaction σ ε μ W Bool).play self x s = ((.ok (s.cancel h).1, x), (s.cancel h).2) := rfl

theorem play_spawn (e : ε) :
    (spawn e : Reaction σ ε μ W EntityId).play self x s = ((.ok (s.reserve e).1, x), (s.reserve e).2) := rfl

theorem play_remark (level : Level) (text : String) :
    (remark level text : Reaction σ ε μ W Unit).play self x s = ((.ok (), x), s.note (.remark ⟨level, text⟩)) := rfl

theorem play_exchange (y : Exchange W α) :
    (exchange y : Reaction σ ε μ W α).play self x s = ((.ok (s.exchange y).1, x), (s.exchange y).2) := by
  rw [exchange, play_ofAction, Action.perform_exchange]

theorem play_call (y : Exchange W (Except SimError α)) :
    (call y : Reaction σ ε μ W α).play self x s = (((s.exchange y).1, x), (s.exchange y).2) := by
  rw [call, play_bind, play_exchange]
  exact play_ofExcept ..

theorem play_schedule (target : EntityId) (delay : Float) (message : μ) :
    (schedule target delay message : Reaction σ ε μ W Handle).play self x s =
      (((s.schedule delay self target message).1, x), (s.schedule delay self target message).2) := by
  rw [schedule, play_bind, play_trySchedule]
  exact play_ofExcept ..

theorem play_scheduleSelf (delay : Float) (message : μ) :
    (scheduleSelf delay message : Reaction σ ε μ W Handle).play self x s =
      (((s.schedule delay self self message).1, x), (s.schedule delay self self message).2) := by
  rw [scheduleSelf, play_bind, play_view]
  exact play_schedule self x s self delay message

theorem play_within (whole : τ → σ) (y : τ) (r : Reaction τ ε μ W α) :
    (within whole y r : Reaction σ ε μ W α).play self x s =
      (((r.play self y s).1.1, whole (r.play self y s).1.2), (r.play self y s).2) := by
  unfold play
  refine (Action.perform_andThen self _ (r.run.run y) s).trans ?_
  rfl

end Reaction

/-! ## Simulations up to the log and the counters -/

theorem Tally.count_add (t : Tally) (k j : ErrorKind) :
    (t.add k).count j = t.count j + if k = j then 1 else 0 := by
  have hindex : k.index = j.index ↔ k = j := by cases k <;> cases j <;> decide
  unfold Tally.add count
  simp only [Fin.getElem_fin, Vector.getElem_set, Fin.val_inj, hindex]
  split_ifs with h
  · rw [h]
  · rfl

namespace Simulation

/-- a simulation without its log and its counters -/
def core (s : Simulation ε μ W) : Simulation ε μ W :=
  { s with journal := [], dispatched := 0, registered := 0, spawned := 0, recoverable := {} }

theorem core_exchange (x : Exchange W α) (s : Simulation ε μ W) :
    (s.exchange x).2.core = { s.core with world := (x s.world).2.1 } := rfl

/-- what a run counts -/
structure Counters where
  dispatched : Nat
  registered : Nat
  spawned : Nat
  recoverable : Tally

def counters (s : Simulation ε μ W) : Counters :=
  { dispatched := s.dispatched, registered := s.registered, spawned := s.spawned, recoverable := s.recoverable }

/-- the counters after an outcome that the run survives -/
def Counters.survive (r : Except SimError Unit) (c : Counters) : Counters :=
  match r with
  | .ok () => c
  | .error err => { c with recoverable := c.recoverable.add err.kind }

/-- all that an outcome can add to is the tally -/
theorem Counters.survive_eq (r : Except SimError Unit) (c : Counters) :
    c.survive r = { c with recoverable := (c.survive r).recoverable } := by
  cases r <;> rfl

/-- the simulation in which the target of an event reacts -/
def delivering (e : Event μ) (s : Simulation ε μ W) : Simulation ε μ W :=
  { s.note (.dispatched e) with dispatched := s.dispatched + 1 }

/-- no action counts anything -/
theorem perform_counters (self : EntityId) (x : Action ε μ W α) (s : Simulation ε μ W) :
    (x.perform self s).2.counters = s.counters := by
  induction x generalizing s with
  | done a => rfl
  | observe next ih => exact ih _ s
  | schedule target delay message next ih =>
    have h : (s.schedule delay self target message).2.counters = s.counters := by
      unfold Simulation.schedule
      split <;> rfl
    exact (ih _ _).trans h
  | cancel handle next ih => exact ih _ _
  | spawn e next ih => exact ih _ _
  | stop next ih => exact ih _
  | write world next ih => exact ih _
  | remark r next ih => exact ih _

variable {s t : Simulation ε μ W}

theorem absorbOutcome_play {r : Except SimError Unit} (hr : ∀ err, r = .error err → err.isRecoverable = true)
    (id : EntityId) (s : Simulation ε μ W) :
    ∃ u, s.absorbOutcome id r = (.ok (), u) ∧ u.core = s.core ∧ u.counters = s.counters.survive r := by
  cases r with
  | ok => exact ⟨s, rfl, rfl, rfl⟩
  | error err => exact ⟨_, if_pos (hr err rfl), rfl, rfl⟩

variable [Entity ε μ W]

/-- the simulation in which a new entity starts -/
def starting (id : EntityId) (e : ε) (s : Simulation ε μ W) : Simulation ε μ W := (s.insert id e).note (.started id)

theorem settle_idle (fuel : Nat) (hw : s.waiting = []) : s.settle fuel = some (.ok (), s) := by
  unfold settle
  rw [hw]

/-- an entity that is enrolled takes the next place of the registry, where its start leaves it -/
theorem enrol_eq {x y : ε} {r : Except SimError Unit}
    (hp : (Entity.start : Reaction ε ε μ W Unit).play s.entities.size x
      (s.starting s.entities.size x) = ((r, y), t)) :
    ∃ u : Simulation ε μ W, s.enrol s.entities.size x = u.absorbOutcome s.entities.size r ∧
      u.core = { t.core with entities := s.entities.push ⟨Named.name x, stateAfter (failure? r), y⟩ } ∧
      u.counters = { s.counters with registered := s.registered + 1 } := by
  have hs : (s.insert s.entities.size x).entities[s.entities.size]? = some ⟨Named.name x, .created, x⟩ :=
    Array.getElem?_push_size
  have ht : t.entities = s.entities.push ⟨Named.name x, .created, x⟩ := by
    obtain ⟨spawned, h⟩ := (Entity.start.run.run x).perform_effect s.entities.size (s.starting s.entities.size x)
    have heq := h.entities
    change (Reaction.play _ _ _ _).2.entities = _ at heq
    rw [hp] at heq
    exact heq
  have hcounters := perform_counters s.entities.size (Entity.start.run.run x) (s.starting s.entities.size x)
  change (Reaction.play _ _ _ _).2.counters = _ at hcounters
  rw [hp] at hcounters
  have hx : (Entity.start.run.run x).perform s.entities.size
      ((s.insert s.entities.size x).note (.started s.entities.size)) = ((r, y), t) := hp
  refine ⟨{ t.note (.answered s.entities.size (failure? r)) with
    entities := t.entities.setIfInBounds s.entities.size ⟨Named.name x, stateAfter (failure? r), y⟩ }, ?_, ?_, hcounters⟩
  · unfold enrol
    rw [start_eq hs, hx]
  · rw [← setIfInBounds_push s.entities ⟨Named.name x, .created, x⟩, ← ht]
    rfl

/-- an entity whose start comes to a good end runs -/
theorem enrol_play {x y : ε} (hp : (Entity.start : Reaction ε ε μ W Unit).play s.entities.size x
    (s.starting s.entities.size x) = ((.ok (), y), t)) :
    ∃ u, s.enrol s.entities.size x = (.ok (), u) ∧
      u.core = { t.core with entities := s.entities.push ⟨Named.name x, .running, y⟩ } ∧
      u.counters = { s.counters with registered := s.registered + 1 } :=
  enrol_eq hp

/-- one spawned entity is enrolled -/
theorem settle_play (fuel : Nat) {x y : ε} (hw : s.waiting = [(s.entities.size, x)])
    (hp : (Entity.start : Reaction ε ε μ W Unit).play s.entities.size x
      ({ s with waiting := [], spawned := s.spawned + 1 }.starting s.entities.size x) = ((.ok (), y), t))
    (ht : t.waiting = []) :
    ∃ u, s.settle (fuel + 1) = some (.ok (), u) ∧
      u.core = { t.core with entities := s.entities.push ⟨Named.name x, .running, y⟩ } ∧
      u.counters = { s.counters with registered := s.registered + 1, spawned := s.spawned + 1 } := by
  obtain ⟨u, hu, hcore, hcounters⟩ := enrol_play (s := { s with waiting := [], spawned := s.spawned + 1 }) hp
  refine ⟨u, ?_, hcore, hcounters⟩
  unfold settle
  rw [hw]
  dsimp only
  rw [hu]
  exact settle_idle fuel ((congrArg Simulation.waiting hcore).trans ht)

/-- an entity is registered, and starts -/
theorem register_play (fuel : Nat) {x y : ε} (hl : s.terminated = false) (hi : s.nextId = s.entities.size)
    (hp : (Entity.start : Reaction ε ε μ W Unit).play s.entities.size x
      ((s.nameNext x).2.starting s.entities.size x) = ((.ok (), y), t)) (ht : t.waiting = []) :
    ∃ u, s.register fuel x = some (.ok s.entities.size, u) ∧
      u.core = { t.core with entities := s.entities.push ⟨Named.name x, .running, y⟩ } ∧
      u.counters = { s.counters with registered := s.registered + 1 } := by
  obtain ⟨u, hu, hcore, hcounters⟩ := enrol_play (s := (s.nameNext x).2) hp
  refine ⟨u, ?_, hcore, hcounters⟩
  have hw : u.waiting = [] := (congrArg Simulation.waiting hcore).trans ht
  have hu : (s.nameNext x).2.enrol s.entities.size x = (.ok (), u) := hu
  rw [register_eq fuel x hl, hi, hu]
  dsimp only
  rw [settle_idle fuel hw]
  rfl

/-- an entity that is registered does not start for an error that no run survives: it is in the registry, shut down -/
theorem register_failed (fuel : Nat) {x y : ε} {err : SimError} (hl : s.terminated = false)
    (hi : s.nextId = s.entities.size)
    (hp : (Entity.start : Reaction ε ε μ W Unit).play s.entities.size x
      ((s.nameNext x).2.starting s.entities.size x) = ((.error err, y), t)) (he : err.isRecoverable = false) :
    ∃ u, s.register fuel x = some (.error err, u) ∧
      u.core = { t.core with entities := s.entities.push ⟨Named.name x, .shutdown, y⟩ } ∧
      u.counters = { s.counters with registered := s.registered + 1 } := by
  obtain ⟨u, hu, hcore, hcounters⟩ := enrol_eq (s := (s.nameNext x).2) hp
  have habsorb : u.absorbOutcome s.entities.size (.error err) =
      (.error err, u.note (.halted u.now s.entities.size err)) := if_neg (by simp [he])
  have hu : (s.nameNext x).2.enrol s.entities.size x = (.error err, _) := hu.trans habsorb
  refine ⟨u.note (.halted u.now s.entities.size err), ?_, hcore, hcounters⟩
  rw [register_eq fuel x hl, hi, hu]

theorem react_eq (e : Event μ) (slot : Slot ε) (s : Simulation ε μ W) :
    s.react e slot =
      let x := (Entity.react e : Reaction ε ε μ W Unit).play e.target slot.entity (s.delivering e)
      (x.1.1, { x.2 with entities := x.2.entities.setIfInBounds e.target { slot with entity := x.1.2 } }) := rfl

/-- an event is delivered to a running entity, which comes to a good end or to an error that the run survives -/
theorem dispatch_play (fuel : Nat) {e : Event μ} {slot : Slot ε} {r : Except SimError Unit} {y : ε}
    (hs : s.entities[e.target]? = some slot) (hr : slot.state = .running)
    (hp : (Entity.react e : Reaction ε ε μ W Unit).play e.target slot.entity (s.delivering e) = ((r, y), t))
    (he : ∀ err, r = .error err → err.isRecoverable = true) :
    ∃ u : Simulation ε μ W, s.dispatch fuel e = u.settle fuel ∧
      u.core = { t.core with entities := s.entities.setIfInBounds e.target { slot with entity := y } } ∧
      u.counters = { s.counters with dispatched := s.dispatched + 1 }.survive r := by
  have hf : (s.entities[e.target]?).filter (fun slot => slot.state = .running) = some slot := by
    rw [hs]
    simp [hr]
  have ht : t.entities = s.entities := by
    obtain ⟨spawned, h⟩ := ((Entity.react e).run.run slot.entity).perform_effect e.target (s.delivering e)
    have heq := h.entities
    change (Reaction.play _ _ _ _).2.entities = _ at heq
    rw [hp] at heq
    exact heq
  have hreact : s.react e slot =
      (r, { t with entities := t.entities.setIfInBounds e.target { slot with entity := y } }) := by
    rw [react_eq, hp]
  have hcounts := perform_counters e.target ((Entity.react e).run.run slot.entity) (s.delivering e)
  change (Reaction.play _ _ _ _).2.counters = _ at hcounts
  rw [hp] at hcounts
  obtain ⟨u, hu, hcore, hcounters⟩ := absorbOutcome_play he e.target
    { t with entities := t.entities.setIfInBounds e.target { slot with entity := y } }
  refine ⟨u, ?_, ?_, hcounters.trans (congrArg (Counters.survive r) hcounts)⟩
  · unfold dispatch
    rw [hf]
    dsimp only
    rw [hreact]
    dsimp only
    rw [hu]
  · rw [hcore, ← ht]
    rfl

/-! ## Runs -/

/-- **A run that gets on comes to rest.** `Inv k` is an invariant with a measure. If from every state of it that is not
    at rest the next event leads without an error to another with a smaller measure, the run comes to rest in such a
    state. -/
theorem loop_rests {Inv : Nat → Simulation ε μ W → Prop} {horizon : Option Time}
    (step : ∀ k s, Inv k s → s.rest? horizon = none → ∃ e agenda, s.agenda.next? = some (e, agenda) ∧
      ∀ fuel, ∃ j u, ({ s with agenda } : Simulation ε μ W).dispatch (fuel + 1) e = some (.ok (), u) ∧ j < k ∧ Inv j u)
    {k fuel : Nat} (h : Inv k s) (hf : k < fuel) :
    ∃ outcome j u v, s.loop horizon fuel = some (.ok outcome, v) ∧ Inv j u ∧ u.rest? horizon = some (outcome, v) := by
  induction fuel generalizing k s with
  | zero => exact absurd hf (Nat.not_lt_zero _)
  | succ fuel ih =>
    unfold loop
    cases hr : s.rest? horizon with
    | some x => exact ⟨x.1, k, s, x.2, rfl, h, hr⟩
    | none =>
      obtain ⟨e, agenda, hnext, hstep⟩ := step k s h hr
      -- the measure was not zero, so there is fuel for the delivery itself
      obtain ⟨_, _, _, hpos, _⟩ := hstep 0
      obtain ⟨fuel, rfl⟩ : ∃ n, fuel = n + 1 := ⟨fuel - 1, by omega⟩
      obtain ⟨j, u, hu, hlt, hinv⟩ := hstep fuel
      simp only [hnext, hu]
      exact ih hinv (by omega)

end Simulation

/-! ## Worlds -/

namespace Exchange

/-- the world after the exchange is related to the world before it -/
def Within (R : W → W → Prop) (x : Exchange W α) : Prop := ∀ w, R w (x w).2.1

variable {R : W → W → Prop} [IsPreorder W R]

theorem Within.pure (a : α) : Within R (pure a : Exchange W α) := fun w => refl w

theorem Within.bind {x : Exchange W α} {f : α → Exchange W β} (hx : Within R x) (hf : ∀ a, Within R (f a)) :
    Within R (x >>= f) := fun w => IsTrans.trans _ _ _ (hx w) (hf _ _)

theorem Within.remark (level : Level) (text : String) : Within R (remark level text) := fun w => refl w

theorem Within.read (f : W → α) : Within R (read f) := fun w => refl w

theorem Within.forM {f : α → Exchange W PUnit} (hf : ∀ a, Within R (f a)) (l : List α) : Within R (l.forM f) := by
  induction l with
  | nil => exact .pure _
  | cons a l ih => exact .bind (hf a) fun _ => ih

theorem Within.mapM {f : α → Exchange W β} (hf : ∀ a, Within R (f a)) (l : List α) : Within R (l.mapM f) := by
  have h : ∀ (l : List α) (done : List β), Within R (List.mapM.loop f l done) := by
    intro l
    induction l with
    | nil => exact fun _ => .pure _
    | cons a l ih => exact fun done => .bind (hf a) fun b => ih (b :: done)
  exact h l []

theorem length_mapM (f : α → Exchange W β) (l : List α) (w : W) : ((l.mapM f) w).1.length = l.length := by
  have h : ∀ (l : List α) (done : List β) (w : W), (List.mapM.loop f l done w).1.length = done.length + l.length := by
    intro l
    induction l with
    | nil => exact fun done _ => List.length_reverse
    | cons a l ih =>
      intro done w
      exact (ih ((f a w).1 :: done) (f a w).2.1).trans (Nat.succ_add_eq_add_succ ..)
  exact (h l [] w).trans (Nat.zero_add _)

/-- where nothing is changed, it does not matter when anything is asked -/
theorem mapM_fst {f : α → Exchange W β} (hf : ∀ a, Within Eq (f a)) (l : List α) (w : W) :
    ((l.mapM f) w).1 = l.map fun a => (f a w).1 := by
  have h : ∀ (l : List α) (done : List β),
      (List.mapM.loop f l done w).1 = done.reverse ++ l.map fun a => (f a w).1 := by
    intro l
    induction l with
    | nil => exact fun done => (List.append_nil _).symm
    | cons a l ih =>
      intro done
      have first : (List.mapM.loop f (a :: l) done w).1 = (List.mapM.loop f l ((f a w).1 :: done) (f a w).2.1).1 := rfl
      rw [first, ← hf a w, ih, List.reverse_cons, List.append_assoc]
      rfl
  exact h l []

end Exchange

end BrokerSim
