/-
Two simulations side by side. `Simulation.Twin` relates simulations that nobody can tell apart who sees entities and
worlds only up to two given relations: they agree in all else but their journals.
- `Exchange.Concur`, `Reaction.Concur`: uses of the world and reactions that do the same on both sides, with a rule for
  each way of building them.
- `Entity.Concord`: entities that look the same start, react and end in the same way. From that alone, twins stay twins
  whatever is delivered, and every answer of theirs is the same: `Twin.register`, `Twin.loop`, `Twin.run`.
-/
import Mathlib.Tactic
import BrokerSim.Proofs.Kernel.Pause

namespace BrokerSim

variable {σ τ ε μ W α β : Type}

/-- two outcomes that agree: related values, or one and the same error -/
inductive Agree (A : α → α → Prop) : Except SimError α → Except SimError α → Prop where
  | ok {a b : α} (h : A a b) : Agree A (.ok a) (.ok b)
  | error (e : SimError) : Agree A (.error e) (.error e)

theorem Agree.of_eq (r : Except SimError α) : Agree Eq r r := by
  cases r with
  | ok => exact .ok rfl
  | error => exact .error _

theorem Agree.eq {r q : Except SimError α} (h : Agree Eq r q) : r = q := by
  cases h with
  | ok h => rw [h]
  | error => rfl

/-! ## Worlds -/

namespace Exchange

/-- two uses of the world that do the same in worlds that look the same; remarks do not matter -/
def Concur (R : W → W → Prop) (A : α → α → Prop) (x y : Exchange W α) : Prop :=
  ∀ v w, R v w → A (x v).1 (y w).1 ∧ R (x v).2.1 (y w).2.1

variable {R : W → W → Prop} {A : α → α → Prop} {B : β → β → Prop}

theorem Concur.pure {a b : α} (h : A a b) : Concur R A (pure a) (pure b) := fun _ _ hw => ⟨h, hw⟩

theorem Concur.bind {x y : Exchange W α} {f g : α → Exchange W β} (hx : Concur R A x y)
    (hf : ∀ a b, A a b → Concur R B (f a) (g b)) : Concur R B (x >>= f) (y >>= g) := by
  intro v w hw
  obtain ⟨ha, hw⟩ := hx v w hw
  exact hf _ _ ha _ _ hw

theorem Concur.remark {level level' : Level} {text text' : String} :
    Concur R Eq (remark level text) (remark level' text') := fun _ _ hw => ⟨rfl, hw⟩

theorem Concur.forM₂ {P : α → α → Prop} {f g : α → Exchange W PUnit} (hf : ∀ a b, P a b → Concur R Eq (f a) (g b))
    {l k : List α} (h : List.Forall₂ P l k) : Concur R Eq (l.forM f) (k.forM g) := by
  induction h with
  | nil => exact .pure rfl
  | cons hab _ ih => exact .bind (hf _ _ hab) fun _ _ _ => ih

theorem Concur.forM {f g : α → Exchange W PUnit} (hf : ∀ a, Concur R Eq (f a) (g a)) (l : List α) :
    Concur R Eq (l.forM f) (l.forM g) :=
  .forM₂ (P := Eq) (fun a _ hab => hab ▸ hf a) (List.forall₂_refl l)

theorem Concur.mapM {f g : α → Exchange W β} (hf : ∀ a, Concur R Eq (f a) (g a)) (l : List α) :
    Concur R Eq (l.mapM f) (l.mapM g) := by
  have h : ∀ (l : List α) (done : List β), Concur R Eq (List.mapM.loop f l done) (List.mapM.loop g l done) := by
    intro l
    induction l with
    | nil => exact fun _ => .pure rfl
    | cons a l ih => exact fun done => .bind (hf a) fun b c hbc => hbc ▸ ih (b :: done)
  exact h l []

end Exchange

/-! ## Simulations -/

/-- places of the registry that look the same -/
structure Slot.Like (E : ε → ε → Prop) (a b : Slot ε) : Prop where
  name : a.name = b.name
  state : a.state = b.state
  entity : E a.entity b.entity

/-- what an entity sees of two simulations that look the same -/
structure View.Like (R : W → W → Prop) (v w : View W) : Prop where
  now : v.now = w.now
  self : v.self = w.self
  nextId : v.nextId = w.nextId
  isPending : v.isPending = w.isPending
  world : R v.world w.world

namespace Simulation

/-- a simulation without its entities, its world and its journal -/
def shell (s : Simulation ε μ W) : Simulation Unit μ Unit :=
  { limits := s.limits, agenda := s.agenda, nextId := s.nextId, stopRequested := s.stopRequested
    terminated := s.terminated, dispatched := s.dispatched, registered := s.registered, spawned := s.spawned
    recoverable := s.recoverable, world := () }

/-- two simulations that look the same: entity by entity, and in all else but their journals -/
structure Twin (E : ε → ε → Prop) (R : W → W → Prop) (s t : Simulation ε μ W) : Prop where
  shell : s.shell = t.shell
  size : s.entities.size = t.entities.size
  slots : ∀ id : Nat, Option.Rel (Slot.Like E) s.entities[id]? t.entities[id]?
  waiting : List.Forall₂ (fun p q => p.1 = q.1 ∧ E p.2 q.2) s.waiting t.waiting
  world : R s.world t.world

namespace Twin

variable {E : ε → ε → Prop} {R : W → W → Prop} {A : α → α → Prop} {s t : Simulation ε μ W}

theorem read (h : Twin E R s t) (f : Simulation Unit μ Unit → β) : f s.shell = f t.shell := congrArg f h.shell

theorem limits (h : Twin E R s t) : s.limits = t.limits := (h.read fun u => u.limits :)

theorem agenda (h : Twin E R s t) : s.agenda = t.agenda := (h.read fun u => u.agenda :)

theorem now (h : Twin E R s t) : s.now = t.now := congrArg Agenda.now h.agenda

theorem nextId (h : Twin E R s t) : s.nextId = t.nextId := (h.read fun u => u.nextId :)

theorem terminated (h : Twin E R s t) : s.terminated = t.terminated := (h.read fun u => u.terminated :)

theorem stopRequested (h : Twin E R s t) : s.stopRequested = t.stopRequested := (h.read fun u => u.stopRequested :)

theorem dispatched (h : Twin E R s t) : s.dispatched = t.dispatched := (h.read fun u => u.dispatched :)

theorem recoverable (h : Twin E R s t) : s.recoverable = t.recoverable := (h.read fun u => u.recoverable :)

/-- journals are left out of account -/
theorem note (h : Twin E R s t) (e f : Entry ε μ) : Twin E R (s.note e) (t.note f) :=
  ⟨h.shell, h.size, h.slots, h.waiting, h.world⟩

theorem setAgenda (h : Twin E R s t) (agenda : Agenda μ) : Twin E R { s with agenda } { t with agenda } :=
  ⟨congrArg (fun u => { u with agenda }) h.shell, h.size, h.slots, h.waiting, h.world⟩

theorem setSlot (h : Twin E R s t) (id : EntityId) {a b : Slot ε} (hab : Slot.Like E a b) :
    Twin E R { s with entities := s.entities.setIfInBounds id a }
      { t with entities := t.entities.setIfInBounds id b } := by
  refine ⟨h.shell, ?_, fun key => ?_, h.waiting, h.world⟩
  · rw [Array.size_setIfInBounds, Array.size_setIfInBounds, h.size]
  · rw [Array.getElem?_setIfInBounds, Array.getElem?_setIfInBounds, h.size]
    split_ifs
    · exact .some hab
    · exact .none
    · exact h.slots key

theorem exchange (h : Twin E R s t) {x y : Exchange W α} (hxy : Exchange.Concur R A x y) :
    A (s.exchange x).1 (t.exchange y).1 ∧ Twin E R (s.exchange x).2 (t.exchange y).2 := by
  obtain ⟨ha, hw⟩ := hxy _ _ h.world
  exact ⟨ha, h.shell, h.size, h.slots, h.waiting, hw⟩

theorem schedule (h : Twin E R s t) (delay : Float) (source target : EntityId) (message : μ) :
    (s.schedule delay source target message).1 = (t.schedule delay source target message).1 ∧
      Twin E R (s.schedule delay source target message).2 (t.schedule delay source target message).2 := by
  unfold Simulation.schedule
  rw [h.agenda]
  cases t.agenda.schedule delay source target message with
  | ok => exact ⟨rfl, h.setAgenda _⟩
  | error => exact ⟨rfl, h⟩

theorem cancel (h : Twin E R s t) (handle : Handle) :
    (s.cancel handle).1 = (t.cancel handle).1 ∧ Twin E R (s.cancel handle).2 (t.cancel handle).2 := by
  unfold Simulation.cancel
  rw [h.agenda]
  exact ⟨rfl, h.setAgenda _⟩

/-- the next id is the same, whoever gets it -/
theorem nameNext (h : Twin E R s t) (x y : ε) :
    (s.nameNext x).1 = (t.nameNext y).1 ∧ Twin E R (s.nameNext x).2 (t.nameNext y).2 :=
  ⟨h.nextId, congrArg (fun u => { u with nextId := u.nextId + 1 }) h.shell, h.size, h.slots, h.waiting, h.world⟩

theorem reserve (h : Twin E R s t) {x y : ε} (hxy : E x y) :
    (s.reserve x).1 = (t.reserve y).1 ∧ Twin E R (s.reserve x).2 (t.reserve y).2 := by
  obtain ⟨hid, named⟩ := h.nameNext x y
  refine ⟨hid, named.shell, named.size, named.slots, ?_, named.world⟩
  exact List.rel_append named.waiting (.cons ⟨hid, hxy⟩ .nil)

theorem view (h : Twin E R s t) (self : EntityId) : View.Like R (s.view self) (t.view self) :=
  ⟨h.now, rfl, h.nextId, congrArg Agenda.isPending h.agenda, h.world⟩

end Twin

end Simulation

/-! ## Reactions -/

namespace Reaction

open Simulation

/-- what two reactions have come to: outcomes that agree, states that look the same, and twins -/
structure Met (E : ε → ε → Prop) (R : W → W → Prop) (S : σ → σ → Prop) (A : α → α → Prop)
    (p q : (Except SimError α × σ) × Simulation ε μ W) : Prop where
  outcome : Agree A p.1.1 q.1.1
  state : S p.1.2 q.1.2
  twin : Twin E R p.2 q.2

/-- two reactions that do the same in states and in simulations that look the same -/
def Concur (E : ε → ε → Prop) (R : W → W → Prop) (S : σ → σ → Prop) (A : α → α → Prop) (r q : Reaction σ ε μ W α) :
    Prop :=
  ∀ self x y s t, S x y → Twin E R s t → Met E R S A (r.play self x s) (q.play self y t)

variable {E : ε → ε → Prop} {R : W → W → Prop} {S : σ → σ → Prop} {A : α → α → Prop} {B : β → β → Prop}

theorem Concur.pure {a b : α} (h : A a b) : Concur E R S A (μ := μ) (pure a) (pure b) :=
  fun _ _ _ _ _ hx hs => ⟨.ok h, hx, hs⟩

theorem Concur.throw (e : SimError) : Concur E R S A (μ := μ) (throw e) (throw e) :=
  fun _ _ _ _ _ hx hs => ⟨.error e, hx, hs⟩

theorem Concur.bind {r q : Reaction σ ε μ W α} {f g : α → Reaction σ ε μ W β} (hr : Concur E R S A r q)
    (hf : ∀ a b, A a b → Concur E R S B (f a) (g b)) : Concur E R S B (r >>= f) (q >>= g) := by
  intro self x y s t hx hs
  rw [play_bind, play_bind]
  have hmet := hr self x y s t hx hs
  revert hmet
  rcases r.play self x s with ⟨⟨a, x⟩, s⟩
  rcases q.play self y t with ⟨⟨b, y⟩, t⟩
  rintro ⟨hab, hx, hs⟩
  cases hab with
  | ok hab => exact hf _ _ hab self x y s t hx hs
  | error e => exact ⟨.error e, hx, hs⟩

theorem Concur.get : Concur E R S S (μ := μ) get get := fun _ _ _ _ _ hx hs => ⟨.ok hx, hx, hs⟩

theorem Concur.set {x y : σ} (h : S x y) : Concur E R S Eq (μ := μ) (set x) (set y) :=
  fun _ _ _ _ _ _ hs => ⟨.ok rfl, h, hs⟩

theorem Concur.modify {f g : σ → σ} (h : ∀ x y, S x y → S (f x) (g y)) :
    Concur E R S Eq (μ := μ) (modify f) (modify g) :=
  fun _ _ _ _ _ hx hs => ⟨.ok rfl, h _ _ hx, hs⟩

theorem Concur.view : Concur E R S (View.Like R) (μ := μ) view view :=
  fun self _ _ _ _ hx hs => ⟨.ok (hs.view self), hx, hs⟩

theorem Concur.remark {level level' : Level} {text text' : String} :
    Concur E R S Eq (μ := μ) (remark level text) (remark level' text') :=
  fun _ _ _ _ _ hx hs => ⟨.ok rfl, hx, hs.note _ _⟩

theorem Concur.scheduleSelf (delay : Float) (message : μ) :
    Concur E R S Eq (scheduleSelf delay message) (scheduleSelf delay message) := by
  intro self x y s t hx hs
  rw [play_scheduleSelf, play_scheduleSelf]
  obtain ⟨hh, hs⟩ := hs.schedule delay self self message
  exact ⟨hh ▸ .of_eq _, hx, hs⟩

theorem Concur.cancel (h : Handle) : Concur E R S Eq (μ := μ) (cancel h) (cancel h) := by
  intro self x y s t hx hs
  obtain ⟨hb, hs⟩ := hs.cancel h
  exact ⟨.ok hb, hx, hs⟩

theorem Concur.spawn {e f : ε} (h : E e f) : Concur E R S Eq (μ := μ) (spawn e) (spawn f) := by
  intro self x y s t hx hs
  obtain ⟨hid, hs⟩ := hs.reserve h
  exact ⟨.ok hid, hx, hs⟩

theorem Concur.exchange {x y : Exchange W α} (h : Exchange.Concur R A x y) :
    Concur E R S A (μ := μ) (exchange x) (exchange y) := by
  intro self u v s t hu hs
  rw [play_exchange, play_exchange]
  obtain ⟨ha, hs⟩ := hs.exchange h
  exact ⟨.ok ha, hu, hs⟩

theorem Concur.call {x y : Exchange W (Except SimError α)} (h : Exchange.Concur R (Agree A) x y) :
    Concur E R S A (μ := μ) (call x) (call y) := by
  intro self u v s t hu hs
  rw [play_call, play_call]
  obtain ⟨ha, hs⟩ := hs.exchange h
  exact ⟨ha, hu, hs⟩

theorem Concur.within {T : τ → τ → Prop} {whole : τ → σ} (hwhole : ∀ x y, T x y → S (whole x) (whole y)) {x y : τ}
    (hxy : T x y) {r q : Reaction τ ε μ W α} (h : Concur E R T A r q) :
    Concur E R S A (within whole x r) (within whole y q) := by
  intro self _ _ s t _ hs
  rw [play_within, play_within]
  obtain ⟨ha, hx, hs⟩ := h self x y s t hxy hs
  exact ⟨ha, hwhole _ _ hx, hs⟩

theorem Concur.forM {γ : Type} {f g : γ → Reaction σ ε μ W PUnit} (hf : ∀ c, Concur E R S Eq (f c) (g c))
    (l : List γ) : Concur E R S Eq (l.forM f) (l.forM g) := by
  induction l with
  | nil => exact .pure rfl
  | cons c l ih => exact .bind (hf c) fun _ _ _ => ih

end Reaction

/-- entities that look the same do the same -/
structure Entity.Concord (μ : Type) [Entity ε μ W] (E : ε → ε → Prop) (R : W → W → Prop) : Prop where
  name : ∀ x y, E x y → (Entity.toNamed μ W : Named ε).name x = (Entity.toNamed μ W : Named ε).name y
  start : Reaction.Concur E R E Eq (Entity.start : Reaction ε ε μ W Unit) Entity.start
  react : ∀ e : Event μ, Reaction.Concur E R E Eq (Entity.react e : Reaction ε ε μ W Unit) (Entity.react e)
  shutdown : ∀ now x y, E x y → Exchange.Concur R E (Entity.shutdown μ now x) (Entity.shutdown μ now y)

/-! ## Runs -/

namespace Simulation

/-- answers that are the same, of simulations that look the same -/
structure Same (E : ε → ε → Prop) (R : W → W → Prop) (p q : Result ε μ W α) : Prop where
  outcome : p.1 = q.1
  twin : Twin E R p.2 q.2

theorem Same.cases {E : ε → ε → Prop} {R : W → W → Prop} {p q : Result ε μ W α} (h : Same E R p q) :
    (∃ a s t, p = (.ok a, s) ∧ q = (.ok a, t) ∧ Twin E R s t) ∨
      ∃ e s t, p = (.error e, s) ∧ q = (.error e, t) ∧ Twin E R s t := by
  obtain ⟨r, s⟩ := p
  obtain ⟨_, t⟩ := q
  obtain ⟨rfl, twin⟩ := h
  cases r with
  | ok a => exact .inl ⟨a, s, t, rfl, rfl, twin⟩
  | error e => exact .inr ⟨e, s, t, rfl, rfl, twin⟩

/-- the same answer on both sides, or none on either -/
theorem rel_cases {P : α → α → Prop} {x y : Option α} (h : Option.Rel P x y) :
    x = none ∧ y = none ∨ ∃ a b, x = some a ∧ y = some b ∧ P a b := by
  cases h with
  | none => exact .inl ⟨rfl, rfl⟩
  | some h => exact .inr ⟨_, _, rfl, rfl, h⟩

namespace Twin

variable {E : ε → ε → Prop} {R : W → W → Prop} {s t : Simulation ε μ W}

theorem stats (h : Twin E R s t) : s.stats = t.stats := (h.read fun u =>
  ({ dispatched := u.dispatched, cancelled := u.agenda.cancelled, registered := u.registered, spawned := u.spawned
     recoverable := u.recoverable, finalTime := u.now } : Stats) :)

theorem absorb (h : Twin E R s t) (id : EntityId) (e : SimError) : Same E R (s.absorb id e) (t.absorb id e) := by
  unfold Simulation.absorb
  split_ifs
  · rw [h.recoverable]
    have hshell := h.read fun u => { u with recoverable := t.recoverable.add e.kind }
    exact ⟨rfl, hshell, h.size, h.slots, h.waiting, h.world⟩
  · exact ⟨rfl, h.note _ _⟩

theorem absorbOutcome (h : Twin E R s t) (id : EntityId) (r : Except SimError Unit) :
    Same E R (s.absorbOutcome id r) (t.absorbOutcome id r) := by
  cases r with
  | ok => exact ⟨rfl, h⟩
  | error e => exact h.absorb id e

/-- what has to be done before the next event, if anything, does not depend on entities and worlds -/
theorem limitReached (h : Twin E R s t) : s.limitReached? = t.limitReached? := by
  unfold limitReached?
  rw [h.limits, h.dispatched]

variable [Entity ε μ W] (hE : Entity.Concord μ E R)

include hE

theorem close (h : Twin E R s t) (id : EntityId) : Twin E R (s.close id) (t.close id) := by
  unfold Simulation.close
  obtain ⟨hs, ht⟩ | ⟨a, b, hs, ht, hab⟩ := rel_cases (h.slots id)
  · rw [hs, ht]
    exact h
  · rw [hs, ht]
    dsimp only
    rw [hab.state, ← h.now]
    split_ifs
    · have shut := hE.shutdown s.now a.entity b.entity hab.entity
      obtain ⟨hentity, hnext⟩ := (h.note (.closed s.now id) (.closed s.now id)).exchange shut
      refine hnext.setSlot id ?_
      exact ⟨hab.name, rfl, hentity⟩
    · exact h

theorem finish (h : Twin E R s t) : Twin E R s.finish t.finish := by
  have closed : ∀ (ids : List EntityId) (s t : Simulation ε μ W), Twin E R s t →
      Twin E R (ids.foldl Simulation.close s) (ids.foldl Simulation.close t) := by
    intro ids
    induction ids with
    | nil => exact fun _ _ h => h
    | cons id ids ih => exact fun s t h => ih _ _ (h.close hE id)
  unfold Simulation.finish
  dsimp only
  rw [h.terminated, h.size]
  split_ifs
  · exact h
  · have hshell := h.read fun u => { u with terminated := true }
    have ended : Twin E R { s with terminated := true, waiting := [] } { t with terminated := true, waiting := [] } :=
      ⟨hshell, h.size, h.slots, .nil, h.world⟩
    exact (closed _ _ _ ended).note _ _

theorem insert (h : Twin E R s t) (id : EntityId) {x y : ε} (hxy : E x y) :
    Twin E R (s.insert id x) (t.insert id y) := by
  have hshell := h.read fun u => { u with registered := u.registered + 1 }
  refine ⟨hshell, ?_, fun key => ?_, h.waiting, h.world⟩
  · exact (Array.size_push ..).trans ((congrArg (· + 1) h.size).trans (Array.size_push ..).symm)
  · change Option.Rel _ (s.entities.push _)[key]? (t.entities.push _)[key]?
    rw [Array.getElem?_push, Array.getElem?_push, h.size]
    split_ifs
    · exact .some ⟨hE.name x y hxy, rfl, hxy⟩
    · exact h.slots key

theorem start (h : Twin E R s t) (id : EntityId) : Same E R (s.start id) (t.start id) := by
  obtain ⟨hs, ht⟩ | ⟨a, b, hs, ht, hab⟩ := rel_cases (h.slots id)
  · unfold Simulation.start
    rw [hs, ht]
    exact ⟨rfl, h.note _ _⟩
  · rw [start_eq hs, start_eq ht]
    obtain ⟨houtcome, hentity, hnext⟩ :=
      hE.start id a.entity b.entity _ _ hab.entity (h.note (.started id) (.started id))
    unfold Reaction.play at houtcome hentity hnext
    dsimp only
    rw [houtcome.eq]
    refine ⟨rfl, (hnext.note _ _).setSlot id ?_⟩
    exact ⟨hab.name, rfl, hentity⟩

theorem enrol (h : Twin E R s t) (id : EntityId) {x y : ε} (hxy : E x y) : Same E R (s.enrol id x) (t.enrol id y) := by
  obtain ⟨houtcome, hnext⟩ := (h.insert hE id hxy).start hE id
  unfold Simulation.enrol
  dsimp only
  rw [houtcome]
  exact hnext.absorbOutcome id _

theorem settle (h : Twin E R s t) (fuel : Nat) : Option.Rel (Same E R) (s.settle fuel) (t.settle fuel) := by
  induction fuel generalizing s t with
  | zero =>
    unfold Simulation.settle
    have hw := h.waiting
    generalize s.waiting = v, t.waiting = w at hw
    cases hw with
    | nil => exact .some ⟨rfl, h⟩
    | cons => exact .none
  | succ fuel ih =>
    unfold Simulation.settle
    have hw := h.waiting
    generalize s.waiting = v, t.waiting = w at hw
    cases hw with
    | nil => exact .some ⟨rfl, h⟩
    | @cons first first' rest rest' hfirst hrest =>
      obtain ⟨id, x⟩ := first
      obtain ⟨_, y⟩ := first'
      obtain ⟨rfl, hxy⟩ := hfirst
      have hshell := h.read fun u => { u with spawned := u.spawned + 1 }
      have next : Twin E R { s with waiting := rest, spawned := s.spawned + 1 }
          { t with waiting := rest', spawned := t.spawned + 1 } := ⟨hshell, h.size, h.slots, hrest, h.world⟩
      dsimp only
      obtain ⟨_, u, v, hu, hv, twin⟩ | ⟨e, u, v, hu, hv, twin⟩ := (next.enrol hE id hxy).cases
      · rw [hu, hv]
        exact ih twin
      · rw [hu, hv]
        exact .some ⟨rfl, twin⟩

/-- **Registering** entities that look the same. -/
theorem register (h : Twin E R s t) (fuel : Nat) {x y : ε} (hxy : E x y) :
    Option.Rel (Same E R) (s.register fuel x) (t.register fuel y) := by
  cases hl : s.terminated with
  | true =>
    unfold Simulation.register
    rw [← h.terminated, hl, h.now]
    exact .some ⟨rfl, h⟩
  | false =>
    rw [register_eq fuel x hl, register_eq fuel y (h.terminated ▸ hl), ← h.nextId]
    obtain ⟨_, u, v, hu, hv, twin⟩ | ⟨e, u, v, hu, hv, twin⟩ := ((h.nameNext x y).2.enrol hE s.nextId hxy).cases
    · rw [hu, hv]
      dsimp only
      obtain ⟨hp, hq⟩ | ⟨p, q, hp, hq, hsame⟩ := rel_cases (twin.settle hE fuel)
      · rw [hp, hq]
        exact .none
      · rw [hp, hq]
        exact .some ⟨congrArg (Except.map _) hsame.outcome, hsame.twin⟩
    · rw [hu, hv]
      exact .some ⟨rfl, twin⟩

theorem react (h : Twin E R s t) (e : Event μ) {a b : Slot ε} (hab : Slot.Like E a b) :
    Same E R (s.react e a) (t.react e b) := by
  have hshell := h.read fun u => { u with dispatched := u.dispatched + 1 }
  have delivered : Twin E R (s.delivering e) (t.delivering e) := ⟨hshell, h.size, h.slots, h.waiting, h.world⟩
  obtain ⟨houtcome, hentity, hnext⟩ := hE.react e e.target a.entity b.entity _ _ hab.entity delivered
  rw [react_eq, react_eq]
  dsimp only
  refine ⟨houtcome.eq, hnext.setSlot e.target ?_⟩
  exact ⟨hab.name, hab.state, hentity⟩

theorem dispatch (h : Twin E R s t) (fuel : Nat) (e : Event μ) :
    Option.Rel (Same E R) (s.dispatch fuel e) (t.dispatch fuel e) := by
  have unknown : Option.Rel (Same E R) (some ((s.note (.dropped e)).absorb e.target (.unknownTarget e.target)))
      (some ((t.note (.dropped e)).absorb e.target (.unknownTarget e.target))) := .some ((h.note _ _).absorb _ _)
  unfold Simulation.dispatch
  obtain ⟨hs, ht⟩ | ⟨a, b, hs, ht, hab⟩ := rel_cases (h.slots e.target)
  · rw [hs, ht]
    exact unknown
  · rw [hs, ht, Option.filter_some, Option.filter_some, hab.state]
    split_ifs
    · dsimp only
      obtain ⟨houtcome, hnext⟩ := h.react hE e hab
      rw [houtcome]
      obtain ⟨_, u, v, hu, hv, twin⟩ | ⟨e, u, v, hu, hv, twin⟩ := (hnext.absorbOutcome e.target _).cases
      · rw [hu, hv]
        exact twin.settle hE fuel
      · rw [hu, hv]
        exact .some ⟨rfl, twin⟩
    · exact unknown

/-- twins come to rest together -/
theorem rest (h : Twin E R s t) (horizon : Option Time) :
    Option.Rel (fun p q => p.1 = q.1 ∧ Twin E R p.2 q.2) (s.rest? horizon) (t.rest? horizon) := by
  unfold rest?
  rw [h.terminated, h.stopRequested, h.limitReached, h.agenda]
  split_ifs
  · exact .some ⟨rfl, h⟩
  · exact .some ⟨rfl, (h.note _ _).finish hE⟩
  · cases t.limitReached? with
    | some => exact .some ⟨rfl, h.note _ _⟩
    | none =>
      cases t.agenda.nextTime? with
      | none => exact .some ⟨rfl, h⟩
      | some time =>
        dsimp only
        split_ifs
        · exact .some ⟨rfl, h⟩
        · exact .none

/-- all that is left to look at is what comes of an event -/
theorem loop_of_deliver (h : Twin E R s t) {horizon : Option Time} {fuel : Nat}
    (deliver : ∀ e agenda, s.rest? horizon = none → t.rest? horizon = none → s.agenda.next? = some (e, agenda) →
      t.agenda.next? = some (e, agenda) → Option.Rel (Same E R) (s.loop horizon fuel) (t.loop horizon fuel)) :
    Option.Rel (Same E R) (s.loop horizon fuel) (t.loop horizon fuel) := by
  obtain ⟨hs, ht⟩ | ⟨⟨outcome, u⟩, ⟨_, v⟩, hs, ht, rfl, twin⟩ := rel_cases (h.rest hE horizon)
  · cases hn : s.agenda.next? with
    | none =>
      rw [loop_empty hs hn, loop_empty ht (h.agenda ▸ hn)]
      exact .some ⟨rfl, h⟩
    | some p => exact deliver p.1 p.2 hs ht hn (h.agenda ▸ hn)
  · rw [loop_rest hs, loop_rest ht]
    exact .some ⟨rfl, twin⟩

/-- **Delivering events.** Twins stay twins, whatever is delivered. -/
theorem loop (h : Twin E R s t) (horizon : Option Time) (fuel : Nat) :
    Option.Rel (Same E R) (s.loop horizon fuel) (t.loop horizon fuel) := by
  induction fuel generalizing s t with
  | zero =>
    refine h.loop_of_deliver hE fun e agenda hs ht hn hm => ?_
    rw [loop.eq_def, hs, loop.eq_def _ _ t, ht]
    dsimp only
    rw [hn, hm]
    exact .none
  | succ fuel ih =>
    refine h.loop_of_deliver hE fun e agenda hs ht hn hm => ?_
    rw [loop_deliver hs hn, loop_deliver ht hm]
    obtain ⟨hp, hq⟩ | ⟨p, q, hp, hq, hsame⟩ := rel_cases ((h.setAgenda agenda).dispatch hE fuel e)
    · rw [hp, hq]
      exact .none
    · rw [hp, hq]
      obtain ⟨_, u, v, rfl, rfl, twin⟩ | ⟨err, u, v, rfl, rfl, twin⟩ := hsame.cases
      · exact ih twin
      · exact .some ⟨rfl, twin.finish hE⟩

/-- **Running to the end.** -/
theorem run (h : Twin E R s t) (fuel : Nat) : Option.Rel (Same E R) (s.run fuel) (t.run fuel) := by
  unfold Simulation.run
  rw [h.limits]
  obtain ⟨hp, hq⟩ | ⟨p, q, hp, hq, hsame⟩ := rel_cases (h.loop hE t.limits.until? fuel)
  · rw [hp, hq]
    exact .none
  · rw [hp, hq]
    exact .some ⟨hsame.outcome, hsame.twin.finish hE⟩

end Twin

end Simulation

end BrokerSim
