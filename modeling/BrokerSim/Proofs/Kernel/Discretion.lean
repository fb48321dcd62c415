/-
Who can strike off an event. A handle is known to those it was answered to, and to those they pass it on to: an entity
may keep handles, leave them in the world or give them to an entity that it spawns. An action that is discreet
(`Action.Discreet`) cancels no event whose handle it cannot know.
- `Action.perform_discreet`: whatever a discreet action does, events under handles that nobody knew are still to come,
  and nobody has learnt their handles.
- `Course`: any calls and any deliveries, with a caller who is discreet as well.
-/
import Mathlib.Tactic
import BrokerSim.Proofs.Kernel.Moves
import BrokerSim.Proofs.Kernel.Queue
import BrokerSim.Proofs.Kernel.Reaction

namespace BrokerSim

variable {ε μ W α β σ τ : Type}

/-- where handles are kept: by entities, and in the world, open to everybody -/
structure Custody (ε W : Type) where
  entity : ε → Set Handle
  world : W → Set Handle

/-! ## Discreet actions -/

/-- an action by somebody who knows these handles: it cancels only those and such as it is answered on its way, and
    passes no others on to the world or to whom it spawns. `ends` holds of what is known in the end and of what the
    action comes to. -/
def Action.Discreet (c : Custody ε W) (ends : Set Handle → α → Prop) : Action ε μ W α → Set Handle → Prop
  | done a, known => ends known a
  | observe next, known => ∀ v : View W, c.world v.world ⊆ known → (next v).Discreet c ends known
  | schedule _ _ _ next, known => ∀ r, (next r).Discreet c ends (known ∪ {h | r = .ok h})
  | cancel h next, known => h ∈ known ∧ ∀ b, (next b).Discreet c ends known
  | spawn e next, known => c.entity e ⊆ known ∧ ∀ id, (next id).Discreet c ends known
  | stop next, known => next.Discreet c ends known
  | write world next, known => c.world world ⊆ known ∧ next.Discreet c ends known
  | remark _ next, known => next.Discreet c ends known

/-- a reaction that is discreet if everything is known that its entity keeps and that it was told; in the end nothing is
    kept that is not known -/
def Reaction.Discreet (c : Custody ε W) (keeps : σ → Set Handle) (told : Set Handle)
    (r : Reaction σ ε μ W α) : Prop :=
  ∀ known x, keeps x ⊆ known → told ⊆ known →
    (r.run.run x).Discreet c (fun known y => keeps y.2 ⊆ known) known

/-- an exchange that leaves no more handles in the world -/
def Custody.Quiet (c : Custody ε W) (before after : W) : Prop := c.world after ⊆ c.world before

instance (c : Custody ε W) : IsPreorder W c.Quiet where
  refl := fun _ => subset_rfl
  trans := fun _ _ _ h k => k.trans h

namespace Action.Discreet

variable {c : Custody ε W} {mid : Set Handle → α → Prop} {ends : Set Handle → β → Prop} {known : Set Handle}

theorem andThen {x : Action ε μ W α} {f : α → Action ε μ W β} (hx : x.Discreet c mid known)
    (hf : ∀ known' a, known ⊆ known' → mid known' a → (f a).Discreet c ends known') :
    (x.andThen f).Discreet c ends known := by
  induction x generalizing known with
  | done a => exact hf known a subset_rfl hx
  | observe next ih => exact fun v hv => ih v (hx v hv) hf
  | schedule target delay message next ih =>
    exact fun r => ih r (hx r) fun known' a hk => hf known' a (Set.subset_union_left.trans hk)
  | cancel h next ih => exact ⟨hx.1, fun b => ih b (hx.2 b) hf⟩
  | spawn e next ih => exact ⟨hx.1, fun id => ih id (hx.2 id) hf⟩
  | stop next ih => exact ih hx hf
  | write world next ih => exact ⟨hx.1, ih hx.2 hf⟩
  | remark r next ih => exact ih hx hf

theorem exchange {x : Exchange W α} (hx : x.Within c.Quiet) (ha : ∀ a known', known ⊆ known' → mid known' a) :
    (Action.exchange x : Action ε μ W α).Discreet c mid known := by
  have h : ∀ (remarks : List Remark) (a : α),
      (remarks.foldr Action.remark (.done a) : Action ε μ W α).Discreet c mid known := by
    intro remarks a
    induction remarks with
    | nil => exact ha a known subset_rfl
    | cons r rest ih => exact ih
  exact fun v hv => ⟨(hx v.world).trans hv, h _ _⟩

end Action.Discreet

namespace Reaction.Discreet

variable {c : Custody ε W} {keeps : σ → Set Handle} {told : Set Handle}

theorem pure (a : α) : (Pure.pure a : Reaction σ ε μ W α).Discreet c keeps told := fun _ _ hk _ => hk

theorem throw (e : SimError) : (MonadExcept.throw e : Reaction σ ε μ W α).Discreet c keeps told := fun _ _ hk _ => hk

theorem bind {r : Reaction σ ε μ W α} {f : α → Reaction σ ε μ W β} (hr : r.Discreet c keeps told)
    (hf : ∀ a, (f a).Discreet c keeps told) : (r >>= f).Discreet c keeps told := by
  intro known x hx ht
  refine Action.Discreet.andThen (hr known x hx ht) ?_
  rintro known' ⟨a | e, y⟩ hk hy
  · exact hy
  · exact hf _ known' y hy (ht.trans hk)

theorem get : (MonadState.get : Reaction σ ε μ W σ).Discreet c keeps told := fun _ _ hk _ => hk

theorem set (h : ∀ x, keeps x = ∅) (y : σ) : (MonadStateOf.set y : Reaction σ ε μ W PUnit).Discreet c keeps told :=
  fun known _ _ _ => (h y).trans_subset (Set.empty_subset known)

/-- an action that leaves the state alone -/
theorem ofAction {y : Action ε μ W α} (hy : ∀ known, told ⊆ known → y.Discreet c (fun _ _ => True) known) :
    (Reaction.ofAction y : Reaction σ ε μ W α).Discreet c keeps told := by
  intro known x hx ht
  have first : (y.andThen fun a => Action.done (a, x)).Discreet c (fun known p => keeps p.2 ⊆ known) known :=
    .andThen (hy known ht) fun known' a hk _ => hx.trans hk
  exact Action.Discreet.andThen first fun known' p _ hp => hp

theorem ofExcept (r : Except SimError α) : (Reaction.ofExcept r : Reaction σ ε μ W α).Discreet c keeps told :=
  fun _ _ hk _ => hk

theorem view : (Reaction.view : Reaction σ ε μ W (View W)).Discreet c keeps told :=
  .ofAction fun _ _ _ _ => trivial

theorem remark (level : Level) (text : String) :
    (Reaction.remark level text : Reaction σ ε μ W Unit).Discreet c keeps told := .ofAction fun _ _ => trivial

theorem schedule (target : EntityId) (delay : Float) (message : μ) :
    (Reaction.schedule target delay message : Reaction σ ε μ W Handle).Discreet c keeps told :=
  .bind (.ofAction fun _ _ _ => trivial) .ofExcept

theorem scheduleSelf (delay : Float) (message : μ) :
    (Reaction.scheduleSelf delay message : Reaction σ ε μ W Handle).Discreet c keeps told :=
  .bind .view fun _ => .schedule _ _ _

theorem spawn {e : ε} (he : c.entity e = ∅) : (Reaction.spawn e : Reaction σ ε μ W EntityId).Discreet c keeps told :=
  .ofAction fun known _ => ⟨he.trans_subset (Set.empty_subset known), fun _ => trivial⟩

theorem exchange {x : Exchange W α} (hx : x.Within c.Quiet) :
    (Reaction.exchange x : Reaction σ ε μ W α).Discreet c keeps told :=
  .ofAction fun _ _ => .exchange hx fun _ _ _ => trivial

theorem forM {f : α → Reaction σ ε μ W PUnit} (hf : ∀ a, (f a).Discreet c keeps told) (l : List α) :
    (l.forM f).Discreet c keeps told := by
  induction l with
  | nil => exact .pure _
  | cons a l ih => exact .bind (hf a) fun _ => ih

end Reaction.Discreet

/-! ## What discreet actions leave alone -/

/-- a simulation with the agenda of `p`, in which no handles are kept or wait to be kept but known ones -/
structure Kept (c : Custody ε W) (known : Set Handle) (s : Simulation ε μ W) (p : Plain μ) : Prop where
  refines : Refines s.agenda p
  sound : p.Sound
  issued : ∀ h ∈ known, h < p.issued
  world : c.world s.world ⊆ known
  waiting : ∀ w ∈ s.waiting, c.entity w.2 ⊆ known
  entities : ∀ slot ∈ s.entities, c.entity slot.entity ⊆ known

/-- from `p` to `q`, events under handles that were not known stayed, and their handles are still not known -/
structure Respects (known : Set Handle) (p : Plain μ) (known' : Set Handle) (q : Plain μ) : Prop where
  grows : known ⊆ known'
  live : ∀ e ∈ p.live, e.handle ∉ known → e ∈ q.live ∧ e.handle ∉ known'

variable {c : Custody ε W} {known known' known'' : Set Handle} {s : Simulation ε μ W} {p q r : Plain μ}

theorem Respects.refl (known : Set Handle) (p : Plain μ) : Respects known p known p :=
  ⟨subset_rfl, fun _ he hn => ⟨he, hn⟩⟩

theorem Respects.trans (h : Respects known p known' q) (k : Respects known' q known'' r) :
    Respects known p known'' r := by
  refine ⟨h.grows.trans k.grows, ?_⟩
  intro e he hn
  obtain ⟨he, hn⟩ := h.live e he hn
  exact k.live e he hn

namespace Kept

/-- more may be known, as long as it was issued -/
theorem mono (h : Kept c known s p) (hk : known ⊆ known') (hi : ∀ k ∈ known', k < p.issued) : Kept c known' s p :=
  ⟨h.refines, h.sound, hi, h.world.trans hk, fun w hw => (h.waiting w hw).trans hk,
    fun slot hs => (h.entities slot hs).trans hk⟩

/-- the agenda goes on to another queue, under handles that nobody knows -/
theorem plan (h : Kept c known s p) {agenda : Agenda μ} (hr : Refines agenda q) (hq : q.Sound)
    (hi : p.issued ≤ q.issued) : Kept c known { s with agenda } q :=
  ⟨hr, hq, fun k hk => (h.issued k hk).trans_le hi, h.world, h.waiting, h.entities⟩

/-- an event is scheduled, or refused -/
theorem schedule (h : Kept c known s p) (delay : Float) (source target : EntityId) (message : μ) :
    let x := s.schedule delay source target message
    ∃ q, Kept c (known ∪ {k | x.1 = .ok k}) x.2 q ∧ Respects known p (known ∪ {k | x.1 = .ok k}) q := by
  cases hd : Agenda.accepts delay with
  | false =>
    obtain ⟨reason, hs⟩ := s.schedule_refused hd source target message
    have hnone : known ∪ {k | (Except.error (.invalidSchedule reason) : Except SimError Handle) = .ok k} = known := by
      simp
    rw [hs]
    dsimp only
    rw [hnone]
    exact ⟨p, h, .refl known p⟩
  | true =>
    obtain ⟨agenda, hs, hr, hq⟩ := Simulation.schedule_eq h.refines h.sound hd source target message
    have hone : {k | (Except.ok p.issued : Except SimError Handle) = .ok k} = {p.issued} := by
      ext k
      simp [eq_comm]
    rw [hs]
    dsimp only
    rw [hone]
    have hplan := h.plan hr hq (Nat.le_succ p.issued)
    refine ⟨_, hplan.mono Set.subset_union_left ?_, Set.subset_union_left, ?_⟩
    · rintro k (hk | rfl)
      · exact hplan.issued k hk
      · exact Nat.lt_succ_self _
    · intro e he hn
      refine ⟨List.mem_append_left _ he, ?_⟩
      rintro (hk | hk)
      · exact hn hk
      · exact (h.sound.handle e he).ne hk

/-- an event under a handle that is known is cancelled -/
theorem cancel (h : Kept c known s p) {k : Handle} (hk : k ∈ known) :
    ∃ q, Kept c known (s.cancel k).2 q ∧ Respects known p known q := by
  refine ⟨p.strike (some k), h.plan (h.refines.cancel h.sound k).2 (h.sound.strike _) ?_, subset_rfl, ?_⟩
  · rw [Plain.issued_strike]
  · intro e he hn
    refine ⟨Plain.mem_strike.2 ⟨he, ?_⟩, hn⟩
    rintro heq
    cases heq
    exact hn hk

/-- an entity is given an id, and waits -/
theorem reserve (h : Kept c known s p) {e : ε} (he : c.entity e ⊆ known) : Kept c known (s.reserve e).2 p := by
  refine { h with waiting := ?_ }
  intro w hw
  rcases List.mem_append.1 hw with hw | hw
  · exact h.waiting w hw
  · rw [List.mem_singleton.1 hw]
    exact he

/-- the log and the counters are of no account -/
theorem of_core {t : Simulation ε μ W} (h : Kept c known s p) (hc : t.core = s.core) : Kept c known t p := by
  have hagenda : t.agenda = s.agenda := (congrArg Simulation.agenda hc :)
  have hworld : t.world = s.world := (congrArg Simulation.world hc :)
  have hwaiting : t.waiting = s.waiting := (congrArg Simulation.waiting hc :)
  have hentities : t.entities = s.entities := (congrArg Simulation.entities hc :)
  exact ⟨hagenda ▸ h.refines, h.sound, h.issued, hworld ▸ h.world, hwaiting ▸ h.waiting, hentities ▸ h.entities⟩

/-- an entity comes to a place of the registry -/
theorem setSlot (h : Kept c known s p) (id : EntityId) {slot : Slot ε} (hs : c.entity slot.entity ⊆ known) :
    Kept c known { s with entities := s.entities.setIfInBounds id slot } p := by
  refine { h with entities := ?_ }
  intro slot' hslot
  rcases Array.mem_or_eq_of_mem_setIfInBounds hslot with hslot | rfl
  · exact h.entities slot' hslot
  · exact hs

theorem exchange (h : Kept c known s p) {x : Exchange W α} (hx : x.Within c.Quiet) :
    Kept c known (s.exchange x).2 p :=
  { h with world := (hx s.world).trans h.world }

end Kept

/-- **What a discreet action leaves alone**: every event under a handle that was not known, and that handle -/
theorem Action.perform_discreet {ends : Set Handle → α → Prop} {x : Action ε μ W α} (hx : x.Discreet c ends known)
    (hk : Kept c known s p) (self : EntityId) :
    ∃ known' q, Kept c known' (x.perform self s).2 q ∧ Respects known p known' q ∧ ends known' (x.perform self s).1 := by
  induction x generalizing s p known with
  | done a => exact ⟨known, p, hk, .refl known p, hx⟩
  | observe next ih => exact ih _ (hx _ hk.world) hk
  | schedule target delay message next ih =>
    obtain ⟨q, hq, hs⟩ := hk.schedule delay self target message
    obtain ⟨known', r, hr, hs', he⟩ := ih _ (hx _) hq
    exact ⟨known', r, hr, hs.trans hs', he⟩
  | cancel h next ih =>
    obtain ⟨q, hq, hs⟩ := hk.cancel hx.1
    obtain ⟨known', r, hr, hs', he⟩ := ih _ (hx.2 _) hq
    exact ⟨known', r, hr, hs.trans hs', he⟩
  | spawn e next ih => exact ih _ (hx.2 _) (hk.reserve hx.1)
  | stop next ih => exact ih hx { hk with }
  | write world next ih => exact ih hx.2 { hk with world := hx.1 }
  | remark r next ih => exact ih hx { hk with }

theorem Simulation.journal_schedule (delay : Float) (source target : EntityId) (message : μ) (s : Simulation ε μ W) :
    (s.schedule delay source target message).2.journal = s.journal := by
  unfold Simulation.schedule
  split <;> rfl

/-- entries have been added to a journal, but no delivery of such an event -/
def Undelivered (such : Event μ → Prop) (before after : List (Entry ε μ)) : Prop :=
  ∃ added, after = added ++ before ∧ ∀ e, .dispatched e ∈ added → ¬ such e

namespace Undelivered

variable {such : Event μ → Prop} {j k l : List (Entry ε μ)}

theorem refl (such : Event μ → Prop) (j : List (Entry ε μ)) : Undelivered such j j :=
  ⟨[], rfl, fun _ h => absurd h List.not_mem_nil⟩

theorem trans (h : Undelivered such j k) (h' : Undelivered such k l) : Undelivered such j l := by
  obtain ⟨added, rfl, hadded⟩ := h
  obtain ⟨added', rfl, hadded'⟩ := h'
  refine ⟨added' ++ added, (List.append_assoc ..).symm, ?_⟩
  intro e he
  exact (List.mem_append.1 he).elim (hadded' e) (hadded e)

theorem cons {entry : Entry ε μ} (h : ∀ e, entry = .dispatched e → ¬ such e) : Undelivered such j (entry :: j) :=
  ⟨[entry], rfl, fun e he => h e (List.mem_singleton.1 he).symm⟩

end Undelivered

/-- an action delivers nothing -/
theorem Action.perform_journal (such : Event μ → Prop) (x : Action ε μ W α) (self : EntityId) (s : Simulation ε μ W) :
    Undelivered such s.journal (x.perform self s).2.journal := by
  induction x generalizing s with
  | done a => exact .refl such _
  | observe next ih => exact ih _ s
  | schedule target delay message next ih =>
    exact Simulation.journal_schedule delay self target message s ▸ ih _ (s.schedule delay self target message).2
  | cancel handle next ih => exact ih _ (s.cancel handle).2
  | spawn e next ih => exact (Undelivered.cons nofun).trans (ih _ (s.reserve e).2)
  | stop next ih => exact ih s.requestStop
  | write world next ih => exact ih { s with world }
  | remark r next ih => exact (Undelivered.cons nofun).trans (ih (s.note (.remark r)))

/-- an action leaves the registry alone, does not end the run, and delivers nothing -/
theorem Action.perform_frame (self : EntityId) (x : Action ε μ W α) (s : Simulation ε μ W) :
    (x.perform self s).2.entities = s.entities ∧ (x.perform self s).2.terminated = s.terminated ∧
      ∀ such, Undelivered such s.journal (x.perform self s).2.journal := by
  obtain ⟨spawned, h⟩ := x.perform_effect self s
  exact ⟨h.entities, h.terminated, fun such => x.perform_journal such self s⟩

/-- the journal after an outcome of an entity that the run survives -/
def Simulation.afterOutcome (time : Time) (id : EntityId) (r : Except SimError Unit) (journal : List (Entry ε μ)) :
    List (Entry ε μ) :=
  match r with
  | .ok () => journal
  | .error err => .recovered time id err :: journal

theorem Simulation.undelivered_afterOutcome (such : Event μ → Prop) (time : Time) (id : EntityId)
    (r : Except SimError Unit) (journal : List (Entry ε μ)) :
    Undelivered such journal (Simulation.afterOutcome time id r journal) := by
  cases r with
  | ok => exact .refl such journal
  | error err => exact .cons nofun

theorem Simulation.absorbOutcome_ok {id : EntityId} {r : Except SimError Unit} {t : Simulation ε μ W}
    (h : s.absorbOutcome id r = (.ok (), t)) :
    t.core = s.core ∧ t.journal = Simulation.afterOutcome s.now id r s.journal := by
  cases r with
  | ok =>
    cases h
    exact ⟨rfl, rfl⟩
  | error err =>
    unfold Simulation.absorbOutcome Simulation.absorb at h
    dsimp only at h
    split_ifs at h
    · cases h
      exact ⟨rfl, rfl⟩
    · cases h

theorem Simulation.exchange_journal (x : Exchange W α) (s : Simulation ε μ W) :
    (s.exchange x).2.journal = (x s.world).2.2.reverse.map Entry.remark ++ s.journal := by
  have h : ∀ (remarks : List Remark) (j : List (Entry ε μ)),
      remarks.foldl (fun j r => .remark r :: j) j = remarks.reverse.map Entry.remark ++ j := by
    intro remarks
    induction remarks with
    | nil => exact fun _ => rfl
    | cons r rest ih =>
      intro j
      rw [List.foldl_cons, ih, List.reverse_cons, List.map_append, List.append_assoc]
      rfl
  exact h _ _

/-! ## Discreet callers -/

namespace Simulation

variable [Entity ε μ W]

/-- what a caller may know who was given some handles: others lie in the world, or are kept by entities -/
def inReach (c : Custody ε W) (given : Set Handle) (s : Simulation ε μ W) : Set Handle :=
  {h | h ∈ given ∨ h ∈ c.world s.world ∨ ∃ slot ∈ s.entities, h ∈ c.entity slot.entity}

/-- a call by somebody who knows these handles -/
def Call.Discreet (c : Custody ε W) (known : Set Handle) : Call ε μ → Prop
  | .register e => c.entity e ⊆ known
  | .cancel h => h ∈ known
  | _ => True

/-- the handles that an answer gives -/
def Answer.handles : Answer → Set Handle
  | .scheduled r => {h | r = .ok h}
  | _ => ∅

/-- a simulation after any discreet calls, of a caller who was given these handles by now. Its runs may be watched event
    by event, and the world may change on its own, as long as no handles come into it from nowhere. -/
inductive Course (c : Custody ε W) : Set Handle → Simulation ε μ W → Prop
  | fresh (limits : Limits) {world : W} (h : c.world world = ∅) : Course c ∅ (fresh limits world)
  | call {given : Set Handle} {fuel : Nat} {s t : Simulation ε μ W} {x : Call ε μ} {a : Answer}
      (before : Course c given s) (hx : x.Discreet c (s.inReach c given)) (h : s.call fuel x = some (a, t)) :
      Course c (given ∪ a.handles) t
  | deliver {given : Set Handle} {fuel : Nat} {s t : Simulation ε μ W} {e : Event μ} {agenda : Agenda μ}
      (before : Course c given s) (live : s.terminated = false) (next : s.agenda.next? = some (e, agenda))
      (h : ({ s with agenda } : Simulation ε μ W).dispatch fuel e = some (.ok (), t)) : Course c given t
  | turn {given : Set Handle} {s : Simulation ε μ W} (before : Course c given s) {world : W}
      (h : c.world world ⊆ s.inReach c given) : Course c given { s with world }

/-- a course goes on with a call that is answered -/
theorem Course.after {c : Custody ε W} {given : Set Handle} {s : Simulation ε μ W} (before : Course c given s)
    {fuel : Nat} {x : Call ε μ} (hx : x.Discreet c (s.inReach c given)) (h : (s.call fuel x).isSome = true) :
    ∃ given', Course c given' (s.after fuel x) := by
  obtain ⟨a, ha⟩ := call_after fuel s x h
  exact ⟨_, before.call hx ha⟩

end Simulation

end BrokerSim
