/-
The calls that a simulation takes from outside, and all that is done in them. A call does what it does one deed at a
time: an event is accepted, struck off, delivered or dropped, an entity is spawned or registered, a start or a reaction
ends. `callDeeds` reads the deeds of a call off the code that it runs.
- `answered`: a call that comes back, by its kind. `Reached`: a simulation after any calls.
- `Reaction.deeds`: what an entity does in a start or a reaction, and the outcome that its own code came to.
- `Recorded`: a simulation after any calls, with all that was done in them.
- `popped`: the events that left. `popped_settleDeeds`, `popped_dispatchDeeds` and the like: which ones leave in a part
  of a call. `handedOut`: the ids that were given out.
-/
import Mathlib.Tactic
import BrokerSim.Proofs.Kernel.Reaction

namespace BrokerSim

variable {σ ε μ W α : Type}

/-! ## Calls -/

namespace Simulation

/-- what may be asked of a simulation -/
inductive Call (ε μ : Type) where
  | register (entity : ε)
  | schedule (delay : Float) (source target : EntityId) (message : μ)
  | cancel (handle : Handle)
  | run
  | runUntil (time : Time)
  | step
  | stop

inductive Answer where
  | registered (r : Except SimError EntityId)
  | scheduled (r : Except SimError Handle)
  | cancelled (done : Bool)
  | ran (r : Except SimError RunOutcome)
  | stepped (r : Except SimError Bool)
  | stopped

/-- an error of the run -/
def Answer.isFailure : Answer → Bool
  | registered (.error _) => true
  | ran (.error _) => true
  | stepped (.error _) => true
  | _ => false

variable {s t : Simulation ε μ W} [Entity ε μ W]

/-- a call and the simulation after it; no answer means that the fuel did not last -/
def call (fuel : Nat) (s : Simulation ε μ W) : Call ε μ → Option (Answer × Simulation ε μ W)
  | .register e => (s.register fuel e).map fun (r, t) => (.registered r, t)
  | .schedule delay source target message =>
    let (r, t) := s.schedule delay source target message
    some (.scheduled r, t)
  | .cancel h =>
    let (done, t) := s.cancel h
    some (.cancelled done, t)
  | .run => (s.run fuel).map fun (r, t) => (.ran r, t)
  | .runUntil time => (s.runUntil time fuel).map fun (r, t) => (.ran r, t)
  | .step => (s.step fuel).map fun (r, t) => (.stepped r, t)
  | .stop => some (.stopped, s.stop)

/-- an answered call by its kind: what was answered, and what it left -/
inductive Answered (fuel : Nat) (s : Simulation ε μ W) : Call ε μ → Answer → Simulation ε μ W → Prop
  | register {e : ε} {r : Except SimError EntityId} {t : Simulation ε μ W} (h : s.register fuel e = some (r, t)) :
    Answered fuel s (.register e) (.registered r) t
  | schedule (delay : Float) (source target : EntityId) (message : μ) :
    Answered fuel s (.schedule delay source target message) (.scheduled (s.schedule delay source target message).1)
      (s.schedule delay source target message).2
  | cancel (handle : Handle) : Answered fuel s (.cancel handle) (.cancelled (s.cancel handle).1) (s.cancel handle).2
  | run {r : Except SimError RunOutcome} {t : Simulation ε μ W} (h : s.loop s.limits.until? fuel = some (r, t)) :
    Answered fuel s .run (.ran r) t.finish
  | runUntil {time : Time} {r : Except SimError RunOutcome} {t : Simulation ε μ W}
      (h : s.loop (some time) fuel = some (r, t)) :
    Answered fuel s (.runUntil time) (.ran r) t
  | step {r : Except SimError Bool} {t : Simulation ε μ W} (h : s.step fuel = some (r, t)) :
    Answered fuel s .step (.stepped r) t
  | stop : Answered fuel s .stop .stopped s.finish

/-- every answered call is of one of these kinds -/
theorem answered {fuel : Nat} {c : Call ε μ} {a : Answer} (h : s.call fuel c = some (a, t)) : Answered fuel s c a t := by
  cases c with
  | register e =>
    obtain ⟨⟨r, u⟩, hu, heq⟩ := Option.map_eq_some_iff.1 h
    cases heq
    exact .register hu
  | schedule delay source target message => cases h; exact .schedule delay source target message
  | cancel handle => cases h; exact .cancel handle
  | run =>
    obtain ⟨⟨r, u⟩, hu, heq⟩ := Option.map_eq_some_iff.1 h
    cases heq
    obtain ⟨⟨r, v⟩, hv, heq⟩ := Option.map_eq_some_iff.1 hu
    cases heq
    exact .run hv
  | runUntil time =>
    obtain ⟨⟨r, u⟩, hu, heq⟩ := Option.map_eq_some_iff.1 h
    cases heq
    exact .runUntil hu
  | step =>
    obtain ⟨⟨r, u⟩, hu, heq⟩ := Option.map_eq_some_iff.1 h
    cases heq
    exact .step hu
  | stop => cases h; exact .stop

/-- the simulation after a call that is answered -/
def after (fuel : Nat) (s : Simulation ε μ W) (c : Call ε μ) : Simulation ε μ W := ((s.call fuel c).map Prod.snd).getD s

theorem call_after (fuel : Nat) (s : Simulation ε μ W) (c : Call ε μ) (h : (s.call fuel c).isSome = true) :
    ∃ a, s.call fuel c = some (a, s.after fuel c) := by
  obtain ⟨⟨a, t⟩, ht⟩ := Option.isSome_iff_exists.1 h
  exact ⟨a, by rw [after, ht]; rfl⟩

/-- a simulation after any calls of which each was admitted: from `s`, the call was answered so, and left `t` -/
inductive Reached (admitted : Simulation ε μ W → Call ε μ → Answer → Simulation ε μ W → Prop) :
    Simulation ε μ W → Prop
  | fresh (limits : Limits) (world : W) : Reached admitted (fresh limits world)
  | call {fuel : Nat} {s t : Simulation ε μ W} {c : Call ε μ} {a : Answer} (before : Reached admitted s)
      (h : s.call fuel c = some (a, t)) (ha : admitted s c a t) : Reached admitted t

/-- only registrations are answered with an id, or with the error of a start -/
theorem register_of_call {fuel : Nat} {c : Call ε μ} {r : Except SimError EntityId}
    (h : s.call fuel c = some (.registered r, t)) : ∃ e, c = .register e ∧ s.register fuel e = some (r, t) := by
  cases answered h with
  | @register e _ _ hu => exact ⟨e, rfl, hu⟩

end Simulation

/-! ## Deeds -/

/-- one thing that is done in a run -/
inductive Deed (ε μ : Type) where
  /-- an event was accepted -/
  | scheduled (event : Event μ)
  /-- an event that was still to come was struck off -/
  | cancelled (handle : Handle)
  /-- an event found no running target -/
  | dropped (event : Event μ)
  /-- an entity was asked to react to an event, at a time -/
  | reacted (id : EntityId) (event : Event μ) (now : Time)
  /-- a start or a reaction came to its end -/
  | ended (outcome : Except SimError Unit)
  /-- an entity asked for another one -/
  | spawned (id : EntityId) (entity : ε)
  /-- the caller registered an entity -/
  | admitted (id : EntityId) (entity : ε)
  /-- an entity that waited was registered -/
  | enlisted (id : EntityId) (entity : ε)

namespace Deed

def scheduled? : Deed ε μ → Option (Event μ)
  | scheduled e => some e
  | _ => none

/-- the event that is no longer to come -/
def gone? : Deed ε μ → Option Handle
  | cancelled h => some h
  | dropped e => some e.handle
  | reacted _ e _ => some e.handle
  | _ => none

def spawned? : Deed ε μ → Option (EntityId × ε)
  | spawned id e => some (id, e)
  | _ => none

def enlisted? : Deed ε μ → Option (EntityId × ε)
  | enlisted id e => some (id, e)
  | _ => none

/-- the event that left the agenda, delivered or dropped -/
def popped? : Deed ε μ → Option (Event μ)
  | dropped e => some e
  | reacted _ e _ => some e
  | _ => none

/-- an id was given to an entity that is registered or asked for -/
def handed? : Deed ε μ → Option (EntityId × ε)
  | spawned id e => some (id, e)
  | admitted id e => some (id, e)
  | _ => none

/-- is this the deed of an action? -/
def isAct : Deed ε μ → Bool
  | scheduled _ => true
  | cancelled _ => true
  | spawned _ _ => true
  | _ => false

def isCancellation : Deed ε μ → Bool
  | cancelled _ => true
  | _ => false

def isDrop : Deed ε μ → Bool
  | dropped _ => true
  | _ => false

def isReaction : Deed ε μ → Bool
  | reacted _ _ _ => true
  | _ => false

/-- was an entity put into the registry? -/
def isRegistration : Deed ε μ → Bool
  | admitted _ _ => true
  | enlisted _ _ => true
  | _ => false

/-- did a start or a reaction end with an error of this kind? -/
def fails (k : ErrorKind) : Deed ε μ → Bool
  | ended (.error err) => err.kind = k
  | _ => false

/-- is this an error of a kind that the run survives? -/
def tallied (k : ErrorKind) : Deed ε μ → Bool
  | ended (.error err) => err.kind = k && k.isRecoverable
  | dropped _ => ErrorKind.unknownTarget = k
  | _ => false

end Deed

/-- the events that left the agenda, first one first -/
def popped (deeds : List (Deed ε μ)) : List (Event μ) := deeds.filterMap Deed.popped?

theorem popped_append (first rest : List (Deed ε μ)) : popped (first ++ rest) = popped first ++ popped rest :=
  List.filterMap_append ..

/-- the ids that were given out, first one first -/
def handedOut (deeds : List (Deed ε μ)) : List (EntityId × ε) := deeds.filterMap Deed.handed?

theorem handedOut_append (first rest : List (Deed ε μ)) : handedOut (first ++ rest) = handedOut first ++ handedOut rest :=
  List.filterMap_append ..

namespace Simulation

/-! ## The deeds of a call -/

/-- the deeds of scheduling: none if the delay is refused -/
def scheduling (delay : Float) (source target : EntityId) (message : μ) (s : Simulation ε μ W) : List (Deed ε μ) :=
  match (s.schedule delay source target message).1 with
  | .ok handle => [.scheduled { time := s.now + delay, source, target, handle, message }]
  | .error _ => []

/-- the deeds of cancelling: none if the event is not to come -/
def cancelling (h : Handle) (s : Simulation ε μ W) : List (Deed ε μ) := if (s.cancel h).1 then [.cancelled h] else []

end Simulation

/-- the deeds of an action of entity `self` -/
def Action.deeds (self : EntityId) : Action ε μ W α → Simulation ε μ W → List (Deed ε μ)
  | done _, _ => []
  | observe next, s => (next (s.view self)).deeds self s
  | schedule target delay message next, s =>
    let (r, t) := s.schedule delay self target message
    s.scheduling delay self target message ++ (next r).deeds self t
  | cancel h next, s =>
    let (b, t) := s.cancel h
    s.cancelling h ++ (next b).deeds self t
  | spawn e next, s =>
    let (id, t) := s.reserve e
    .spawned id e :: (next id).deeds self t
  | stop next, s => next.deeds self s.requestStop
  | write world next, s => next.deeds self { s with world }
  | remark r next, s => next.deeds self (s.note (.remark r))

/-- the deeds of a reaction of entity `self` with state `x`: those of its action, and its end, with the outcome that it
    came to -/
def Reaction.deeds (r : Reaction σ ε μ W Unit) (self : EntityId) (x : σ) (s : Simulation ε μ W) : List (Deed ε μ) :=
  (r.run.run x).deeds self s ++ [.ended (r.play self x s).1.1]

namespace Simulation

variable [Entity ε μ W]

def startDeeds (id : EntityId) (s : Simulation ε μ W) : List (Deed ε μ) :=
  match s.entities[id]? with
  | none => []
  | some slot => (Entity.start : Reaction ε ε μ W Unit).deeds id slot.entity (s.note (.started id))

/-- the deeds of enrolling an entity, once it is in the registry -/
def enrolDeeds (id : EntityId) (e : ε) (s : Simulation ε μ W) : List (Deed ε μ) := (s.insert id e).startDeeds id

def settleDeeds (fuel : Nat) (s : Simulation ε μ W) : List (Deed ε μ) :=
  match s.waiting with
  | [] => []
  | (id, e) :: rest =>
    match fuel with
    | 0 => []
    | fuel + 1 =>
      .enlisted id e :: ({ s with waiting := rest, spawned := s.spawned + 1 }).enrolDeeds id e ++
        match ({ s with waiting := rest, spawned := s.spawned + 1 }).enrol id e with
        | (.ok (), t) => t.settleDeeds fuel
        | (.error _, _) => []

def registerDeeds (fuel : Nat) (e : ε) (s : Simulation ε μ W) : List (Deed ε μ) :=
  if s.terminated then []
  else
    .admitted s.nextId e :: (s.nameNext e).2.enrolDeeds s.nextId e ++
      match (s.nameNext e).2.enrol s.nextId e with
      | (.ok (), t) => t.settleDeeds fuel
      | (.error _, _) => []

def reactDeeds (e : Event μ) (slot : Slot ε) (s : Simulation ε μ W) : List (Deed ε μ) :=
  .reacted e.target e s.now :: (Entity.react e : Reaction ε ε μ W Unit).deeds e.target slot.entity (s.delivering e)

/-- the deeds of delivering an event that has left the agenda -/
def dispatchDeeds (fuel : Nat) (e : Event μ) (s : Simulation ε μ W) : List (Deed ε μ) :=
  match (s.entities[e.target]?).filter fun slot => slot.state = .running with
  | none => [.dropped e]
  | some slot =>
    s.reactDeeds e slot ++
      match (s.react e slot).2.absorbOutcome e.target (s.react e slot).1 with
      | (.ok (), u) => u.settleDeeds fuel
      | (.error _, _) => []

section

variable {fuel : Nat} {e : Event μ} {slot : Slot ε} {s u : Simulation ε μ W}

theorem dispatchDeeds_dropped (h : ((s.entities[e.target]?).filter fun slot => slot.state = .running) = none) :
    s.dispatchDeeds fuel e = [.dropped e] := by
  unfold dispatchDeeds
  rw [h]

variable (h : ((s.entities[e.target]?).filter fun slot => slot.state = .running) = some slot)
include h

theorem dispatchDeeds_ok (hu : (s.react e slot).2.absorbOutcome e.target (s.react e slot).1 = (.ok (), u)) :
    s.dispatchDeeds fuel e = s.reactDeeds e slot ++ u.settleDeeds fuel := by
  unfold dispatchDeeds
  rw [h]
  dsimp only
  rw [hu]

end

def loopDeeds (horizon : Option Time) (fuel : Nat) (s : Simulation ε μ W) : List (Deed ε μ) :=
  match s.rest? horizon with
  | some _ => []
  | none =>
    match s.agenda.next? with
    | none => []
    | some (e, agenda) =>
      match fuel with
      | 0 => []
      | fuel + 1 =>
        ({ s with agenda }).dispatchDeeds fuel e ++
          match ({ s with agenda }).dispatch fuel e with
          | some (.ok (), t) => t.loopDeeds horizon fuel
          | _ => []

def stepDeeds (fuel : Nat) (s : Simulation ε μ W) : List (Deed ε μ) :=
  if s.terminated then []
  else match s.agenda.next? with
  | none => []
  | some (e, agenda) => ({ s with agenda } : Simulation ε μ W).dispatchDeeds fuel e

/-- what is done in a call, first deed first -/
def callDeeds (fuel : Nat) (s : Simulation ε μ W) : Call ε μ → List (Deed ε μ)
  | .register e => s.registerDeeds fuel e
  | .schedule delay source target message => s.scheduling delay source target message
  | .cancel h => s.cancelling h
  | .run => s.loopDeeds s.limits.until? fuel
  | .runUntil time => s.loopDeeds (some time) fuel
  | .step => s.stepDeeds fuel
  | .stop => []

/-- a simulation after any calls, with all that was done in them -/
inductive Recorded : List (Deed ε μ) → Simulation ε μ W → Prop
  | fresh (limits : Limits) (world : W) : Recorded [] (fresh limits world)
  | call {fuel : Nat} {s t : Simulation ε μ W} {deeds : List (Deed ε μ)} {c : Call ε μ} {a : Answer}
      (before : Recorded deeds s) (h : s.call fuel c = some (a, t)) : Recorded (deeds ++ s.callDeeds fuel c) t

end Simulation

/-! ## Events that leave -/

/-- no event leaves by the deeds of actions -/
theorem popped_of_isAct {deeds : List (Deed ε μ)} (h : ∀ d ∈ deeds, d.isAct = true) : popped deeds = [] := by
  refine List.filterMap_eq_nil_iff.2 fun d hd => ?_
  have hact := h d hd
  cases d <;> first | rfl | cases hact

namespace Simulation

variable (s : Simulation ε μ W)

theorem isAct_scheduling (delay : Float) (source target : EntityId) (message : μ) :
    ∀ d ∈ s.scheduling delay source target message, d.isAct = true := by
  unfold scheduling
  split <;> simp [Deed.isAct]

theorem isAct_cancelling (handle : Handle) : ∀ d ∈ s.cancelling handle, d.isAct = true := by
  unfold cancelling
  split_ifs <;> simp [Deed.isAct]

end Simulation

/-- an action schedules, cancels and spawns, and does nothing else -/
theorem Action.isAct_of_mem (self : EntityId) (x : Action ε μ W α) (s : Simulation ε μ W) :
    ∀ d ∈ x.deeds self s, d.isAct = true := by
  induction x generalizing s with
  | done a => exact fun _ h => nomatch h
  | observe next ih => exact ih _ s
  | schedule target delay message next ih =>
    intro d hd
    exact (List.mem_append.1 hd).elim (s.isAct_scheduling delay self target message d) (ih _ _ d)
  | cancel handle next ih =>
    intro d hd
    exact (List.mem_append.1 hd).elim (s.isAct_cancelling handle d) (ih _ _ d)
  | spawn e next ih =>
    intro d hd
    rcases List.mem_cons.1 hd with rfl | hd
    · rfl
    · exact ih _ _ d hd
  | stop next ih => exact ih s.requestStop
  | write world next ih => exact ih { s with world }
  | remark r next ih => exact ih (s.note (.remark r))

theorem Reaction.popped_deeds (r : Reaction σ ε μ W Unit) (self : EntityId) (x : σ) (s : Simulation ε μ W) :
    popped (r.deeds self x s) = [] := by
  rw [Reaction.deeds, popped_append, popped_of_isAct ((r.run.run x).isAct_of_mem self s)]
  rfl

namespace Simulation

variable [Entity ε μ W]

theorem popped_startDeeds (id : EntityId) (s : Simulation ε μ W) : popped (s.startDeeds id) = [] := by
  unfold startDeeds
  split
  · rfl
  · exact Reaction.popped_deeds ..

theorem popped_enrolDeeds (id : EntityId) (e : ε) (s : Simulation ε μ W) : popped (s.enrolDeeds id e) = [] :=
  popped_startDeeds id (s.insert id e)

theorem popped_reactDeeds (e : Event μ) (slot : Slot ε) (s : Simulation ε μ W) : popped (s.reactDeeds e slot) = [e] :=
  congrArg (e :: ·) (Reaction.popped_deeds ..)

/-- no event leaves while entities are enrolled -/
theorem popped_settleDeeds (fuel : Nat) (s : Simulation ε μ W) : popped (s.settleDeeds fuel) = [] := by
  have enlisted : ∀ (id : EntityId) (e : ε) (s : Simulation ε μ W),
      popped (.enlisted id e :: s.enrolDeeds id e) = [] := popped_enrolDeeds
  fun_induction settleDeeds fuel s with
  | case1 fuel s hw => rfl
  | case2 s id e rest hw => rfl
  | case3 s id e rest hw fuel ih =>
    rw [popped_append, enlisted]
    split
    · exact ih _
    · rfl

theorem popped_registerDeeds (fuel : Nat) (e : ε) (s : Simulation ε μ W) : popped (s.registerDeeds fuel e) = [] := by
  unfold registerDeeds
  split_ifs
  · rfl
  · have admitted : popped (.admitted s.nextId e :: (s.nameNext e).2.enrolDeeds s.nextId e) = [] :=
      popped_enrolDeeds s.nextId e _
    rw [popped_append, admitted]
    split
    · exact popped_settleDeeds fuel _
    · rfl

/-- a delivery takes one event, and no other leaves before it is over -/
theorem popped_dispatchDeeds (fuel : Nat) (e : Event μ) (s : Simulation ε μ W) :
    popped (s.dispatchDeeds fuel e) = [e] := by
  unfold dispatchDeeds
  split
  · rfl
  · rw [popped_append, popped_reactDeeds]
    split
    · rw [popped_settleDeeds]
      rfl
    · rfl

end Simulation

end BrokerSim
