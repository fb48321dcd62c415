/-
What an entity may do while it starts or reacts. An action is a tree of requests: each asks the simulation for one
thing and goes on with the answer, so an entity can schedule, cancel, spawn and ask for a stop, and cannot touch the
clock, the agenda or the registry in any other way. A reaction is an action that also carries the entity's own state
and may end in an error; the state it had reached is kept.
-/
import BrokerSim.Agenda.Basic
import BrokerSim.Kernel.Exchange

namespace BrokerSim

/-- what an entity sees of the simulation -/
structure View (W : Type) where
  now : Time
  self : EntityId
  /-- the id that the next spawned entity gets -/
  nextId : EntityId
  isPending : Handle → Bool
  world : W

/-- requests to the simulation, by an entity of a registry of `ε` with messages `μ` in a world `W` -/
inductive Action (ε μ W α : Type) : Type where
  | done (a : α)
  | observe (next : View W → Action ε μ W α)
  /-- an event from this entity -/
  | schedule (target : EntityId) (delay : Float) (message : μ) (next : Except SimError Handle → Action ε μ W α)
  | cancel (handle : Handle) (next : Bool → Action ε μ W α)
  /-- reserve an id for a new entity, to be registered once the reaction is over -/
  | spawn (entity : ε) (next : EntityId → Action ε μ W α)
  /-- ask for the run to end after this reaction -/
  | stop (next : Action ε μ W α)
  | write (world : W) (next : Action ε μ W α)
  | remark (remark : Remark) (next : Action ε μ W α)

namespace Action

variable {ε μ W α β : Type}

/-- go on with `f` where the action is done -/
def andThen (f : α → Action ε μ W β) : Action ε μ W α → Action ε μ W β
  | done a => f a
  | observe next => observe fun v => (next v).andThen f
  | schedule target delay message next => schedule target delay message fun r => (next r).andThen f
  | cancel handle next => cancel handle fun b => (next b).andThen f
  | spawn entity next => spawn entity fun id => (next id).andThen f
  | stop next => stop (next.andThen f)
  | write world next => write world (next.andThen f)
  | remark r next => remark r (next.andThen f)

instance : Monad (Action ε μ W) where
  pure := done
  bind x f := x.andThen f

/-- use the world -/
def exchange (x : Exchange W α) : Action ε μ W α :=
  observe fun v =>
    let (a, world, remarks) := x v.world
    write world (remarks.foldr remark (done a))

end Action

/-- an action of an entity with state `σ`, which may end in an error -/
abbrev Reaction (σ ε μ W α : Type) : Type := ExceptT SimError (StateT σ (Action ε μ W)) α

namespace Reaction

variable {σ τ ε μ W α : Type}

/-- an action that leaves the state alone -/
def ofAction (x : Action ε μ W α) : Reaction σ ε μ W α := ExceptT.lift (StateT.lift x)

/-- an outcome as it stands: a value, or the error that ends the reaction -/
def ofExcept (r : Except SimError α) : Reaction σ ε μ W α := ExceptT.mk (pure r)

def view : Reaction σ ε μ W (View W) := ofAction (.observe .done)

/-- schedule an event; the outcome may be looked at -/
def trySchedule (target : EntityId) (delay : Float) (message : μ) : Reaction σ ε μ W (Except SimError Handle) :=
  ofAction (.schedule target delay message .done)

/-- schedule an event; a refusal ends the reaction -/
def schedule (target : EntityId) (delay : Float) (message : μ) : Reaction σ ε μ W Handle := do
  ofExcept (← trySchedule target delay message)

/-- schedule an event for this entity -/
def scheduleSelf (delay : Float) (message : μ) : Reaction σ ε μ W Handle := do
  schedule (← view).self delay message

def cancel (handle : Handle) : Reaction σ ε μ W Bool := ofAction (.cancel handle .done)

def spawn (entity : ε) : Reaction σ ε μ W EntityId := ofAction (.spawn entity .done)

def stop : Reaction σ ε μ W Unit := ofAction (.stop (.done ()))

def exchange (x : Exchange W α) : Reaction σ ε μ W α := ofAction (.exchange x)

/-- use the world; an error that it answers ends the reaction -/
def call (x : Exchange W (Except SimError α)) : Reaction σ ε μ W α := do ofExcept (← exchange x)

def remark (level : Level) (text : String) : Reaction σ ε μ W Unit := ofAction (.remark ⟨level, text⟩ (.done ()))

/-- react with a state that is part of a greater one -/
def within (whole : σ → τ) (state : σ) (r : Reaction σ ε μ W α) : Reaction τ ε μ W α :=
  ExceptT.mk fun _ => do
    let (outcome, state) ← r.run.run state
    return (outcome, whole state)

end Reaction

end BrokerSim
