/-
Scripted entities: stand-ins that do what their script says and record on a stage everything they do. They exercise
a simulation in every way an entity can.
-/
import BrokerSim.Kernel.Run

namespace BrokerSim.Standin

/-- one act of a script; an act that fails ends the script unless it is forgiving -/
inductive Act where
  /-- an event for `target`, or for the player itself if there is none, that carries a cue -/
  | schedule (target : Option EntityId) (delay : Float) (tag : String) (acts : List Act) (forgiving : Bool)
  | scheduleSelf (delay : Float) (tag : String) (acts : List Act) (forgiving : Bool)
  | cancel (handle : Handle)
  | pending (handle : Handle)
  /-- a new player with a name and an opening -/
  | spawn (name : String) (opening : List Act)
  | nextId
  | now
  | stop
  | fail (error : SimError)

/-- a message that tells its target what to do -/
structure Cue where
  tag : String
  acts : List Act

instance : Message Cue := ⟨Cue.tag⟩

/-- a scripted entity -/
structure Player where
  name : String
  /-- what it does when it starts -/
  opening : List Act
  /-- how often it was poked from outside -/
  pokes : Nat := 0

/-- what came of an act -/
inductive ActOutcome where
  | handle (r : Except SimError Handle)
  /-- a yes or no about a handle; nothing if that handle was never given -/
  | answer (b : Option Bool)
  | id (n : EntityId)
  | time (t : Time)
  | silent
  | error (e : SimError)

/-- what is seen on the stage -/
inductive Scene where
  | started (name : String) (self : EntityId) (now : Time)
  | reacted (name : String) (event : Event Cue)
  | closed (name : String) (now : Time)
  | acted (act : String) (outcome : ActOutcome)

/-- the world of players: what they did, last first, and the handles given so far -/
structure Stage where
  scenes : List Scene := []
  issued : Nat := 0

namespace Stage

def enter (scene : Scene) : Exchange Stage Unit :=
  Exchange.update fun st => ((), { st with scenes := scene :: st.scenes })

/-- take notice of an event that was scheduled, or refused -/
def witness (r : Except SimError Handle) : Exchange Stage Unit := Exchange.update fun st =>
  match r with
  | .ok _ => ((), { st with issued := st.issued + 1 })
  | .error _ => ((), st)

/-- was this handle ever given? -/
def knows (h : Handle) : Exchange Stage Bool := Exchange.read fun st => h < st.issued

/-- what was seen since the stage was last cleared, first scene first -/
def clear : Exchange Stage (List Scene) := Exchange.update fun st => (st.scenes.reverse, { st with scenes := [] })

end Stage

/-- the work of a player -/
abbrev Part (α : Type) : Type := Reaction Player Player Cue Stage α

def record (act : String) (outcome : ActOutcome) : Part Unit := Reaction.exchange (Stage.enter (.acted act outcome))

/-- schedule a cue and record it under the act's name -/
def Act.announce (act : String) (target : EntityId) (delay : Float) (cue : Cue) (forgiving : Bool) : Part Unit := do
  let r ← Reaction.trySchedule target delay cue
  Reaction.exchange (Stage.witness r)
  record act (.handle r)
  match r with
  | .ok _ => pure ()
  | .error e => if forgiving then pure () else throw e

/-- a yes or no about a handle, recorded under the act's name -/
def Act.inquire (act : String) (handle : Handle) (ask : Part Bool) : Part Unit := do
  let b ← ask
  let known ← Reaction.exchange (Stage.knows handle)
  record act (.answer (if known then some b else none))

/-- do one act -/
def Act.play : Act → Part Unit
  | .schedule target delay tag acts forgiving => do
    let self := (← Reaction.view).self
    announce "schedule" (target.getD self) delay ⟨tag, acts⟩ forgiving
  | .scheduleSelf delay tag acts forgiving => do
    announce "self" (← Reaction.view).self delay ⟨tag, acts⟩ forgiving
  | .cancel handle => inquire "cancel" handle (Reaction.cancel handle)
  | .pending handle => inquire "pending" handle (do return (← Reaction.view).isPending handle)
  | .spawn name opening => do record "spawn" (.id (← Reaction.spawn { name, opening }))
  | .nextId => do record "next_id" (.id (← Reaction.view).nextId)
  | .now => do record "now" (.time (← Reaction.view).now)
  | .stop => do
    Reaction.stop
    record "stop" .silent
  | .fail error => do
    record "fail" (.error error)
    throw error

instance : Entity Player Cue Stage where
  name := Player.name
  start := do
    let player ← get
    let v ← Reaction.view
    Reaction.exchange (Stage.enter (.started player.name v.self v.now))
    player.opening.forM Act.play
  react event := do
    Reaction.exchange (Stage.enter (.reacted (← get).name event))
    event.message.acts.forM Act.play
  shutdown now player := do
    Stage.enter (.closed player.name now)
    return player

/-- poke a player: how often it has been poked, and the simulation after it -/
def poke (id : EntityId) (s : Simulation Player Cue Stage) : Option (Nat × Simulation Player Cue Stage) := do
  let slot ← s.slot? id
  let pokes := slot.entity.pokes + 1
  return (pokes, { s with entities := s.entities.setIfInBounds id { slot with entity := { slot.entity with pokes } } })

end BrokerSim.Standin
