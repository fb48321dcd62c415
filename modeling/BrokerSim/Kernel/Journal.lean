/-
The journal of a run: what happened, entry by entry. Some entries are worth a line in the log, others are kept so that
the order of starts, reactions and shutdowns can be told.
-/
import BrokerSim.Kernel.Entity

namespace BrokerSim

/-- something that happened in a run of entities `ε` with messages `μ` -/
inductive Entry (ε μ : Type) where
  /-- an id was given to an entity -/
  | reserved (id : EntityId) (entity : ε)
  | registered (id : EntityId) (name : String)
  | started (id : EntityId)
  /-- a start came to its end, with an error or without -/
  | answered (id : EntityId) (error? : Option SimError)
  /-- a start was asked for under an id that is not in the registry -/
  | misplaced (id : EntityId)
  /-- an event was delivered -/
  | dispatched (event : Event μ)
  /-- an event found no running target -/
  | dropped (event : Event μ)
  /-- an error that the run survives -/
  | recovered (time : Time) (id : EntityId) (error : SimError)
  /-- an error that ends the run -/
  | halted (time : Time) (id : EntityId) (error : SimError)
  | stopping (time : Time)
  | limitReached (limit : Nat) (time : Time)
  | closed (time : Time) (id : EntityId)
  | finished (time : Time) (dispatched entities : Nat)
  /-- a line of an entity or of the world -/
  | remark (remark : Remark)
  deriving Repr, DecidableEq

/-- the log line of an entry, if it has one -/
def Entry.remark? {ε μ : Type} [Message μ] : Entry ε μ → Option Remark
  | reserved _ _ => none
  | registered id name => some ⟨.debug, s!"Registered {name} as {id.text}"⟩
  | started _ => none
  | answered _ _ => none
  | misplaced _ => none
  | dispatched e => some ⟨.trace,
      s!"t={Decimal.places 2 e.time} {e.source.text} -> {e.target.text} {Message.tag e.message}"⟩
  | dropped _ => none
  | recovered time id error => some ⟨.warn, s!"t={Decimal.places 2 time} {id.text}: {error.text}"⟩
  | halted time id error => some ⟨.error, s!"t={Decimal.places 2 time} {id.text}: {error.text} (halting)"⟩
  | stopping time => some ⟨.info, s!"Stop requested at t={Decimal.places 2 time}"⟩
  | limitReached limit time => some ⟨.warn, s!"Event limit of {limit} reached at t={Decimal.places 2 time}"⟩
  | closed _ _ => none
  | finished time delivered entities => some ⟨.info,
      s!"Simulation finished at t={Decimal.places 2 time}: {delivered} events dispatched, {entities} entities"⟩
  | remark r => some r

end BrokerSim
