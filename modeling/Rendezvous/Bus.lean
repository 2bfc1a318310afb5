import Rendezvous.Assoc
import Rendezvous.Error

/-!
# The message bus

The bus is one first-in first-out queue.  Each channel is bound to one handler; a bus is complete
when every channel is bound.  A handler that fails sends its message's key to the dead letters,
unless it was handling a dead letter already, so that failures cannot breed failures.

`Dispatcher` runs a complete bus whose handlers each finish in one step.
-/

namespace Rendezvous

/-- Messages published and not yet handed to a handler. -/
structure Bus where
  queue : List Message := []
  /-- Whether the bus still takes messages. -/
  isOpen : Bool := true

namespace Bus

/-- Puts a message at the end of the queue; a closed bus drops it. -/
def publish (b : Bus) (m : Message) : Bus :=
  if b.isOpen then { b with queue := b.queue ++ [m] } else b

/-- What stops a message from being published. -/
def refusal? (b : Bus) : Option EngineError := if b.isOpen then none else some .busClosed

/-- Closes the bus; what is still queued is lost. -/
def close (_ : Bus) : Bus := { queue := [], isOpen := false }

/-- The dead letter for a handler of `m` that failed with `e`. -/
def faultOf (m : Message) (e : EngineError) : Option Message :=
  if m.channel = .dlq then none else some (.fault m.key e.message)

end Bus

/-- A handler: from its state and a message to its next state, the messages it publishes and the
error it ends with, if any. -/
abbrev Handler (σ : Type) := σ → Message → σ × List Message × Option EngineError

/-- The handlers bound so far. -/
abbrev Bindings (η : Type) := Assoc Channel η

namespace Bindings

variable {η : Type}

/-- Binds a handler to a channel that has none. -/
def bind (b : Bindings η) (c : Channel) (h : η) : Except EngineError (Bindings η) :=
  if Assoc.contains b c then .error (.duplicateHandler c) else .ok (Assoc.insert b c h)

/-- The first channel without a handler. -/
def missing? (b : Bindings η) : Option Channel :=
  Channel.all.find? fun c => !Assoc.contains b c

/-- Accepts bindings in which every channel has a handler. -/
def complete (b : Bindings η) : Except EngineError (Bindings η) :=
  match missing? b with
  | some c => .error (.missingHandler c)
  | none => .ok b

end Bindings

/-- A bus with its handlers at work on a state. -/
structure Dispatcher (σ : Type) where
  bindings : Bindings (Handler σ)
  bus : Bus := {}
  state : σ

namespace Dispatcher

variable {σ : Type}

/-- Hands the first message to its handler and queues what comes of it. -/
def step (d : Dispatcher σ) : Dispatcher σ :=
  match d.bus.queue with
  | [] => d
  | m :: rest =>
      let bus := { d.bus with queue := rest }
      match Assoc.get? d.bindings m.channel with
      | none => { d with bus }
      | some h =>
          let (state, published, error?) := h d.state m
          let fault? := error?.bind (Bus.faultOf m)
          { d with state, bus := (published ++ fault?.toList).foldl Bus.publish bus }

/-- At most `n` steps. -/
def steps : Nat → Dispatcher σ → Dispatcher σ
  | 0, d => d
  | n + 1, d => if d.bus.queue.isEmpty then d else steps n d.step

/-- Works the queue off when handlers publish nothing: each message is handled once, and each
failure adds at most one dead letter. -/
def drain (d : Dispatcher σ) : Dispatcher σ := steps (2 * d.bus.queue.length) d

end Dispatcher

end Rendezvous
