import Rendezvous.Engine.Task

/-!
# Services around an engine

An engine calls a catalog, a negotiation service and a transfer service.  Each call is answered at
once; what follows from it later comes as callbacks.
-/

namespace Rendezvous

/-- Callbacks that a service sends some time after a call, in order, until one is not taken. -/
structure Aftermath where
  delay : Nat
  callbacks : List Callback

/-- Something that answers the calls of an engine. -/
class Services (σ : Type) where
  /-- The answer to a call, what follows from it later, and the state after it. -/
  respond : σ → Call → Reply × List Aftermath × σ

end Rendezvous
