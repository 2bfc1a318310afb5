import Rendezvous.Provider.Loopback

/-!
# A provider on its own

A rehearsal is a simulated provider without an engine.  Whoever registers with it hears what it has
to say and may refuse some of it; after a refusal the rest of the same answer is not sent.
-/

namespace Rendezvous

/-- Somebody who hears callbacks. -/
structure Listener where
  name : String
  refuses : Callback → Bool

/-- A callback that has been sent. -/
structure Heard where
  time : Nat
  listener : String
  callback : Callback

/-- A provider, who listens to it, and what it is still going to say. -/
structure Rehearsal where
  provider : Loopback
  now : Nat := 0
  /-- Who hears about negotiations. -/
  negotiations? : Option Listener := none
  /-- Who hears about transfers. -/
  transfers? : Option Listener := none
  /-- What is still to come and when, in the order in which it was promised. -/
  coming : List (Nat × List Callback) := []

namespace Rehearsal

/-- Registers a listener to negotiations; only the first one counts. -/
def listen (r : Rehearsal) (l : Listener) : Rehearsal :=
  { r with
    negotiations? := r.negotiations? <|> some l
    provider := { r.provider with hasListener := true } }

/-- Registers a receiver of references; only the first one counts. -/
def receive (r : Rehearsal) (l : Listener) : Rehearsal :=
  { r with
    transfers? := r.transfers? <|> some l
    provider := { r.provider with hasReceiver := true } }

/-- Goes on with a provider that has promised callbacks. -/
def follow (r : Rehearsal) (p : Loopback) (aftermath : List Aftermath) : Rehearsal :=
  { r with
    provider := p
    coming := r.coming ++ aftermath.map fun a => (r.now + a.delay, a.callbacks) }

/-- Begins a negotiation. -/
def negotiate (r : Rehearsal) (offer : ContractOffer) : NegotiationId × Rehearsal :=
  let (n, aftermath, p) := r.provider.negotiate offer
  (n, r.follow p aftermath)

/-- Begins a transfer. -/
def transfer (r : Rehearsal) (request : TransferRequest) :
    Except EngineError TransferProcessId × Rehearsal :=
  let (answer, aftermath, p) := r.provider.transfer request
  (answer, r.follow p aftermath)

/-- Who hears a callback. -/
def audience? (r : Rehearsal) : Callback → Option Listener
  | .accepted _ | .confirmed .. | .negotiationFailed .. => r.negotiations?
  | .transferStarted _ | .dataReference .. | .transferFailed .. => r.transfers?

/-- Sends callbacks until one is refused. -/
def send (r : Rehearsal) (time : Nat) : List Callback → List Heard
  | [] => []
  | c :: rest =>
      match r.audience? c with
      | none => []
      | some l => ⟨time, l.name, c⟩ :: if l.refuses c then [] else r.send time rest

/-- Goes to an instant; what is due by then is sent. -/
def goTo (r : Rehearsal) (now : Nat) : List Heard × Rehearsal :=
  let (due, coming) := r.coming.partition fun c => c.1 ≤ now
  (due.flatMap fun (time, callbacks) => r.send time callbacks, { r with now, coming })

end Rehearsal

end Rendezvous
