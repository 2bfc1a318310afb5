import Rendezvous.Host
import Rendezvous.Provider.Loopback
import Rendezvous.Settings.Basic

/-!
# The adapter

The adapter turns an exchange of messages into a question and an answer: a caller submits a request
and later asks for its outcome by key, or waits for it.  `start` refuses settings that are not
valid.
-/

namespace Rendezvous

/-- An engine with the times of `s` and nothing in it. -/
def Engine.ofSettings (s : Settings) : Engine where
  destination := s.transfer.destinationType
  parkedTtl := s.parkedEventTtl
  store := { ttl := s.caseTtl }
  board := .empty s.resultTtl
  offers := { ttl := s.offerCacheTtl }

namespace Adapter

variable {σ : Type}

/-- Starts an engine that sweeps periodically, from now on. -/
def start (s : Settings) (services : σ) : Except Settings.Invalid (Host σ) :=
  match s.objection? with
  | some objection => .error objection
  | none =>
      .ok
        { engine := .ofSettings s
          services
          ready := [.sweep]
          ticker? := some { interval := s.sweepInterval, due := 0 } }

/-- Starts an engine on a provider that listens to it. -/
def startLoopback (s : Settings) (p : Loopback) : Except Settings.Invalid (Host Loopback) :=
  start s { p with hasListener := true, hasReceiver := true }

/-- Publishes a request; tells what stopped it. -/
def submit (h : Host σ) (r : DataRequest) : Option EngineError × Host σ :=
  (h.engine.bus.refusal?, h.apply fun e => e.publish (.ofRequest r))

/-- Takes a callback in; tells what stopped it. -/
def deliver (h : Host σ) (c : Callback) : Option EngineError × Host σ :=
  ((h.engine.deliver c).2, h.apply fun e => (e.deliver c).1)

/-- Submits a request and waits up to `span` for an outcome of its key. -/
def fetch [Services σ] (h : Host σ) (r : DataRequest) (span : Nat) :
    Option (Except EngineError (Option Outcome) × Host σ) :=
  match submit h r with
  | (some error, h) => some (.error error, h)
  | (none, h) => (h.waitFor r.key span).map fun (o, h) => (.ok o, h)

end Adapter

end Rendezvous
