import Rendezvous.Case

/-!
# Messages

A message carries one event about one key to the handler of its channel.  Whether it reports
progress or trouble follows from its payload.
-/

namespace Rendezvous

/-- The kinds of handlers; each is bound to exactly one channel. -/
inductive Channel
  | initial
  | contractNegotiation
  | contractConfirmation
  | dataReference
  | result
  /-- Dead letters: cases that failed and handlers that went wrong. -/
  | dlq
deriving DecidableEq, Repr

namespace Channel

/-- Every channel, in the order in which a case meets them. -/
def all : List Channel :=
  [.initial, .contractNegotiation, .contractConfirmation, .dataReference, .result, .dlq]

/-- The channel's name in texts. -/
def name : Channel → String
  | .initial => "initial"
  | .contractNegotiation => "contract-negotiation"
  | .contractConfirmation => "contract-confirmation"
  | .dataReference => "data-reference"
  | .result => "result"
  | .dlq => "dlq"

end Channel

/-- Whether a message reports progress or trouble. -/
inductive MessageStatus
  | ok
  | error
deriving DecidableEq, Repr

/-- What a message says about its key. -/
inductive Payload
  | request (asset : AssetId) (provider : String)
  | negotiationAccepted (negotiation : NegotiationId)
  | negotiationFailed (negotiation : NegotiationId) (reason : String)
  | contractConfirmed (negotiation : NegotiationId) (contract : ContractId)
  | transferStarted
  | dataReference (reference : DataReference)
  | transferFailed (reason : String)
  | completed (reference : DataReference)
  /-- The case is already closed by whoever failed it. -/
  | failed (reason : FailureReason)
  /-- A handler went wrong; the case may still be live. -/
  | fault (text : String)
deriving DecidableEq

/-- Trouble is a failed negotiation or transfer, a failed case and a fault. -/
def Payload.status : Payload → MessageStatus
  | .negotiationFailed .. | .transferFailed _ | .failed _ | .fault _ => .error
  | _ => .ok

/-- The unit of transport on the bus. -/
structure Message where
  key : CorrelationKey
  channel : Channel
  payload : Payload
deriving DecidableEq

namespace Message

/-- Whether the message reports progress or trouble. -/
def status (m : Message) : MessageStatus := m.payload.status

/-- The dead letter of a case that was closed for `reason`. -/
def failed (key : CorrelationKey) (reason : FailureReason) : Message :=
  { key, channel := .dlq, payload := .failed reason }

/-- The dead letter of a handler that went wrong. -/
def fault (key : CorrelationKey) (text : String) : Message :=
  { key, channel := .dlq, payload := .fault text }

/-- The message that brings a caller's request to the first stage. -/
def ofRequest (r : DataRequest) : Message :=
  { key := r.key, channel := .initial, payload := .request r.asset r.provider }

end Message

end Rendezvous
