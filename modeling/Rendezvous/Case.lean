import Rendezvous.Protocol
import Rendezvous.Time

/-!
# Cases

A case is the live state of one request: how far it has come and what the protocol has told it so
far.  Its stages are `started`, `negotiating`, `confirmed` and `transferring`; the two terminal ones
mark a case that its owner is about to drop.
-/

namespace Rendezvous

/-- Why a request ended without data. -/
inductive FailureReason
  /-- No answer came within the time to live of the case. -/
  | timeout
  | offerUnavailable (text : String)
  | negotiationFailed (text : String)
  | transferFailed (text : String)
  /-- A handler went wrong. -/
  | internal (text : String)
deriving DecidableEq, Repr

/-- The reason as a line of text. -/
def FailureReason.message : FailureReason → String
  | .timeout => "timeout"
  | .offerUnavailable text => "offer unavailable: " ++ text
  | .negotiationFailed text => "negotiation failed: " ++ text
  | .transferFailed text => "transfer failed: " ++ text
  | .internal text => "internal: " ++ text

/-- How far a case has come. -/
inductive Stage
  | started
  | negotiating
  | confirmed
  | transferring
  | completed
  | failed
deriving DecidableEq, Repr

/-- Whether nothing can follow the stage. -/
def Stage.isTerminal : Stage → Bool
  | .completed | .failed => true
  | _ => false

/-- What the protocol has told a case so far. -/
structure CaseData where
  asset : Option AssetId := none
  provider : Option String := none
  negotiation : Option NegotiationId := none
  contract : Option ContractId := none
  transfer : Option TransferProcessId := none
deriving DecidableEq, Repr

/-- The live state of one request. -/
structure Case where
  key : CorrelationKey
  stage : Stage := .started
  data : CaseData := {}
  /-- When the case was registered. -/
  createdAt : Nat
  error : Option FailureReason := none
deriving DecidableEq, Repr

namespace Case

/-- Moves the case to another stage. -/
def advance (c : Case) (stage : Stage) : Case := { c with stage }

/-- Marks the case failed. -/
def fail (c : Case) (reason : FailureReason) : Case :=
  { c with stage := .failed, error := some reason }

/-- Whether at `now` the case is at least `ttl` old. -/
def isExpired (c : Case) (ttl now : Nat) : Bool := ttl ≤ age now c.createdAt

/-- Whether the case is about the negotiation `n`. -/
def concerns (c : Case) (n : NegotiationId) : Bool := c.data.negotiation = some n

end Case

end Rendezvous
