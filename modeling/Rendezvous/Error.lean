import Rendezvous.Message

/-!
# What can go wrong between the parts of an engine

Each error is a cause; `EngineError.message` has the wording.
-/

namespace Rendezvous

/-- The causes of failure that the parts of an engine report to each other. -/
inductive EngineError
  | duplicateHandler (channel : Channel)
  | missingHandler (channel : Channel)
  | duplicateCase (key : CorrelationKey)
  | duplicatePending (key : CorrelationKey)
  | pendingNotFound (key : CorrelationKey)
  /-- A catalog, negotiation or transfer service refused. -/
  | collaborator (text : String)
  | busClosed
deriving DecidableEq, Repr

/-- The error as a line of text. -/
def EngineError.message : EngineError → String
  | .duplicateHandler channel => "Channel " ++ channel.name ++ " already has a registered handler"
  | .missingHandler channel => "No handler registered for channel " ++ channel.name
  | .duplicateCase key => "Case " ++ key.text ++ " is already registered"
  | .duplicatePending key => "Pending record for " ++ key.text ++ " is already stored"
  | .pendingNotFound key => "Pending record for " ++ key.text ++ " not found"
  | .collaborator text => "Collaborator error: " ++ text
  | .busClosed => "Message bus is closed"

end Rendezvous
