import Rendezvous.Message
import Rendezvous.Text.Quoted

/-!
# Describing a payload

An unexpected dead letter is reported by a description of its payload: the payload's kind with its
content, every text quoted.
-/

namespace Rendezvous

open Text (quoted wrapped record mapping)

/-- An asset id, described. -/
def AssetId.describe (a : AssetId) : String := wrapped "AssetId" (quoted a.text)

/-- A negotiation id, described. -/
def NegotiationId.describe (n : NegotiationId) : String := wrapped "NegotiationId" (quoted n.text)

/-- A contract id, described. -/
def ContractId.describe (c : ContractId) : String := wrapped "ContractId" (quoted c.text)

/-- Properties, described in the order of their names. -/
def Properties.describe (p : Properties) : String :=
  mapping (p.entries.map fun e => (quoted e.1, quoted e.2))

/-- A data reference, described. -/
def DataReference.describe (r : DataReference) : String :=
  record "DataReference"
    [("id", quoted r.id), ("endpoint", quoted r.endpoint), ("auth_key", quoted r.authKey),
     ("auth_code", quoted r.authCode), ("properties", r.properties.describe)]

/-- A failure reason, described. -/
def FailureReason.describe : FailureReason → String
  | .timeout => "Timeout"
  | .offerUnavailable text => wrapped "OfferUnavailable" (quoted text)
  | .negotiationFailed text => wrapped "NegotiationFailed" (quoted text)
  | .transferFailed text => wrapped "TransferFailed" (quoted text)
  | .internal text => wrapped "Internal" (quoted text)

/-- A payload, described. -/
def Payload.describe : Payload → String
  | .request asset provider =>
      record "Request" [("asset_id", asset.describe), ("provider", quoted provider)]
  | .negotiationAccepted n => record "NegotiationAccepted" [("negotiation_id", n.describe)]
  | .negotiationFailed n reason =>
      record "NegotiationFailed" [("negotiation_id", n.describe), ("reason", quoted reason)]
  | .contractConfirmed n c =>
      record "ContractConfirmed" [("negotiation_id", n.describe), ("contract_id", c.describe)]
  | .transferStarted => "TransferStarted"
  | .dataReference r => wrapped "DataReference" r.describe
  | .transferFailed reason => record "TransferFailed" [("reason", quoted reason)]
  | .completed r => wrapped "Completed" r.describe
  | .failed reason => wrapped "Failed" reason.describe
  | .fault text => wrapped "Fault" (quoted text)

/-- A message status, described. -/
def MessageStatus.describe : MessageStatus → String
  | .ok => "Ok"
  | .error => "Error"

end Rendezvous
