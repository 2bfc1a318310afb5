import Rendezvous.Json.Form
import Rendezvous.Message

/-!
# How the terms of an exchange are written

Every type of the protocol has a form: ids are written as their texts, stages, channels and statuses
as names, reasons for failure as a name or a name with a text, and everything else as a record.
-/

namespace Rendezvous

open Json

/-- A key is written as its text. -/
def CorrelationKey.form : Form CorrelationKey := Form.text.through .mk CorrelationKey.text

/-- An id is written as its text. -/
def AssetId.form : Form AssetId := Form.text.through .mk AssetId.text

/-- An id is written as its text. -/
def NegotiationId.form : Form NegotiationId := Form.text.through .mk NegotiationId.text

/-- An id is written as its text. -/
def ContractId.form : Form ContractId := Form.text.through .mk ContractId.text

/-- An id is written as its text. -/
def TransferProcessId.form : Form TransferProcessId :=
  Form.text.through .mk TransferProcessId.text

/-- The name of a stage. -/
def Stage.name : Stage → String
  | .started => "started"
  | .negotiating => "negotiating"
  | .confirmed => "confirmed"
  | .transferring => "transferring"
  | .completed => "completed"
  | .failed => "failed"

/-- A stage is written as its name. -/
def Stage.form : Form Stage :=
  Form.choice
    ([.started, .negotiating, .confirmed, .transferring, .completed, .failed].map fun s =>
      (s.name, .plain s))
    fun s => (s.name, none)

/-- The name of a channel in values; its name in texts is `Channel.name`. -/
def Channel.tag : Channel → String
  | .initial => "Initial"
  | .contractNegotiation => "ContractNegotiation"
  | .contractConfirmation => "ContractConfirmation"
  | .dataReference => "DataReference"
  | .result => "Result"
  | .dlq => "Dlq"

/-- A channel is written as its tag. -/
def Channel.form : Form Channel :=
  Form.choice (Channel.all.map fun c => (c.tag, .plain c)) fun c => (c.tag, none)

/-- The name of a status. -/
def MessageStatus.name : MessageStatus → String
  | .ok => "ok"
  | .error => "error"

/-- A status is written as its name. -/
def MessageStatus.form : Form MessageStatus :=
  Form.choice ([.ok, .error].map fun s => (s.name, .plain s)) fun s => (s.name, none)

/-- A reason is written as its name, with its text if it has one. -/
def FailureReason.form : Form FailureReason :=
  Form.choice
    [("Timeout", .plain .timeout), ("OfferUnavailable", .ofText .offerUnavailable),
     ("NegotiationFailed", .ofText .negotiationFailed), ("TransferFailed", .ofText .transferFailed),
     ("Internal", .ofText .internal)]
    fun
      | .timeout => ("Timeout", none)
      | .offerUnavailable text => ("OfferUnavailable", some text)
      | .negotiationFailed text => ("NegotiationFailed", some text)
      | .transferFailed text => ("TransferFailed", some text)
      | .internal text => ("Internal", some text)

/-- The fields of a request. -/
def DataRequest.fields : List Form.Field :=
  [⟨"key", CorrelationKey, CorrelationKey.form, none⟩, ⟨"asset", AssetId, AssetId.form, none⟩,
   ⟨"provider", String, Form.text, none⟩]

/-- A request is written as a record. -/
def DataRequest.form : Form DataRequest :=
  Form.record "DataRequest" DataRequest.fields
    (fun (key, asset, provider, ()) => { key, asset, provider })
    fun r => (r.key, r.asset, r.provider, ())

/-- The fields of an offer. -/
def ContractOffer.fields : List Form.Field :=
  [⟨"id", String, Form.text, none⟩, ⟨"asset_id", AssetId, AssetId.form, none⟩,
   ⟨"provider", String, Form.text, none⟩]

/-- An offer is written as a record. -/
def ContractOffer.form : Form ContractOffer :=
  Form.record "ContractOffer" ContractOffer.fields
    (fun (id, asset, provider, ()) => { id, asset, provider })
    fun o => (o.id, o.asset, o.provider, ())

/-- The fields of a destination. -/
def TransferDestination.fields : List Form.Field :=
  [⟨"kind", String, Form.text, none⟩, ⟨"properties", Properties, Form.properties, none⟩]

/-- A destination is written as a record. -/
def TransferDestination.form : Form TransferDestination :=
  Form.record "TransferDestination" TransferDestination.fields
    (fun (kind, properties, ()) => { kind, properties })
    fun d => (d.kind, d.properties, ())

/-- The fields of the order to transfer. -/
def TransferRequest.fields : List Form.Field :=
  [⟨"contract_id", ContractId, ContractId.form, none⟩, ⟨"asset_id", AssetId, AssetId.form, none⟩,
   ⟨"provider", String, Form.text, none⟩,
   ⟨"destination", TransferDestination, TransferDestination.form, none⟩]

/-- The order to transfer is written as a record. -/
def TransferRequest.form : Form TransferRequest :=
  Form.record "TransferRequest" TransferRequest.fields
    (fun (contract, asset, provider, destination, ()) => { contract, asset, provider, destination })
    fun r => (r.contract, r.asset, r.provider, r.destination, ())

/-- The fields of a reference; it has no properties unless they are given. -/
def DataReference.fields : List Form.Field :=
  [⟨"id", String, Form.text, none⟩, ⟨"endpoint", String, Form.text, none⟩,
   ⟨"auth_key", String, Form.text, none⟩, ⟨"auth_code", String, Form.text, none⟩,
   ⟨"properties", Properties, Form.properties, some .empty⟩]

/-- A reference is written as a record. -/
def DataReference.form : Form DataReference :=
  Form.record "DataReference" DataReference.fields
    (fun (id, endpoint, authKey, authCode, properties, ()) =>
      { id, endpoint, authKey, authCode, properties })
    fun r => (r.id, r.endpoint, r.authKey, r.authCode, r.properties, ())

end Rendezvous
