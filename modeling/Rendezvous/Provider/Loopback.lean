import Rendezvous.Provider.Services

/-!
# A simulated provider

The loopback provider plays every service at once.  It offers each asset of its catalog, confirms
every negotiation with two callbacks after a fixed latency and answers every transfer with two
more.  Assets can be declined, and then their negotiation fails, or silent, and then it is never
answered.
-/

namespace Rendezvous

/-- A provider inside the process. -/
structure Loopback where
  /-- The assets on offer; without a catalog every asset is. -/
  catalog? : Option (List AssetId) := none
  declined : List AssetId := []
  silent : List AssetId := []
  latency : Nat := 0
  /-- How many ids it has given out. -/
  issued : Nat := 0
  /-- Whether anybody listens to its negotiations. -/
  hasListener : Bool := false
  /-- Whether anybody receives its data references. -/
  hasReceiver : Bool := false

namespace Loopback

/-- Whether an asset is on offer. -/
def offers (p : Loopback) (asset : AssetId) : Bool :=
  match p.catalog? with
  | none => true
  | some assets => assets.contains asset

/-- The offer for an asset. -/
def resolve (p : Loopback) (provider : String) (asset : AssetId) :
    Except EngineError ContractOffer :=
  if p.offers asset then .ok { id := "offer-" ++ asset.text, asset, provider }
  else .error (.collaborator ("asset " ++ asset.text ++ " not offered by " ++ provider))

/-- What follows from the `n`-th id, given to a negotiation over `offer`. -/
def afterNegotiation (p : Loopback) (n : NegotiationId) (serial : Nat) (offer : ContractOffer) :
    List Aftermath :=
  if p.silent.contains offer.asset || !p.hasListener then []
  else if p.declined.contains offer.asset then
    [{ delay := p.latency
       callbacks := [.negotiationFailed n "provider declined the offer"] }]
  else
    [{ delay := p.latency
       callbacks := [.accepted n, .confirmed n ⟨"contract-" ++ toString serial⟩] }]

/-- Begins a negotiation. -/
def negotiate (p : Loopback) (offer : ContractOffer) : NegotiationId × List Aftermath × Loopback :=
  let serial := p.issued + 1
  let n : NegotiationId := ⟨"neg-" ++ toString serial⟩
  (n, p.afterNegotiation n serial offer, { p with issued := serial })

/-- The reference under which the data of a transfer can be pulled. -/
def reference (request : TransferRequest) (key : CorrelationKey) (serial : Nat) :
    DataReference where
  id := "edr-" ++ toString serial
  endpoint := request.provider ++ "/public/" ++ request.asset.text
  authKey := "Authorization"
  authCode := "token-" ++ toString serial
  properties := .ofList [(correlationProperty, key.text)]

/-- Begins a transfer; the destination has to say for which request. -/
def transfer (p : Loopback) (request : TransferRequest) :
    Except EngineError TransferProcessId × List Aftermath × Loopback :=
  match request.destination.correlationKey? with
  | none => (.error (.collaborator "destination carries no cid"), [], p)
  | some key =>
      let serial := p.issued + 1
      let aftermath : List Aftermath :=
        if p.hasReceiver then
          [{ delay := p.latency
             callbacks :=
               [.transferStarted key, .dataReference key (reference request key serial)] }]
        else []
      (.ok ⟨"tp-" ++ toString serial⟩, aftermath, { p with issued := serial })

instance : Services Loopback where
  respond p
    | .resolve provider asset => (.offer (p.resolve provider asset), [], p)
    | .negotiate offer =>
        let (n, aftermath, p) := p.negotiate offer
        (.negotiation (.ok n), aftermath, p)
    | .transfer request =>
        let (answer, aftermath, p) := p.transfer request
        (.transfer answer, aftermath, p)

end Loopback

end Rendezvous
