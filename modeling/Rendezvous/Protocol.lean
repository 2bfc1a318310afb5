import Rendezvous.Properties

/-!
# What the parties of a data exchange say to each other

A caller asks for an asset at a provider.  The provider's catalog has an offer for it; a negotiation
over the offer ends in a contract; under the contract a transfer is started towards a destination;
the transfer yields a reference through which the data can be pulled.
-/

namespace Rendezvous

/-- Names one request of a caller, from its submission to its outcome. -/
structure CorrelationKey where
  text : String
deriving DecidableEq, Repr

/-- Names an asset in a provider's catalog. -/
structure AssetId where
  text : String
deriving DecidableEq, Repr

/-- Names a negotiation; assigned by the negotiation service. -/
structure NegotiationId where
  text : String
deriving DecidableEq, Repr

/-- Names the agreement that a confirmed negotiation produced. -/
structure ContractId where
  text : String
deriving DecidableEq, Repr

/-- Names a transfer; assigned by the transfer service. -/
structure TransferProcessId where
  text : String
deriving DecidableEq, Repr

/-- A caller's request for the data behind one asset. -/
structure DataRequest where
  key : CorrelationKey
  asset : AssetId
  provider : String
deriving DecidableEq

/-- What a provider asks a negotiation to be about. -/
structure ContractOffer where
  id : String
  asset : AssetId
  provider : String
deriving DecidableEq

/-- Where a provider should make the data available. -/
structure TransferDestination where
  kind : String
  properties : Properties := .empty
deriving DecidableEq

/-- The order to transfer an asset under a contract. -/
structure TransferRequest where
  contract : ContractId
  asset : AssetId
  provider : String
  destination : TransferDestination
deriving DecidableEq

/-- The endpoint and the credentials through which transferred data can be pulled. -/
structure DataReference where
  id : String
  endpoint : String
  authKey : String
  authCode : String
  properties : Properties := .empty
deriving DecidableEq

/-- The property under which the correlation key travels with a transfer. -/
def correlationProperty : String := "cid"

namespace TransferDestination

/-- Sets one property of the destination. -/
def withProperty (d : TransferDestination) (name value : String) : TransferDestination :=
  { d with properties := d.properties.insert name value }

/-- The correlation key that the provider will echo, if the destination carries one. -/
def correlationKey? (d : TransferDestination) : Option CorrelationKey :=
  (d.properties.get? correlationProperty).map CorrelationKey.mk

/-- The destination of a transfer for the request `key`. -/
def correlated (kind : String) (key : CorrelationKey) : TransferDestination :=
  TransferDestination.withProperty { kind } correlationProperty key.text

end TransferDestination

end Rendezvous
