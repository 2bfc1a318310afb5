import Rendezvous.Assoc
import Rendezvous.Error

/-!
# Negotiations in flight

The registry keeps, for every key whose negotiation is under way, the offer and the negotiation id.
Callbacks of a negotiation carry only its id, so the ids are indexed back to keys.  A confirmation
that comes before its negotiation is indexed is parked and handed to whoever stores the matching
record.  An id whose record was taken is remembered as closed, so that a confirmation delivered
again is not mistaken for an early one.

At any time a negotiation id is therefore unknown, parked, pending or closed.
-/

namespace Rendezvous

/-- What the first stage knows about a negotiation and the confirmation stage needs. -/
structure PendingRecord where
  offer : ContractOffer
  negotiation : NegotiationId
deriving DecidableEq

/-- Where a confirmation belongs. -/
inductive Resolution
  /-- The negotiation belongs to the request of this key. -/
  | pending (key : CorrelationKey)
  /-- The negotiation is not known yet; the confirmation is parked. -/
  | parked
  /-- The record of the negotiation was taken; the confirmation is stale. -/
  | closed
deriving DecidableEq

/-- A confirmation that came before its negotiation was known. -/
structure ParkedConfirmation where
  contract : ContractId
  since : Nat
deriving DecidableEq

/-- The negotiations in flight. -/
structure Registry where
  records : Assoc CorrelationKey PendingRecord := {}
  /-- The key of each pending negotiation. -/
  index : Assoc NegotiationId CorrelationKey := {}
  parked : Assoc NegotiationId ParkedConfirmation := {}
  /-- The instant at which each closed negotiation was closed. -/
  closed : Assoc NegotiationId Nat := {}

namespace Registry

/-- Stores the record of `key` and hands out the contract parked for its negotiation, if any.
A key has at most one record. -/
def store (r : Registry) (key : CorrelationKey) (record : PendingRecord) :
    Except EngineError (Option ContractId × Registry) :=
  if r.records.contains key then
    .error (.duplicatePending key)
  else
    .ok ((r.parked.get? record.negotiation).map ParkedConfirmation.contract,
      { records := r.records.insert key record
        index := r.index.insert record.negotiation key
        parked := r.parked.erase record.negotiation
        closed := r.closed.erase record.negotiation })

/-- Removes the record of `key` and closes its negotiation at `now`. -/
def take (r : Registry) (now : Nat) (key : CorrelationKey) : Option PendingRecord × Registry :=
  match r.records.get? key with
  | none => (none, r)
  | some record =>
      (some record,
        { r with
          records := r.records.erase key
          index := r.index.erase record.negotiation
          closed := r.closed.insert record.negotiation now })

/-- Whether `key` has a record. -/
def contains (r : Registry) (key : CorrelationKey) : Bool := r.records.contains key

/-- The key of a pending negotiation. -/
def keyFor? (r : Registry) (n : NegotiationId) : Option CorrelationKey := r.index.get? n

/-- Finds out where a confirmation belongs, and parks it if its negotiation is unknown. -/
def resolveOrPark (r : Registry) (now : Nat) (n : NegotiationId) (contract : ContractId) :
    Resolution × Registry :=
  match r.index.get? n with
  | some key => (.pending key, r)
  | none =>
      if r.closed.contains n then (.closed, r)
      else (.parked, { r with parked := r.parked.insert n { contract, since := now } })

/-- Drops the confirmations parked for at least `ttl` and tells how many there were. -/
def purgeParked (r : Registry) (now ttl : Nat) : Nat × Registry :=
  let kept := r.parked.keep fun _ p => age now p.since < ttl
  (r.parked.size - kept.size, { r with parked := kept })

/-- Forgets the negotiations closed for at least `ttl` and tells how many there were. -/
def purgeClosed (r : Registry) (now ttl : Nat) : Nat × Registry :=
  let kept := r.closed.keep fun _ since => age now since < ttl
  (r.closed.size - kept.size, { r with closed := kept })

end Registry

end Rendezvous
