import Rendezvous.Registry

/-!
# One negotiation in the registry

The registry keeps four maps, but to it a negotiation is in one of four states: unknown, parked,
pending or closed.  `NegotiationState.next` is the machine that each negotiation runs by itself:
what becomes of its state when a request is made to the registry.

* `Registry.answer` performs a request;
* `Registry.after` and `Registry.events` are the registry after many requests, and what was
  answered;
* `Registry.stateOf` is the state of a negotiation.
-/

namespace Rendezvous

/-- What the registry knows about a negotiation. -/
inductive NegotiationState
  | unknown
  /-- A confirmation came before the negotiation was known. -/
  | parked (contract : ContractId) (since : Nat)
  /-- It belongs to the request of this key. -/
  | pending (key : CorrelationKey)
  /-- Its record was taken. -/
  | closed (since : Nat)
deriving DecidableEq

/-- A request to the registry. -/
inductive RegistryRequest
  | store (key : CorrelationKey) (record : PendingRecord)
  | take (key : CorrelationKey)
  | resolve (n : NegotiationId) (contract : ContractId)
  /-- To drop what has been parked for `ttl` at `instant`. -/
  | purgeParked (instant ttl : Nat)
  /-- To forget what has been closed for `ttl` at `instant`. -/
  | purgeClosed (instant ttl : Nat)

/-- What the registry answers. -/
inductive RegistryAnswer
  /-- The record is stored; the contract that was parked for its negotiation. -/
  | stored (contract? : Option ContractId)
  | refused (error : EngineError)
  | taken (record? : Option PendingRecord)
  | resolved (resolution : Resolution)
  | purged (count : Nat)
deriving DecidableEq

/-- A request made at an instant, with the answer to it. -/
structure RegistryEvent where
  now : Nat
  request : RegistryRequest
  answer : RegistryAnswer

namespace RegistryEvent

/-- The record that `key` got. -/
def stored? (key : CorrelationKey) (ev : RegistryEvent) : Option PendingRecord :=
  match ev.request, ev.answer with
  | .store key' record, .stored _ => if key' = key then some record else none
  | _, _ => none

/-- The record that was taken from `key`. -/
def taken? (key : CorrelationKey) (ev : RegistryEvent) : Option PendingRecord :=
  match ev.request, ev.answer with
  | .take key', .taken record? => if key' = key then record? else none
  | _, _ => none

end RegistryEvent

namespace NegotiationState

/-- The contract that is parked. -/
def contract? : NegotiationState → Option ContractId
  | .parked contract _ => some contract
  | .unknown | .pending _ | .closed _ => none

/-- Where a confirmation belongs that comes in this state. -/
def resolution : NegotiationState → Resolution
  | .pending key => .pending key
  | .closed _ => .closed
  | .unknown | .parked .. => .parked

/-- Whether a confirmation has been parked for at least `ttl`. -/
def isParkedFor (ttl now : Nat) : NegotiationState → Bool
  | .parked _ since => ttl ≤ age now since
  | .unknown | .pending _ | .closed _ => false

/-- Whether the negotiation has been closed for at least `ttl`. -/
def isClosedFor (ttl now : Nat) : NegotiationState → Bool
  | .closed since => ttl ≤ age now since
  | .unknown | .parked .. | .pending _ => false

/-- What a confirmation makes of the state. -/
def confirm (contract : ContractId) (now : Nat) : NegotiationState → NegotiationState
  | .unknown | .parked .. => .parked contract now
  | .pending key => .pending key
  | .closed since => .closed since

/-- What becomes of the state of the negotiation `n`. -/
def next (n : NegotiationId) (s : NegotiationState) (ev : RegistryEvent) : NegotiationState :=
  match ev.request with
  | .store key record =>
      match ev.answer with
      | .stored _ => if record.negotiation = n then .pending key else s
      | _ => s
  | .take key => if s = .pending key then .closed ev.now else s
  | .resolve n' contract => if n' = n then s.confirm contract ev.now else s
  | .purgeParked instant ttl => if s.isParkedFor ttl instant then .unknown else s
  | .purgeClosed instant ttl => if s.isClosedFor ttl instant then .unknown else s

end NegotiationState

namespace Registry

/-- Performs a request. -/
def answer (r : Registry) (now : Nat) : RegistryRequest → RegistryAnswer × Registry
  | .store key record =>
      match r.store key record with
      | .ok (contract?, r') => (.stored contract?, r')
      | .error error => (.refused error, r)
  | .take key => (.taken (r.take now key).1, (r.take now key).2)
  | .resolve n contract =>
      (.resolved (r.resolveOrPark now n contract).1, (r.resolveOrPark now n contract).2)
  | .purgeParked instant ttl =>
      (.purged (r.purgeParked instant ttl).1, (r.purgeParked instant ttl).2)
  | .purgeClosed instant ttl =>
      (.purged (r.purgeClosed instant ttl).1, (r.purgeClosed instant ttl).2)

/-- The registry after requests, each made at an instant. -/
def after (r : Registry) (reqs : List (Nat × RegistryRequest)) : Registry :=
  reqs.foldl (fun r req => (r.answer req.1 req.2).2) r

/-- The requests with their answers. -/
def events (r : Registry) : List (Nat × RegistryRequest) → List RegistryEvent
  | [] => []
  | (now, request) :: reqs =>
      { now, request, answer := (r.answer now request).1 } ::
        (r.answer now request).2.events reqs

/-- What the registry knows about `n`. -/
def stateOf (r : Registry) (n : NegotiationId) : NegotiationState :=
  match r.index.get? n, r.closed.get? n, r.parked.get? n with
  | some key, _, _ => .pending key
  | none, some since, _ => .closed since
  | none, none, some p => .parked p.contract p.since
  | none, none, none => .unknown

/-- Whether a request keeps negotiations apart: no record of another key has the negotiation of a
record to be stored. -/
def Admits (r : Registry) : RegistryRequest → Prop
  | .store key record => ∀ e ∈ r.records.entries, e.2.negotiation = record.negotiation → e.1 = key
  | .take _ | .resolve .. | .purgeParked .. | .purgeClosed .. => True

instance (r : Registry) : DecidablePred r.Admits
  | .store .. => inferInstanceAs (Decidable (∀ _ ∈ _, _ → _))
  | .take _ | .resolve .. | .purgeParked .. | .purgeClosed .. => inferInstanceAs (Decidable True)

/-- Whether all of the requests do so. -/
def AdmitsAll (r : Registry) : List (Nat × RegistryRequest) → Prop
  | [] => True
  | (now, request) :: reqs => r.Admits request ∧ (r.answer now request).2.AdmitsAll reqs

/-- Whether requests keep negotiations apart can be found out by performing them. -/
instance decidableAdmitsAll (r : Registry) : DecidablePred r.AdmitsAll
  | [] => inferInstanceAs (Decidable True)
  | (now, request) :: reqs =>
      have := decidableAdmitsAll (r.answer now request).2 reqs
      inferInstanceAs (Decidable (r.Admits request ∧ (r.answer now request).2.AdmitsAll reqs))

end Registry

end Rendezvous
