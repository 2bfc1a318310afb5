import Rendezvous.Proofs.Queues

/-!
# How a key stands

A `Standing` is everything an engine says about one key: its case, its pending record, the call that
is open under its lock, and what has been accepted and published for it.  The life of a key is a
small machine on standings:

* `Engine.Move` is its transition table.  Every row has one cause: a message handled, a service's
  answer or the visit of a sweep.
* `Standing.Coherent` lists the five kinds of standing that a key can have: vacant, opening,
  pending, confirming and confirmed.
* `Standing.Balanced` is the account of a key: whatever was accepted has ended, is live or is
  opening.

`Move.coherent` and `Move.balanced` say that every row keeps both.  That an engine moves its keys
by this table only is shown for its handlers and sweeps later.
-/

namespace Rendezvous

/-- Everything an engine says about one key. -/
@[ext]
structure Standing where
  case? : Option Case
  record? : Option PendingRecord
  /-- The call that is open under the lock of the key. -/
  call? : Option Task
  /-- How many requests were handled that found no case. -/
  accepted : Nat
  /-- The terminal messages published, latest first. -/
  terminals : List Message

/-- How `k` stands. -/
def Engine.standing (e : Engine) (k : CorrelationKey) : Standing where
  case? := e.store.get? k
  record? := e.registry.records.get? k
  call? := e.callAt? k
  accepted := e.accepted k
  terminals := e.terminals k

/-- What an action is about, as far as a key is concerned. -/
inductive Cause
  | handled (m : Message)
  | answered (call : Task) (r : Reply)
  | visited (sweep : Sweep) (key : CorrelationKey) (seen : Stage)
  | other

/-- What `a` is about in the state `e`. -/
def Engine.cause (e : Engine) : Action → Cause
  | .stride t =>
      match e.tasks.get? t with
      | some (.locking (.handle m)) => .handled m
      | some (.locking (.evict sweep key seen)) => .visited sweep key seen
      | _ => .other
  | .reply t r =>
      match e.tasks.get? t with
      | some task => .answered task r
      | none => .other
  | _ => .other

/-- The call is one of the two that a request makes before it has a case. -/
def Task.Opens (r : DataRequest) (call : Task) : Prop :=
  call = .resolving (.ofRequest r) r.asset r.provider ∨
    ∃ offer, call = .negotiating (.ofRequest r) r.asset r.provider offer

theorem Message.ofRequest_inj {r r' : DataRequest}
    (h : Message.ofRequest r = Message.ofRequest r') : r = r' := by
  obtain ⟨key, asset, provider⟩ := r
  obtain ⟨key', asset', provider'⟩ := r'
  simpa [Message.ofRequest] using h

/-- A call is made for one request. -/
theorem Task.Opens.inj {r r' : DataRequest} {call : Task} (h : call.Opens r)
    (h' : call.Opens r') : r = r' := by
  rcases h with rfl | ⟨offer, rfl⟩
  · rcases h' with heq | ⟨offer', heq⟩
    · exact Message.ofRequest_inj (Task.resolving.inj heq).1
    · cases heq
  · rcases h' with heq | ⟨offer', heq⟩
    · cases heq
    · exact Message.ofRequest_inj (Task.negotiating.inj heq).1

/-- The case of the request `r` once the negotiation `n` has begun at `now`. -/
def Case.ofRequest (r : DataRequest) (n : NegotiationId) (now : Nat) : Case where
  key := r.key
  data := { asset := some r.asset, provider := some r.provider, negotiation := some n }
  createdAt := now

/-- The case whose transfer under `contract` has begun. -/
def Case.confirm (c : Case) (contract : ContractId) (transfer : TransferProcessId) : Case :=
  ({ c with data := { c.data with contract := some contract, transfer := some transfer } } :
    Case).advance .confirmed

/-- The confirmation of a negotiation, as it comes to the case of `k`. -/
def Message.confirmation (k : CorrelationKey) (n : NegotiationId) (contract : ContractId) :
    Message :=
  { key := k, channel := .contractConfirmation, payload := .contractConfirmed n contract }

@[simp] theorem Message.key_confirmation (k : CorrelationKey) (n : NegotiationId)
    (contract : ContractId) : (Message.confirmation k n contract).key = k := rfl

namespace Standing

/-- The standing after its case and its record are gone and `last` is published. -/
def ended (s : Standing) (last : Message) : Standing where
  case? := none
  record? := none
  call? := none
  accepted := s.accepted
  terminals := last :: s.terminals

end Standing

open Standing in
/-- The transition table of a key: what can become of the standing `s` of `k`, and why. -/
inductive Engine.Move (e : Engine) (k : CorrelationKey) (s : Standing) : Cause → Standing → Prop
  /-- A request for a key without a case is accepted and asks for an offer or a negotiation. -/
  | accept (r : DataRequest) (call : Task) (hkey : r.key = k) (hcase : s.case? = none)
      (hcall : s.call? = none) (hopens : call.Opens r) :
      Move e k s (.handled (.ofRequest r))
        { s with call? := some call, accepted := s.accepted + 1 }
  /-- There is an offer, and a negotiation is asked for. -/
  | offer (r : DataRequest) (offer : ContractOffer) (hkey : r.key = k)
      (hcall : s.call? = some (.resolving (.ofRequest r) r.asset r.provider)) :
      Move e k s
        (.answered (.resolving (.ofRequest r) r.asset r.provider) (.offer (.ok offer)))
        { s with call? := some (.negotiating (.ofRequest r) r.asset r.provider offer) }
  /-- There is no offer: the request is rejected. -/
  | noOffer (r : DataRequest) (error : EngineError) (hkey : r.key = k)
      (hcall : s.call? = some (.resolving (.ofRequest r) r.asset r.provider)) :
      Move e k s
        (.answered (.resolving (.ofRequest r) r.asset r.provider) (.offer (.error error)))
        { s with
          call? := none
          terminals := .failed k (.offerUnavailable error.message) :: s.terminals }
  /-- There is no negotiation: the request is rejected. -/
  | noNegotiation (r : DataRequest) (offer : ContractOffer) (error : EngineError)
      (hkey : r.key = k)
      (hcall : s.call? = some (.negotiating (.ofRequest r) r.asset r.provider offer)) :
      Move e k s
        (.answered (.negotiating (.ofRequest r) r.asset r.provider offer)
          (.negotiation (.error error)))
        { s with
          call? := none
          terminals := .failed k (.negotiationFailed error.message) :: s.terminals }
  /-- The negotiation has begun: the request has a case and a record. -/
  | register (r : DataRequest) (offer : ContractOffer) (n : NegotiationId) (hkey : r.key = k)
      (hcall : s.call? = some (.negotiating (.ofRequest r) r.asset r.provider offer))
      (hcase : s.case? = none) :
      Move e k s
        (.answered (.negotiating (.ofRequest r) r.asset r.provider offer) (.negotiation (.ok n)))
        { s with
          case? := some (.ofRequest r n e.now)
          record? := some { offer, negotiation := n }
          call? := none }
  /-- The acceptance of its own negotiation moves a started case on. -/
  | negotiate (c : Case) (n : NegotiationId) (hcase : s.case? = some c)
      (hstage : c.stage = .started) (hown : c.data.negotiation = some n) (hcall : s.call? = none) :
      Move e k s (.handled { key := k, channel := .contractNegotiation,
                             payload := .negotiationAccepted n })
        { s with case? := some (c.advance .negotiating) }
  /-- The failure of its own negotiation ends a case. -/
  | negotiationFailed (c : Case) (n : NegotiationId) (reason : String) (hcase : s.case? = some c)
      (hown : c.data.negotiation = some n) (hcall : s.call? = none) :
      Move e k s (.handled { key := k, channel := .contractNegotiation,
                             payload := .negotiationFailed n reason })
        (s.ended (.failed k (.negotiationFailed reason)))
  /-- The confirmation of its own negotiation takes the record and asks for the transfer. -/
  | confirm (c : Case) (record : PendingRecord) (n : NegotiationId) (contract : ContractId)
      (hcase : s.case? = some c) (hstage : c.stage = .started ∨ c.stage = .negotiating)
      (hown : c.data.negotiation = some n) (hrecord : s.record? = some record)
      (hcall : s.call? = none) :
      Move e k s (.handled (.confirmation k n contract))
        { s with
          record? := none
          call? := some (.transferring (.confirmation k n contract) c
            { contract
              asset := record.offer.asset
              provider := record.offer.provider
              destination := .correlated e.destination k }) }
  /-- The transfer has begun. -/
  | transfer (c : Case) (n : NegotiationId) (contract : ContractId) (request : TransferRequest)
      (id : TransferProcessId) (hcase : s.case? = some c)
      (hcall : s.call? = some (.transferring (.confirmation k n contract) c request))
      (hcontract : request.contract = contract) :
      Move e k s
        (.answered (.transferring (.confirmation k n contract) c request) (.transfer (.ok id)))
        { s with case? := some (c.confirm contract id), call? := none }
  /-- The transfer is refused, which ends the case. -/
  | noTransfer (c : Case) (m : Message) (request : TransferRequest) (error : EngineError)
      (hcase : s.case? = some c) (hcall : s.call? = some (.transferring m c request)) :
      Move e k s (.answered (.transferring m c request) (.transfer (.error error)))
        (s.ended (.failed k (.transferFailed error.message)))
  /-- A transfer that starts moves a confirmed case on. -/
  | start (c : Case) (hcase : s.case? = some c) (hstage : c.stage = .confirmed)
      (hcall : s.call? = none) :
      Move e k s (.handled { key := k, channel := .dataReference, payload := .transferStarted })
        { s with case? := some (c.advance .transferring) }
  /-- A data reference completes a case whose transfer is under way. -/
  | complete (c : Case) (reference : DataReference) (hcase : s.case? = some c)
      (hstage : c.stage = .confirmed ∨ c.stage = .transferring) (hcall : s.call? = none)
      (hrecord : s.record? = none) :
      Move e k s (.handled { key := k, channel := .dataReference,
                             payload := .dataReference reference })
        (s.ended { key := k, channel := .result, payload := .completed reference })
  /-- A failed transfer ends a case. -/
  | transferFailed (c : Case) (reason : String) (hcase : s.case? = some c)
      (hcall : s.call? = none) :
      Move e k s (.handled { key := k, channel := .dataReference,
                             payload := .transferFailed reason })
        (s.ended (.failed k (.transferFailed reason)))
  /-- A sweep ends a case that was expired when it began and is in the stage seen then. -/
  | evict (c : Case) (sweep : Sweep) (seen : Stage) (hcase : s.case? = some c)
      (hstage : c.stage = seen) (hexpired : c.isExpired e.store.ttl sweep.startedAt)
      (hcall : s.call? = none) :
      Move e k s (.visited sweep k seen) (s.ended (.failed k .timeout))

/-! ## The five kinds of standing -/

/-- What every case filed under `k` is like. -/
structure Case.Filed (k : CorrelationKey) (c : Case) : Prop where
  key : c.key = k
  error : c.error = none
  asset : c.data.asset.isSome
  provider : c.data.provider.isSome
  negotiation : c.data.negotiation.isSome

/-- A case that waits for its confirmation. -/
structure Case.Early (c : Case) : Prop where
  stage : c.stage = .started ∨ c.stage = .negotiating
  contract : c.data.contract = none
  transfer : c.data.transfer = none

/-- A case whose transfer has begun. -/
structure Case.Late (c : Case) : Prop where
  stage : c.stage = .confirmed ∨ c.stage = .transferring
  contract : c.data.contract.isSome
  transfer : c.data.transfer.isSome

namespace Standing

/-- The standings that a key can have. -/
inductive Coherent (k : CorrelationKey) (s : Standing) : Prop
  /-- Nothing is known about the key. -/
  | vacant (hcase : s.case? = none) (hrecord : s.record? = none) (hcall : s.call? = none)
  /-- A request for the key has been accepted and has no case yet. -/
  | opening (r : DataRequest) (call : Task) (hkey : r.key = k) (hcase : s.case? = none)
      (hrecord : s.record? = none) (hcall : s.call? = some call) (hopens : call.Opens r)
  /-- The case waits for the confirmation of the negotiation that its record is about. -/
  | pending (c : Case) (record : PendingRecord) (hcase : s.case? = some c) (hfiled : c.Filed k)
      (hearly : c.Early) (hrecord : s.record? = some record)
      (hown : c.data.negotiation = some record.negotiation) (hcall : s.call? = none)
  /-- The record is taken and the transfer asked for. -/
  | confirming (c : Case) (n : NegotiationId) (contract : ContractId) (request : TransferRequest)
      (hcase : s.case? = some c) (hfiled : c.Filed k) (hearly : c.Early)
      (hrecord : s.record? = none)
      (hcall : s.call? = some (.transferring (.confirmation k n contract) c request))
      (hown : c.data.negotiation = some n) (hcontract : request.contract = contract)
  /-- The transfer is under way. -/
  | confirmed (c : Case) (hcase : s.case? = some c) (hfiled : c.Filed k) (hlate : c.Late)
      (hrecord : s.record? = none) (hcall : s.call? = none)

/-- How many accepted requests are on their way to a case. -/
def opening (s : Standing) : Nat :=
  match s.call? with
  | some (.resolving ..) | some (.negotiating ..) => 1
  | _ => 0

/-- How many cases are live: one or none. -/
def live (s : Standing) : Nat := s.case?.toList.length

/-- The account of a key: what was accepted has ended, is live or is opening. -/
def Balanced (s : Standing) : Prop :=
  s.accepted = s.terminals.length + s.live + s.opening

section

variable {s : Standing}

theorem live_of_none (h : s.case? = none) : s.live = 0 := by simp [live, h]

theorem live_of_some {c : Case} (h : s.case? = some c) : s.live = 1 := by simp [live, h]

theorem opening_of_none (h : s.call? = none) : s.opening = 0 := by simp [opening, h]

theorem opening_of_opens {call : Task} {r : DataRequest} (h : s.call? = some call)
    (hopens : call.Opens r) : s.opening = 1 := by
  rcases hopens with rfl | ⟨offer, rfl⟩ <;> simp [opening, h]

theorem opening_of_transferring {m : Message} {c : Case} {request : TransferRequest}
    (h : s.call? = some (.transferring m c request)) : s.opening = 0 := by
  simp [opening, h]

/-- A live case that ends with one terminal message leaves the account as it was. -/
theorem balanced_ended {last : Message} (hb : s.accepted = s.terminals.length + s.live + s.opening)
    (hlive : s.live = 1) (hopening : s.opening = 0) : (s.ended last).Balanced := by
  show s.accepted = (s.terminals.length + 1) + 0 + 0
  omega

end

/-! ## Reading a coherent standing -/

namespace Coherent

variable {k : CorrelationKey} {s : Standing}

/-- While a request opens there is neither a case nor a record. -/
theorem of_opens (h : s.Coherent k) {r : DataRequest} {call : Task} (hcall : s.call? = some call)
    (hopens : call.Opens r) : s.case? = none ∧ s.record? = none := by
  cases h with
  | vacant _ _ hnone => simp [hnone] at hcall
  | opening _ _ _ hcase hrecord => exact ⟨hcase, hrecord⟩
  | pending _ _ _ _ _ _ _ hnone => simp [hnone] at hcall
  | confirming c n contract request _ _ _ _ htransfer =>
      rw [hcall] at htransfer
      rcases hopens with rfl | ⟨offer, rfl⟩ <;> simp at htransfer
  | confirmed _ _ _ _ _ hnone => simp [hnone] at hcall

/-- While a transfer is asked for, the case waits for it and the record is taken. -/
theorem of_transferring (h : s.Coherent k) {m : Message} {c : Case} {request : TransferRequest}
    (hcall : s.call? = some (.transferring m c request)) :
    s.case? = some c ∧ c.Filed k ∧ c.Early ∧ s.record? = none ∧
      ∃ n, c.data.negotiation = some n ∧ m = .confirmation k n request.contract := by
  cases h with
  | vacant _ _ hnone => simp [hnone] at hcall
  | opening r call _ _ _ hopen hopens =>
      rw [hcall] at hopen
      rcases hopens with rfl | ⟨offer, rfl⟩ <;> simp at hopen
  | pending _ _ _ _ _ _ _ hnone => simp [hnone] at hcall
  | confirming c' n contract request' hcase hfiled hearly hrecord htransfer hown hcontract =>
      rw [hcall] at htransfer
      obtain ⟨rfl, rfl, rfl⟩ := Task.transferring.inj (Option.some.inj htransfer)
      exact ⟨hcase, hfiled, hearly, hrecord, n, hown, by rw [hcontract]⟩
  | confirmed _ _ _ _ _ hnone => simp [hnone] at hcall

/-- Without an open call a key without a case has no record either. -/
theorem of_no_case (h : s.Coherent k) (hcall : s.call? = none) (hcase : s.case? = none) :
    s.record? = none := by
  cases h with
  | vacant _ hrecord _ => exact hrecord
  | opening _ _ _ _ _ hsome => simp [hcall] at hsome
  | pending _ _ hsome => simp [hcase] at hsome
  | confirming _ _ _ _ hsome => simp [hcase] at hsome
  | confirmed _ hsome => simp [hcase] at hsome

/-- Without an open call a case either waits for its confirmation and has a record, or its transfer
is under way and it has none. -/
theorem of_case (h : s.Coherent k) (hcall : s.call? = none) {c : Case} (hcase : s.case? = some c) :
    c.Filed k ∧
      ((c.Early ∧ ∃ record, s.record? = some record ∧
          c.data.negotiation = some record.negotiation) ∨
        (c.Late ∧ s.record? = none)) := by
  cases h with
  | vacant hnone => simp [hcase] at hnone
  | opening _ _ _ hnone => simp [hcase] at hnone
  | pending c' record hcase' hfiled hearly hrecord hown =>
      rw [hcase] at hcase'
      cases hcase'
      exact ⟨hfiled, .inl ⟨hearly, record, hrecord, hown⟩⟩
  | confirming _ _ _ _ _ _ _ _ hsome => simp [hcall] at hsome
  | confirmed c' hcase' hfiled hlate hrecord =>
      rw [hcase] at hcase'
      cases hcase'
      exact ⟨hfiled, .inr ⟨hlate, hrecord⟩⟩

/-- A case is filed under its key and is early or late, whatever goes on. -/
theorem filed (h : s.Coherent k) {c : Case} (hcase : s.case? = some c) :
    c.Filed k ∧ (c.Early ∨ c.Late) := by
  cases h with
  | vacant hnone => simp [hcase] at hnone
  | opening _ _ _ hnone => simp [hcase] at hnone
  | pending c' record hcase' hfiled hearly =>
      rw [hcase] at hcase'
      cases hcase'
      exact ⟨hfiled, .inl hearly⟩
  | confirming c' _ _ _ hcase' hfiled hearly =>
      rw [hcase] at hcase'
      cases hcase'
      exact ⟨hfiled, .inl hearly⟩
  | confirmed c' hcase' hfiled hlate =>
      rw [hcase] at hcase'
      cases hcase'
      exact ⟨hfiled, .inr hlate⟩

end Coherent

end Standing

namespace Engine.Move

open Standing

variable {e : Engine} {k : CorrelationKey} {s s' : Standing} {cause : Cause}

/-- Every row of the table leads from a coherent standing to a coherent one. -/
theorem coherent (h : e.Move k s cause s') (hs : s.Coherent k) : s'.Coherent k := by
  cases h with
  | accept r call hkey hcase hcall hopens =>
      exact .opening r call hkey hcase (hs.of_no_case hcall hcase) rfl hopens
  | offer r offer hkey hcall =>
      obtain ⟨hcase, hrecord⟩ := hs.of_opens hcall (.inl rfl)
      exact .opening r _ hkey hcase hrecord rfl (.inr ⟨offer, rfl⟩)
  | noOffer r error hkey hcall =>
      obtain ⟨hcase, hrecord⟩ := hs.of_opens hcall (.inl rfl)
      exact .vacant hcase hrecord rfl
  | noNegotiation r offer error hkey hcall =>
      obtain ⟨hcase, hrecord⟩ := hs.of_opens hcall (.inr ⟨offer, rfl⟩)
      exact .vacant hcase hrecord rfl
  | register r offer n hkey hcall hcase =>
      refine .pending _ _ rfl ⟨hkey, rfl, rfl, rfl, rfl⟩ ⟨.inl rfl, rfl, rfl⟩ rfl rfl rfl
  | negotiate c n hcase hstage hown hcall =>
      obtain ⟨hfiled, ⟨hearly, record, hrecord, hown'⟩ | ⟨hlate, -⟩⟩ := hs.of_case hcall hcase
      · exact .pending _ record rfl ⟨hfiled.key, hfiled.error, hfiled.asset, hfiled.provider,
          hfiled.negotiation⟩ ⟨.inr rfl, hearly.contract, hearly.transfer⟩ hrecord hown' hcall
      · have hthen := hlate.stage
        simp [hstage] at hthen
  | confirm c record n contract hcase hstage hown hrecord hcall =>
      obtain ⟨hfiled, ⟨hearly, -⟩ | ⟨hlate, hnone⟩⟩ := hs.of_case hcall hcase
      · exact .confirming c n contract _ hcase hfiled hearly rfl rfl hown rfl
      · simp [hrecord] at hnone
  | transfer c n contract request id hcase hcall hcontract =>
      obtain ⟨-, hfiled, -, hrecord, -⟩ := hs.of_transferring hcall
      exact .confirmed _ rfl ⟨hfiled.key, hfiled.error, hfiled.asset, hfiled.provider,
        hfiled.negotiation⟩ ⟨.inl rfl, rfl, rfl⟩ hrecord rfl
  | start c hcase hstage hcall =>
      obtain ⟨hfiled, ⟨hearly, -⟩ | ⟨hlate, hrecord⟩⟩ := hs.of_case hcall hcase
      · have hthen := hearly.stage
        simp [hstage] at hthen
      · exact .confirmed _ rfl ⟨hfiled.key, hfiled.error, hfiled.asset, hfiled.provider,
          hfiled.negotiation⟩ ⟨.inr rfl, hlate.contract, hlate.transfer⟩ hrecord hcall
  | negotiationFailed | noTransfer | complete | transferFailed | evict =>
      exact .vacant rfl rfl rfl

/-- Every row of the table keeps the account of the key: a row that takes a request in starts an
opening, and each row that ends an opening or a case either registers one or publishes one terminal
message. -/
theorem balanced (h : e.Move k s cause s') (hb : s.Balanced) : s'.Balanced := by
  unfold Standing.Balanced at hb
  cases h with
  | accept r call hkey hcase hcall hopens =>
      -- one more is accepted, and it is opening
      rw [live_of_none hcase, opening_of_none hcall] at hb
      show s.accepted + 1 = s.terminals.length + s.live + _
      rw [opening_of_opens rfl hopens, live_of_none hcase]
      omega
  | offer r offer hkey hcall =>
      -- the opening goes on with its second call
      rw [opening_of_opens hcall (.inl rfl)] at hb
      show s.accepted = s.terminals.length + s.live + _
      rw [opening_of_opens rfl (.inr ⟨offer, rfl⟩), hb]
  | noOffer r error hkey hcall =>
      -- the opening turns into a terminal message, without a case in between
      rw [opening_of_opens hcall (.inl rfl)] at hb
      show s.accepted = s.terminals.length + 1 + s.live + 0
      omega
  | noNegotiation r offer error hkey hcall =>
      rw [opening_of_opens hcall (.inr ⟨offer, rfl⟩)] at hb
      show s.accepted = s.terminals.length + 1 + s.live + 0
      omega
  | register r offer n hkey hcall hcase =>
      -- the opening turns into a case
      rw [opening_of_opens hcall (.inr ⟨offer, rfl⟩), live_of_none hcase] at hb
      show s.accepted = s.terminals.length + 1 + 0
      omega
  | negotiate c n hcase hstage hown hcall =>
      rw [live_of_some hcase] at hb
      exact hb
  | confirm c record n contract hcase hstage hown hrecord hcall =>
      rw [opening_of_none hcall] at hb
      exact hb
  | transfer c n contract request id hcase hcall hcontract =>
      rw [live_of_some hcase, opening_of_transferring hcall] at hb
      exact hb
  | start c hcase hstage hcall =>
      rw [live_of_some hcase] at hb
      exact hb
  | noTransfer c m request error hcase hcall =>
      exact balanced_ended hb (live_of_some hcase) (opening_of_transferring hcall)
  | negotiationFailed c _ _ hcase _ hcall
  | complete c _ hcase _ hcall
  | transferFailed c _ hcase hcall
  | evict c _ _ hcase _ _ hcall =>
      exact balanced_ended hb (live_of_some hcase) (opening_of_none hcall)

end Engine.Move

end Rendezvous
