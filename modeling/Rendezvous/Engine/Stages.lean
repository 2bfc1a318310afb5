import Rendezvous.Engine.State

/-!
# The stages of a case

Each stage of a case has a handler.  A handler that changes a case does so in one critical section
under the lock of the key: it checks that the event fits the case, calls at most one service at a
time, and leaves the section by one of a few exits.  `Exit` lists them; `Engine.leave` gives the
lock back at each exit but the one that waits for a service, before anything is published.  An event
that does not fit is dropped.
-/

namespace Rendezvous

/-- How a critical section is left. -/
inductive Exit
  /-- Nothing more to do. -/
  | done
  /-- Publish a follow-up. -/
  | publish (m : Message)
  /-- Record an outcome. -/
  | record (o : Outcome)
  /-- The handler goes wrong. -/
  | fault (e : EngineError)
  /-- Stay inside and wait for the reply to the call of `task`. -/
  | call (task : Task)

namespace Engine

/-- Ends the task of a handler; an error is sent to the dead letters. -/
def finishHandler (e : Engine) (t : TaskId) (m : Message) (error? : Option EngineError) : Engine :=
  match error? with
  | none => e.finish t .handled
  | some error =>
      let e := e.note (.faulted m error)
      let e := match Bus.faultOf m error with
        | some dead => e.publish dead
        | none => e
      e.finish t .handled

/-- Leaves the critical section of the handler of `m`. -/
def leave (e : Engine) (t : TaskId) (m : Message) : Exit → Engine
  | .done => (e.leaveLock t m.key).finishHandler t m none
  | .publish next =>
      let e := e.leaveLock t m.key
      (e.publish next).finishHandler t m e.bus.refusal?
  | .record o => ((e.leaveLock t m.key).record m.key o).finishHandler t m none
  | .fault error => (e.leaveLock t m.key).finishHandler t m (some error)
  | .call task =>
      match task.call? with
      | some call => (e.setTask t task).note (.called call)
      | none => e.setTask t task

/-- Closes the case of `key` as failed and sends the reason to the dead letters. -/
def fail (e : Engine) (key : CorrelationKey) (reason : FailureReason) : Engine × Exit :=
  (e.close key, .publish (.failed key reason))

/-- First stage: a request for a key without a case asks for an offer, unless one is cached. -/
def onRequest (e : Engine) (m : Message) (asset : AssetId) (provider : String) : Engine × Exit :=
  match e.store.get? m.key with
  | some _ => (e, .done)
  | none =>
      let (offer?, offers) := e.offers.get e.now (provider, asset)
      let e := ({ e with offers }).note (.accepted m.key)
      match offer? with
      | some offer => (e, .call (.negotiating m asset provider offer))
      | none => (e, .call (.resolving m asset provider))

/-- The catalog has answered: keep the offer and ask for a negotiation, or reject the request. -/
def onOffer (e : Engine) (m : Message) (asset : AssetId) (provider : String) :
    Except EngineError ContractOffer → Engine × Exit
  | .error error => (e, .publish (.failed m.key (.offerUnavailable error.message)))
  | .ok offer =>
      ({ e with offers := e.offers.insert e.now (provider, asset) offer },
        .call (.negotiating m asset provider offer))

/-- The negotiation has begun: store its record, register the case and replay a confirmation that
came early; or reject the request. -/
def onNegotiation (e : Engine) (m : Message) (asset : AssetId) (provider : String)
    (offer : ContractOffer) : Except EngineError NegotiationId → Engine × Exit
  | .error error => (e, .publish (.failed m.key (.negotiationFailed error.message)))
  | .ok negotiation =>
      match e.registry.store m.key { offer, negotiation } with
      | .error error => (e, .fault error)
      | .ok (parked?, registry) =>
          let e := { e with registry }
          let data : CaseData :=
            { asset := some asset, provider := some provider, negotiation := some negotiation }
          match e.store.register m.key { key := m.key, data, createdAt := e.now } with
          | .error error => (e, .fault error)
          | .ok store =>
              let e := ({ e with store }).note (.registered m.key)
              match parked? with
              | none => (e, .done)
              | some contract =>
                  (e, .publish
                    { key := m.key
                      channel := .contractConfirmation
                      payload := .contractConfirmed negotiation contract })

/-- An acceptance moves a started case on; it is bookkeeping only and may never come. -/
def onAccepted (e : Engine) (m : Message) (n : NegotiationId) : Engine × Exit :=
  match e.store.live? m.key with
  | none => (e, .done)
  | some c =>
      if c.stage = .started && c.concerns n then
        ({ e with store := e.store.put m.key (c.advance .negotiating) }, .done)
      else (e, .done)

/-- A failed negotiation fails its case. -/
def onNegotiationFailed (e : Engine) (m : Message) (n : NegotiationId) (reason : String) :
    Engine × Exit :=
  match e.store.live? m.key with
  | none => (e, .done)
  | some c => if c.concerns n then e.fail m.key (.negotiationFailed reason) else (e, .done)

/-- A confirmation takes the record of its negotiation and asks for the transfer. -/
def onConfirmed (e : Engine) (m : Message) (n : NegotiationId) (contract : ContractId) :
    Engine × Exit :=
  match e.store.live? m.key with
  | none => (e, .done)
  | some c =>
      if (c.stage = .started || c.stage = .negotiating) && c.concerns n then
        match e.registry.take e.now m.key with
        | (none, _) => (e, .fault (.pendingNotFound m.key))
        | (some record, registry) =>
            let request : TransferRequest :=
              { contract
                asset := record.offer.asset
                provider := record.offer.provider
                destination := .correlated e.destination m.key }
            ({ e with registry }, .call (.transferring m c request))
      else (e, .done)

/-- The transfer has begun, or its refusal fails the case. -/
def onTransfer (e : Engine) (m : Message) (c : Case) (contract : ContractId) :
    Except EngineError TransferProcessId → Engine × Exit
  | .error error => e.fail m.key (.transferFailed error.message)
  | .ok transfer =>
      let data := { c.data with contract := some contract, transfer := some transfer }
      let confirmed := ({ c with data }).advance .confirmed
      ({ e with store := e.store.put m.key confirmed }, .done)

/-- A transfer that starts moves a confirmed case on. -/
def onTransferStarted (e : Engine) (m : Message) : Engine × Exit :=
  match e.store.live? m.key with
  | none => (e, .done)
  | some c =>
      if c.stage = .confirmed then
        ({ e with store := e.store.put m.key (c.advance .transferring) }, .done)
      else (e, .done)

/-- A data reference completes a case whose transfer is under way. -/
def onDataReference (e : Engine) (m : Message) (reference : DataReference) : Engine × Exit :=
  match e.store.live? m.key with
  | none => (e, .done)
  | some c =>
      if c.stage = .confirmed || c.stage = .transferring then
        ({ e with store := e.store.remove m.key },
          .publish { key := m.key, channel := .result, payload := .completed reference })
      else (e, .done)

/-- A failed transfer fails the case. -/
def onTransferFailed (e : Engine) (m : Message) (reason : String) : Engine × Exit :=
  match e.store.live? m.key with
  | none => (e, .done)
  | some _ => e.fail m.key (.transferFailed reason)

/-- A fault closes whatever its key still has, and is the outcome. -/
def onFault (e : Engine) (m : Message) (text : String) : Engine × Exit :=
  (e.close m.key, .record (.error (.internal text)))

/-- The critical section for a message. -/
def handle (e : Engine) (m : Message) : Engine × Exit :=
  match m.channel, m.payload with
  | .initial, .request asset provider => e.onRequest m asset provider
  | .contractNegotiation, .negotiationAccepted n => e.onAccepted m n
  | .contractNegotiation, .negotiationFailed n reason => e.onNegotiationFailed m n reason
  | .contractConfirmation, .contractConfirmed n contract => e.onConfirmed m n contract
  | .dataReference, .transferStarted => e.onTransferStarted m
  | .dataReference, .dataReference reference => e.onDataReference m reference
  | .dataReference, .transferFailed reason => e.onTransferFailed m reason
  | .dlq, .fault text => e.onFault m text
  | _, _ => (e, .done)

end Engine

/-- Whether the handler of a message takes the lock of its key. -/
def Message.needsLock (m : Message) : Bool :=
  match m.channel, m.payload with
  | .initial, .request .. => true
  | .contractNegotiation, _ => true
  | .contractConfirmation, .contractConfirmed .. => true
  | .dataReference, _ => true
  | .dlq, .fault _ => true
  | _, _ => false

end Rendezvous
