import Rendezvous.Proofs.DeadLetters
import Rendezvous.Proofs.Edits

/-!
# What handling a message changes

A message that is handled from beginning to end makes changes to the data of its own key.  Which
changes these are depends on what its handler reads, and that is little: the case and the record of
the key, the confirmation parked for the negotiation that begins, and offers.

* `Engine.SameFor`: the engines look the same to the handler of a message of a key;
* `Engine.Makes`: a section makes these changes and is left by this exit;
* `Engine.Local`: a section makes the same changes wherever its handler reads the same;
* `Handler.exists_local`, `exists_local_negotiation`: every section is local;
* `same_leave`: who leaves a section makes the changes that are left to do.
-/

namespace Rendezvous

/-- Whether a change can come from handling a message whose key has the record `known?` and for
which the negotiation `new?` begins. -/
def Edit.Fits (known? : Option PendingRecord) (new? : Option NegotiationId) : Edit → Prop
  | .file r => new? = some r.negotiation
  | .unfile r => known? = some r
  | _ => True

/-- What is left to do for the handler of `m` once its section is left. -/
def Exit.edits (m : Message) : Exit → List Edit
  | .done => []
  | .publish next => [.post next]
  | .record o => [.record o]
  | .fault error => (Bus.faultOf m error).toList.map .post
  | .call task => task.call?.toList.map .call

theorem Exit.fits_edits (exit : Exit) (m : Message) (known? : Option PendingRecord)
    (new? : Option NegotiationId) : ∀ ed ∈ exit.edits m, ed.Fits known? new? := by
  cases exit <;> simp [Exit.edits, Edit.Fits]

namespace Engine

variable {catalog : Catalog} {e e' e'' : Engine} {k : CorrelationKey} {n? : Option NegotiationId}

/-- The handler of a message of `k`, for which the negotiation `n?` begins, reads the same in both
engines. -/
structure SameFor (catalog : Catalog) (k : CorrelationKey) (n? : Option NegotiationId)
    (e e' : Engine) : Prop where
  now : e.now = e'.now
  destination : e.destination = e'.destination
  case? : e.store.get? k = e'.store.get? k
  record? : e.registry.records.get? k = e'.registry.records.get? k
  parked? : ∀ n, n? = some n → e.registry.parked.get? n = e'.registry.parked.get? n
  offer : ∀ asset, e.offers.valueFor catalog e.now asset = e'.offers.valueFor catalog e'.now asset

theorem SameFor.refl (e : Engine) : SameFor catalog k n? e e :=
  ⟨rfl, rfl, rfl, rfl, fun _ _ => rfl, fun _ => rfl⟩

theorem SameFor.trans (h : SameFor catalog k n? e e') (h' : SameFor catalog k n? e' e'') :
    SameFor catalog k n? e e'' where
  now := h.now.trans h'.now
  destination := h.destination.trans h'.destination
  case? := h.case?.trans h'.case?
  record? := h.record?.trans h'.record?
  parked? n hn := (h.parked? n hn).trans (h'.parked? n hn)
  offer asset := (h.offer asset).trans (h'.offer asset)

theorem Same.sameFor (h : e.Same e') : SameFor catalog k n? e e' where
  now := h.now
  destination := h.destination
  case? := h.case? k
  record? := h.registry.records k
  parked? n _ := h.registry.parked n
  offer asset := by
    rw [h.now]
    exact ExpiringMap.valueFor_congr h.offers.ttl (h.offers.entries asset)

theorem SameFor.live? (h : SameFor catalog k n? e e') : e.store.live? k = e'.store.live? k := by
  simp only [CaseStore.live?, h.case?]

/-! ## Sections -/

/-- The section makes the changes `es` to the data of `k` and is left by `exit`. -/
structure Makes (catalog : Catalog) (k : CorrelationKey) (es : List Edit) (exit : Exit) (e : Engine)
    (r : Engine × Exit) : Prop where
  same : (e.edits catalog k es).Same r.1
  exit : r.2 = exit

theorem makes_of_eq {es : List Edit} {exit : Exit} {r : Engine × Exit}
    (h : r = (e.edits catalog k es, exit)) : Makes catalog k es exit e r :=
  ⟨h ▸ .refl _, h ▸ rfl⟩

/-- To close a case is to remove it and to take its record, if it has one. -/
def closing (record? : Option PendingRecord) : List Edit :=
  .remove :: record?.toList.map .unfile

theorem close_eq_edits (catalog : Catalog) (e : Engine) (k : CorrelationKey) :
    e.close k = e.edits catalog k (closing (e.registry.records.get? k)) := by
  cases hrecord : e.registry.records.get? k with
  | none => simp [close, closing, edits, edit, e.registry.take_of_get?_eq_none k e.now hrecord]
  | some r => simp [close, closing, edits, edit, e.registry.take_of_get?_eq_some k e.now hrecord]

theorem fits_closing {known? : Option PendingRecord} {new? : Option NegotiationId} :
    ∀ ed ∈ closing known?, ed.Fits known? new? := by
  cases known? with
  | none => simp [closing, Edit.Fits]
  | some r => simp [closing, Edit.Fits]

/-- The handlers that take a lock, but for the first one. -/
inductive Handler (m : Message) : (Engine → Engine × Exit) → Prop
  | accepted (n : NegotiationId) : Handler m fun e => e.onAccepted m n
  | negotiationFailed (n : NegotiationId) (reason : String) :
      Handler m fun e => e.onNegotiationFailed m n reason
  | confirmed (n : NegotiationId) (contract : ContractId) :
      Handler m fun e => e.onConfirmed m n contract
  | transferStarted : Handler m fun e => e.onTransferStarted m
  | dataReference (reference : DataReference) : Handler m fun e => e.onDataReference m reference
  | transferFailed (reason : String) : Handler m fun e => e.onTransferFailed m reason
  | fault (text : String) : Handler m fun e => e.onFault m text
  /-- The message is not for this channel. -/
  | drop : Handler m fun e => (e, .done)

/-- A message is a request, or has another handler. -/
theorem request_or_handler (m : Message) :
    (∃ r, m = .ofRequest r) ∨ ∃ f, Handler m f ∧ ∀ e : Engine, e.handle m = f e := by
  obtain ⟨key, channel, payload⟩ := m
  cases channel with
  | initial =>
      cases payload with
      | request asset provider => exact .inl ⟨{ key, asset, provider }, rfl⟩
      | _ => exact .inr ⟨_, .drop, fun _ => rfl⟩
  | contractNegotiation =>
      cases payload with
      | negotiationAccepted n => exact .inr ⟨_, .accepted n, fun _ => rfl⟩
      | negotiationFailed n reason => exact .inr ⟨_, .negotiationFailed n reason, fun _ => rfl⟩
      | _ => exact .inr ⟨_, .drop, fun _ => rfl⟩
  | contractConfirmation =>
      cases payload with
      | contractConfirmed n contract => exact .inr ⟨_, .confirmed n contract, fun _ => rfl⟩
      | _ => exact .inr ⟨_, .drop, fun _ => rfl⟩
  | dataReference =>
      cases payload with
      | transferStarted => exact .inr ⟨_, .transferStarted, fun _ => rfl⟩
      | dataReference reference => exact .inr ⟨_, .dataReference reference, fun _ => rfl⟩
      | transferFailed reason => exact .inr ⟨_, .transferFailed reason, fun _ => rfl⟩
      | _ => exact .inr ⟨_, .drop, fun _ => rfl⟩
  | result => exact .inr ⟨_, .drop, fun _ => rfl⟩
  | dlq =>
      cases payload with
      | fault text => exact .inr ⟨_, .fault text, fun _ => rfl⟩
      | _ => exact .inr ⟨_, .drop, fun _ => rfl⟩

/-- The section `f` makes the changes `es` and is left by `exit` wherever its handler reads what it
reads in `e`. -/
structure Local (catalog : Catalog) (m : Message) (n? : Option NegotiationId) (e : Engine)
    (f : Engine → Engine × Exit) (es : List Edit) (exit : Exit) : Prop where
  fits : ∀ ed ∈ es, ed.Fits (e.registry.records.get? m.key) n?
  /-- Who stays inside has taken the record of its case and asks for the transfer. -/
  stays : ∀ task, exit = .call task → ∃ c request r, task = .transferring m c request ∧
    e.registry.records.get? m.key = some r ∧ es = [.unfile r]
  makes : ∀ e', SameFor catalog m.key n? e e' → Makes catalog m.key es exit e' (f e')

section

variable {m : Message} {f : Engine → Engine × Exit}

/-- A section that does nothing. -/
theorem local_done (hf : ∀ e', SameFor catalog m.key n? e e' → f e' = (e', .done)) :
    Local catalog m n? e f [] .done where
  fits := by simp
  stays := by simp
  makes e' h := makes_of_eq (hf e' h)

/-- A section that moves the case on. -/
theorem local_put (c : Case)
    (hf : ∀ e', SameFor catalog m.key n? e e' →
      f e' = ({ e' with store := e'.store.put m.key c }, .done)) :
    Local catalog m n? e f [.put c] .done where
  fits := by simp [Edit.Fits]
  stays := by simp
  makes e' h := makes_of_eq (hf e' h)

/-- A section that closes the case. -/
theorem local_close {exit : Exit} (hexit : ∀ task, exit ≠ .call task)
    (hf : ∀ e', SameFor catalog m.key n? e e' → f e' = (e'.close m.key, exit)) :
    Local catalog m n? e f (closing (e.registry.records.get? m.key)) exit where
  fits := fits_closing
  stays task h := absurd h (hexit task)
  makes e' h := by
    refine makes_of_eq ?_
    rw [hf e' h, close_eq_edits catalog, h.record?]

/-- A section that does nothing without a live case. -/
theorem exists_local_of_live
    (hnone : ∀ e' : Engine, e'.store.live? m.key = none → f e' = (e', .done))
    (hsome : ∀ c, e.store.live? m.key = some c → ∃ es exit, Local catalog m n? e f es exit) :
    ∃ es exit, Local catalog m n? e f es exit := by
  cases hlive : e.store.live? m.key with
  | none => exact ⟨[], .done, local_done fun e' h => hnone e' (h.live?.symm.trans hlive)⟩
  | some c => exact hsome c hlive

/-- What a section does depends on what its handler reads only. -/
theorem Handler.exists_local (hm : Handler m f) (catalog : Catalog) (n? : Option NegotiationId)
    (e : Engine) : ∃ es exit, Local catalog m n? e f es exit := by
  cases hm with
  | accepted n =>
      refine exists_local_of_live (fun e' hnone => by simp [onAccepted, hnone]) fun c hlive => ?_
      by_cases hfits : c.stage = .started ∧ c.concerns n
      · refine ⟨_, _, local_put (c.advance .negotiating) fun e' h => ?_⟩
        simp [onAccepted, h.live?.symm.trans hlive, hfits]
      · refine ⟨_, _, local_done fun e' h => ?_⟩
        simp [onAccepted, h.live?.symm.trans hlive, hfits]
  | negotiationFailed n reason =>
      refine exists_local_of_live (fun e' hnone => by simp [onNegotiationFailed, hnone])
        fun c hlive => ?_
      by_cases hfits : c.concerns n
      · refine ⟨_, .publish (.failed m.key (.negotiationFailed reason)),
          local_close (by simp) fun e' h => ?_⟩
        simp [onNegotiationFailed, h.live?.symm.trans hlive, hfits, fail]
      · refine ⟨_, _, local_done fun e' h => ?_⟩
        simp [onNegotiationFailed, h.live?.symm.trans hlive, hfits]
  | confirmed n contract =>
      refine exists_local_of_live (fun e' hnone => by simp [onConfirmed, hnone]) fun c hlive => ?_
      by_cases hfits : (c.stage = .started ∨ c.stage = .negotiating) ∧ c.concerns n
      · cases hrecord : e.registry.records.get? m.key with
        | none =>
            refine ⟨[], .fault (.pendingNotFound m.key), by simp, by simp, fun e' h => ?_⟩
            have htake := e'.registry.take_of_get?_eq_none m.key e'.now (h.record? ▸ hrecord)
            exact makes_of_eq (by simp [onConfirmed, h.live?.symm.trans hlive, hfits, htake])
        | some r =>
            refine ⟨[.unfile r], .call (.transferring m c
              { contract
                asset := r.offer.asset
                provider := r.offer.provider
                destination := .correlated e.destination m.key }), ?_, ?_, fun e' h => ?_⟩
            · simp [Edit.Fits, hrecord]
            · intro task htask
              cases htask
              exact ⟨c, _, r, rfl, hrecord, rfl⟩
            · have htake := e'.registry.take_of_get?_eq_some m.key e'.now (h.record? ▸ hrecord)
              refine makes_of_eq ?_
              simp [onConfirmed, h.live?.symm.trans hlive, hfits, htake, h.destination, edits, edit]
      · refine ⟨_, _, local_done fun e' h => ?_⟩
        simp [onConfirmed, h.live?.symm.trans hlive, hfits]
  | transferStarted =>
      refine exists_local_of_live (fun e' hnone => by simp [onTransferStarted, hnone])
        fun c hlive => ?_
      by_cases hfits : c.stage = .confirmed
      · refine ⟨_, _, local_put (c.advance .transferring) fun e' h => ?_⟩
        simp [onTransferStarted, h.live?.symm.trans hlive, hfits]
      · refine ⟨_, _, local_done fun e' h => ?_⟩
        simp [onTransferStarted, h.live?.symm.trans hlive, hfits]
  | dataReference reference =>
      refine exists_local_of_live (fun e' hnone => by simp [onDataReference, hnone])
        fun c hlive => ?_
      by_cases hfits : c.stage = .confirmed ∨ c.stage = .transferring
      · refine ⟨[.remove],
          .publish { key := m.key, channel := .result, payload := .completed reference },
          by simp [Edit.Fits], by simp, fun e' h => makes_of_eq ?_⟩
        simp [onDataReference, h.live?.symm.trans hlive, hfits, edits, edit]
      · refine ⟨_, _, local_done fun e' h => ?_⟩
        simp [onDataReference, h.live?.symm.trans hlive, hfits]
  | transferFailed reason =>
      refine exists_local_of_live (fun e' hnone => by simp [onTransferFailed, hnone])
        fun c hlive => ?_
      refine ⟨_, .publish (.failed m.key (.transferFailed reason)),
        local_close (by simp) fun e' h => ?_⟩
      simp [onTransferFailed, h.live?.symm.trans hlive, fail]
  | fault text =>
      exact ⟨_, .record (.error (.internal text)), local_close (by simp) fun e' h => rfl⟩
  | drop => exact ⟨_, _, local_done fun e' h => rfl⟩

/-! ## Answers -/

/-- Events that neither publish a message nor call a service do not show in the data. -/
theorem same_of_news {evs : List Event} (hnow : e'.now = e.now)
    (hdestination : e'.destination = e.destination) (hcases : e'.store.cases = e.store.cases)
    (hregistry : e'.registry = e.registry) (hoffers : e'.offers = e.offers)
    (hboard : e'.board = e.board) (hbus : e'.bus = e.bus)
    (hhistory : e'.history = evs ++ e.history)
    (hquiet : ∀ ev ∈ evs, ev.message? = none ∧ ev.call? = none) : e.Same e' where
  now := hnow.symm
  destination := hdestination.symm
  case? k := by simp only [CaseStore.get?, hcases]
  registry := hregistry ▸ .refl _
  offers := hoffers ▸ .refl _
  outcomes := hboard ▸ .refl _
  isOpen := by rw [hbus]
  queue := by rw [hbus]
  published := by
    have hposted : Event.posted e'.history = Event.posted e.history :=
      view_of_silent (fun ev hmem => (hquiet ev hmem).1) hhistory
    exact hposted ▸ .refl _
  called := by
    have hcalled : e'.called = e.called :=
      view_of_silent (fun ev hmem => (hquiet ev hmem).2) hhistory
    exact hcalled ▸ .refl _

/-- What becomes of a negotiation that was asked for depends on what its handler reads only. -/
theorem exists_local_negotiation (catalog : Catalog) (a : Answers) {r : DataRequest}
    (offer : ContractOffer) (hcase : e.store.get? r.key = none) :
    ∃ es exit, Local catalog (.ofRequest r) a.negotiation? e
      (fun e' => e'.onNegotiation (.ofRequest r) r.asset r.provider offer a.negotiation) es exit ∧
      ∀ task, exit ≠ .call task := by
  cases hanswer : a.negotiation with
  | error error =>
      refine ⟨[], .publish (.failed r.key (.negotiationFailed error.message)),
        ⟨by simp, by simp, fun e' h => ?_⟩, by simp⟩
      exact makes_of_eq rfl
  | ok n =>
      have hbegins : a.negotiation? = some n := by
        simp [Answers.negotiation?, hanswer, Except.toOption]
      cases hrecord : e.registry.records.get? r.key with
      | some old =>
          refine ⟨[], .fault (.duplicatePending r.key), ⟨by simp, by simp, fun e' h => ?_⟩, by simp⟩
          have hstore : e'.registry.store r.key { offer, negotiation := n } =
              .error (.duplicatePending r.key) := by
            have hrecord' := h.record?.symm.trans hrecord
            simp [Registry.store, Assoc.contains, Message.ofRequest] at hrecord' ⊢
            simp [hrecord']
          refine makes_of_eq ?_
          simp [onNegotiation, Message.ofRequest, hstore]
      | none =>
          refine ⟨[.file { offer, negotiation := n }, .put (.ofRequest r n e.now)],
            .ofFollowUp (e.replay? r.key n), ⟨?_, ?_, fun e' h => ?_⟩, ?_⟩
          · simp [Edit.Fits, hbegins]
          · cases e.replay? r.key n <;> simp [Exit.ofFollowUp]
          · have hcase' : e'.store.get? r.key = none := h.case?.symm.trans hcase
            have hrecord' : e'.registry.records.get? r.key = none := h.record?.symm.trans hrecord
            have hreplay : e'.replay? r.key n = e.replay? r.key n := by
              simp [replay?, h.parked? n hbegins]
            rw [onNegotiation_ok offer n hcase' hrecord', hreplay, h.now]
            have hquiet : ∀ ev ∈ [Event.registered r.key],
                ev.message? = none ∧ ev.call? = none := by simp [Event.message?, Event.call?]
            exact ⟨same_of_news rfl rfl rfl rfl rfl rfl rfl rfl hquiet, rfl⟩
          · cases e.replay? r.key n <;> simp [Exit.ofFollowUp]

/-- What becomes of a transfer that was asked for does not depend on what its handler reads, once
the record is taken. -/
theorem exists_makes_transfer (catalog : Catalog) (m : Message) (a : Answers) (c : Case)
    (contract : ContractId) :
    ∃ es exit, (∀ task, exit ≠ .call task) ∧ (∀ ed ∈ es, ∀ known? new?, ed.Fits known? new?) ∧
      ∀ e : Engine, e.registry.records.get? m.key = none →
        Makes catalog m.key es exit e (e.onTransfer m c contract a.transfer) := by
  cases a.transfer with
  | error error =>
      refine ⟨[.remove], .publish (.failed m.key (.transferFailed error.message)), by simp,
        by simp [Edit.Fits], fun e hrecord => makes_of_eq ?_⟩
      have hclose := close_eq_edits catalog e m.key
      rw [hrecord] at hclose
      simp [onTransfer, fail, hclose, closing]
  | ok transfer =>
      exact ⟨[.put (c.confirm contract transfer)], .done, by simp, by simp [Edit.Fits],
        fun e _ => makes_of_eq rfl⟩

end

/-! ## A section is left -/

theorem same_note {ev : Event} (hmessage : ev.message? = none) (hcall : ev.call? = none) :
    e.Same (e.note ev) := by
  have hquiet : ∀ ev' ∈ [ev], ev'.message? = none ∧ ev'.call? = none := by simp [hmessage, hcall]
  exact same_of_news rfl rfl rfl rfl rfl rfl rfl rfl hquiet

theorem same_finish (e : Engine) (t : TaskId) (f : Finish) : e.Same (e.finish t f) := by
  have hquiet : ∀ ev ∈ [Event.finished t f], ev.message? = none ∧ ev.call? = none := by
    simp [Event.message?, Event.call?]
  exact same_of_news rfl rfl rfl rfl rfl rfl rfl rfl hquiet

theorem same_setTask (e : Engine) (t : TaskId) (task : Task) : e.Same (e.setTask t task) :=
  same_of_news rfl rfl rfl rfl rfl rfl rfl (List.nil_append _).symm (by simp)

theorem same_leaveLock (e : Engine) (t : TaskId) (k : CorrelationKey) :
    e.Same (e.leaveLock t k) := by
  have hquiet : ∀ ev ∈ (e.store.locks.heir? k t).toList.map Event.granted,
      ev.message? = none ∧ ev.call? = none := by simp [Event.message?, Event.call?]
  exact same_of_news (by simp) (by simp) (by simp) (by simp) (by simp) (by simp) (by simp)
    (by simp) hquiet

/-- A handler that goes wrong posts a dead letter, if it may. -/
theorem same_finishHandler (catalog : Catalog) (e : Engine) (t : TaskId) (m : Message)
    (error? : Option EngineError) :
    (e.edits catalog m.key ((error?.bind (Bus.faultOf m)).toList.map .post)).Same
      (e.finishHandler t m error?) := by
  cases error? with
  | none => exact same_finish e t .handled
  | some error =>
      have hnote : e.Same (e.note (.faulted m error)) := same_note rfl rfl
      cases hfault : Bus.faultOf m error with
      | none =>
          simpa [hfault, finishHandler] using hnote.trans (same_finish _ t .handled)
      | some dead =>
          have hpost := hnote.edit catalog m.key (.post dead)
          simpa [hfault, finishHandler, edit] using hpost.trans (same_finish _ t .handled)

/-- Leaving a section shows in the data as what the exit says. -/
theorem same_leave (catalog : Catalog) (e : Engine) (t : TaskId) (m : Message) (exit : Exit) :
    (e.edits catalog m.key (exit.edits m)).Same (e.leave t m exit) := by
  have hleave := same_leaveLock e t m.key
  cases exit with
  | done => exact hleave.trans (same_finishHandler catalog _ t m none)
  | publish next =>
      have hpost := hleave.edit catalog m.key (.post next)
      refine hpost.trans (.trans ?_ (same_finishHandler catalog _ t m _))
      cases hopen : e.bus.isOpen with
      | true => simpa [Bus.refusal?, hopen] using .refl _
      | false =>
          -- A closed bus takes the fault of the message that it refused no more than the message.
          have hclosed : ∀ dead, ((e.leaveLock t m.key).publish next).publish dead =
              (e.leaveLock t m.key).publish next := by
            intro dead
            simp [publish, hopen]
          cases hfault : Bus.faultOf m .busClosed with
          | none => simpa [Bus.refusal?, hopen, hfault] using .refl _
          | some dead =>
              simpa [Bus.refusal?, hopen, hfault, edit, hclosed] using .refl _
  | record o =>
      have hrecord := hleave.edit catalog m.key (.record o)
      exact hrecord.trans (same_finishHandler catalog _ t m none)
  | fault error =>
      have hfault := hleave.edits catalog m.key ((Bus.faultOf m error).toList.map .post)
      exact hfault.trans (same_finishHandler catalog _ t m (some error))
  | call task =>
      have hset := same_setTask e t task
      cases hcall : task.call? with
      | none => simpa [Exit.edits, leave, hcall] using hset
      | some call =>
          simpa [Exit.edits, leave, hcall, edit] using hset.edit catalog m.key (.call call)

end Engine

end Rendezvous
