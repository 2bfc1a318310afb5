import Rendezvous.Proofs.Standing

/-!
# What a handler does

A handler runs in the critical section of the key of its message.  Two facts about it are enough for
everything else:

* `handle_contained`: it changes the data of its own key only, and neither tasks, locks nor bus;
* `handle_advances`: on a coherent key it does nothing at all, or moves the key by one row of the
  transition table, and leaves the section by a proper exit.

The answers of the services come to the same section, so the same facts hold of them
(`onOffer_settles`, `onNegotiation_settles`, `onTransfer_settles`).
-/

namespace Rendezvous

/-- A message that belongs on its channel.  A dead letter that reports an internal failure does not:
it would mean that a handler went wrong. -/
def Message.isRegular (m : Message) : Bool :=
  match m.channel, m.payload with
  | .initial, .request .. => true
  | .contractNegotiation, .negotiationAccepted _ => true
  | .contractNegotiation, .negotiationFailed .. => true
  | .contractConfirmation, .contractConfirmed .. => true
  | .dataReference, .transferStarted => true
  | .dataReference, .dataReference _ => true
  | .dataReference, .transferFailed _ => true
  | .result, .completed _ => true
  | .dlq, .failed (.internal _) => false
  | .dlq, .failed _ => true
  | _, _ => false

/-- An exit by which a handler of a coherent key can leave: no fault, nothing recorded past the
board's own handlers, and only regular messages. -/
def Exit.Proper (k : CorrelationKey) : Exit → Prop
  | .done => True
  | .publish next => next.key = k ∧ next.isRegular
  | .call task => task.key? = some k ∧ task.call?.isSome
  | .record _ | .fault _ => False

/-- The standing of a key after a handler has left its section. -/
def Standing.leave (s : Standing) : Exit → Standing
  | .publish next =>
      { s with
        call? := none
        terminals := if next.isTerminal then next :: s.terminals else s.terminals }
  | .call task => { s with call? := some task }
  | _ => { s with call? := none }

namespace Engine

/-- What a section of `k` may change: the data of `k`, and the offers. -/
structure Contained (e : Engine) (k : CorrelationKey) (r : Engine × Exit) : Prop where
  now : r.1.now = e.now
  destination : r.1.destination = e.destination
  ttl : r.1.store.ttl = e.store.ttl
  locks : r.1.store.locks = e.store.locks
  tasks : r.1.tasks = e.tasks
  nextTask : r.1.nextTask = e.nextTask
  bus : r.1.bus = e.bus
  board : r.1.board = e.board
  cases : ∀ k', k' ≠ k → r.1.store.get? k' = e.store.get? k'
  records : ∀ k', k' ≠ k → r.1.registry.records.get? k' = e.registry.records.get? k'
  news : ∃ evs, r.1.history = evs ++ e.history ∧
    ∀ ev ∈ evs, ev = .accepted k ∨ ev = .registered k

namespace Contained

variable {e : Engine} {k : CorrelationKey} {r : Engine × Exit}

theorem refl (e : Engine) (k : CorrelationKey) (exit : Exit) : Contained e k (e, exit) :=
  ⟨rfl, rfl, rfl, rfl, rfl, rfl, rfl, rfl, fun _ _ => rfl, fun _ _ => rfl, [], rfl, by simp⟩

theorem others (h : Contained e k r) {k' : CorrelationKey} (hne : k' ≠ k) :
    r.1.standing k' = e.standing k' := by
  obtain ⟨evs, hnews, hown⟩ := h.news
  have haccepted : evs.count (.accepted k') = 0 := by
    refine List.count_eq_zero.mpr fun hmem => ?_
    have hev := hown _ hmem
    simp [hne] at hev
  have hterminals : r.1.terminals k' = e.terminals k' := by
    refine view_of_silent (fun ev hmem => ?_) hnews
    rcases hown ev hmem with rfl | rfl <;> rfl
  ext1
  · exact h.cases k' hne
  · exact h.records k' hne
  · exact callAt?_congr h.tasks h.locks k'
  · simp [standing, accepted, hnews, List.count_append, haccepted]
  · exact hterminals

end Contained

/-! ## Sections are contained -/

variable (e : Engine) (m : Message)

theorem onRequest_contained (asset : AssetId) (provider : String) :
    Contained e m.key (e.onRequest m asset provider) := by
  unfold onRequest
  cases hcase : e.store.get? m.key with
  | some c => exact .refl e _ _
  | none =>
      dsimp only
      cases (e.offers.get e.now (provider, asset)).1 <;>
        exact ⟨rfl, rfl, rfl, rfl, rfl, rfl, rfl, rfl, fun _ _ => rfl, fun _ _ => rfl,
          [.accepted m.key], rfl, by simp⟩

theorem onOffer_contained (asset : AssetId) (provider : String)
    (answer : Except EngineError ContractOffer) :
    Contained e m.key (e.onOffer m asset provider answer) := by
  cases answer with
  | error error => exact .refl e _ _
  | ok offer =>
      exact ⟨rfl, rfl, rfl, rfl, rfl, rfl, rfl, rfl, fun _ _ => rfl, fun _ _ => rfl, [], rfl,
        by simp⟩

/-- Replacing or removing the case of a key, and taking its record, is contained. -/
theorem contained_of_store {store : CaseStore} {registry : Registry} (exit : Exit)
    (k : CorrelationKey) (httl : store.ttl = e.store.ttl) (hlocks : store.locks = e.store.locks)
    (hcases : ∀ k', k' ≠ k → store.get? k' = e.store.get? k')
    (hrecords : ∀ k', k' ≠ k → registry.records.get? k' = e.registry.records.get? k') :
    Contained e k ({ e with store, registry }, exit) :=
  ⟨rfl, rfl, httl, hlocks, rfl, rfl, rfl, rfl, hcases, hrecords, [], rfl, by simp⟩

theorem put_contained (c : Case) (exit : Exit) (k : CorrelationKey) :
    Contained e k ({ e with store := e.store.put k c }, exit) :=
  contained_of_store e exit k rfl rfl
    (fun k' hne => by rw [CaseStore.get?_put, if_neg (Ne.symm hne)]) fun _ _ => rfl

theorem remove_contained (exit : Exit) (k : CorrelationKey) :
    Contained e k ({ e with store := e.store.remove k }, exit) :=
  contained_of_store e exit k rfl rfl
    (fun k' hne => by rw [CaseStore.get?_remove, if_neg hne]) fun _ _ => rfl

theorem take_contained (exit : Exit) (k : CorrelationKey) :
    Contained e k ({ e with registry := (e.registry.take e.now k).2 }, exit) :=
  contained_of_store e exit k rfl rfl (fun _ _ => rfl)
    fun k' hne => by rw [Registry.get?_records_take, if_neg hne]

theorem close_contained (exit : Exit) (k : CorrelationKey) :
    Contained e k (e.close k, exit) :=
  contained_of_store e exit k rfl rfl
    (fun k' hne => by rw [CaseStore.get?_remove, if_neg hne])
    fun k' hne => by rw [Registry.get?_records_take, if_neg hne]

theorem onNegotiation_contained (asset : AssetId) (provider : String) (offer : ContractOffer)
    (answer : Except EngineError NegotiationId) :
    Contained e m.key (e.onNegotiation m asset provider offer answer) := by
  cases answer with
  | error error => exact .refl e _ _
  | ok n =>
      unfold onNegotiation Registry.store CaseStore.register
      dsimp only
      by_cases hrecord : e.registry.records.contains m.key
      · simp only [hrecord, if_true]
        exact .refl e _ _
      · have hrecords : ∀ k', k' ≠ m.key →
            (e.registry.records.insert m.key { offer, negotiation := n }).get? k' =
              e.registry.records.get? k' := by
          intro k' hne
          simp [Ne.symm hne]
        by_cases hcase : e.store.cases.contains m.key
        · simp only [hrecord, hcase, if_true, if_false, Bool.false_eq_true]
          exact contained_of_store e _ m.key rfl rfl (fun _ _ => rfl) hrecords
        · simp only [hrecord, hcase, if_false, Bool.false_eq_true]
          cases (e.registry.parked.get? n).map ParkedConfirmation.contract <;>
            exact ⟨rfl, rfl, rfl, rfl, rfl, rfl, rfl, rfl,
              fun k' hne => by simp [CaseStore.get?, Ne.symm hne], hrecords,
              [.registered m.key], rfl, by simp⟩

theorem onAccepted_contained (n : NegotiationId) :
    Contained e m.key (e.onAccepted m n) := by
  unfold onAccepted
  cases e.store.live? m.key with
  | none => exact .refl e _ _
  | some c =>
      dsimp only
      split
      · exact put_contained e _ _ _
      · exact .refl e _ _

theorem onNegotiationFailed_contained (n : NegotiationId) (reason : String) :
    Contained e m.key (e.onNegotiationFailed m n reason) := by
  unfold onNegotiationFailed
  cases e.store.live? m.key with
  | none => exact .refl e _ _
  | some c =>
      dsimp only
      split
      · exact close_contained e _ _
      · exact .refl e _ _

theorem onConfirmed_contained (n : NegotiationId) (contract : ContractId) :
    Contained e m.key (e.onConfirmed m n contract) := by
  unfold onConfirmed
  cases e.store.live? m.key with
  | none => exact .refl e _ _
  | some c =>
      dsimp only
      split
      · cases htake : e.registry.take e.now m.key with
        | mk record? registry =>
            have hregistry : registry = (e.registry.take e.now m.key).2 := by rw [htake]
            cases record? with
            | none => exact .refl e _ _
            | some record =>
                subst hregistry
                exact take_contained e _ _
      · exact .refl e _ _

theorem onTransfer_contained (c : Case) (contract : ContractId)
    (answer : Except EngineError TransferProcessId) :
    Contained e m.key (e.onTransfer m c contract answer) := by
  cases answer with
  | error error => exact close_contained e _ _
  | ok id => exact put_contained e _ _ _

theorem onTransferStarted_contained : Contained e m.key (e.onTransferStarted m) := by
  unfold onTransferStarted
  cases e.store.live? m.key with
  | none => exact .refl e _ _
  | some c =>
      dsimp only
      split
      · exact put_contained e _ _ _
      · exact .refl e _ _

theorem onDataReference_contained (reference : DataReference) :
    Contained e m.key (e.onDataReference m reference) := by
  unfold onDataReference
  cases e.store.live? m.key with
  | none => exact .refl e _ _
  | some c =>
      dsimp only
      split
      · exact remove_contained e _ _
      · exact .refl e _ _

theorem onTransferFailed_contained (reason : String) :
    Contained e m.key (e.onTransferFailed m reason) := by
  unfold onTransferFailed
  cases e.store.live? m.key with
  | none => exact .refl e _ _
  | some c => exact close_contained e _ _

/-- The section of a message changes nothing but the data of its key. -/
theorem handle_contained : Contained e m.key (e.handle m) := by
  unfold handle
  split
  · exact onRequest_contained e m _ _
  · exact onAccepted_contained e m _
  · exact onNegotiationFailed_contained e m _ _
  · exact onConfirmed_contained e m _ _
  · exact onTransferStarted_contained e m
  · exact onDataReference_contained e m _
  · exact onTransferFailed_contained e m _
  · exact close_contained e _ _
  · exact .refl e _ _

/-! ## Sections move their key by the table -/

variable {e : Engine} {m : Message} {k : CorrelationKey}

theorem standing_put (e : Engine) (k : CorrelationKey) (c : Case) :
    ({ e with store := e.store.put k c } : Engine).standing k =
      { e.standing k with case? := some c } := by
  have hcase : (e.store.put k c).get? k = some c := by simp
  exact congrArg (fun case? => { e.standing k with case? }) hcase

theorem standing_remove (e : Engine) (k : CorrelationKey) :
    ({ e with store := e.store.remove k } : Engine).standing k =
      { e.standing k with case? := none } := by
  have hcase : (e.store.remove k).get? k = none := by simp
  exact congrArg (fun case? => { e.standing k with case? }) hcase

theorem standing_take (e : Engine) (k : CorrelationKey) :
    ({ e with registry := (e.registry.take e.now k).2 } : Engine).standing k =
      { e.standing k with record? := none } := by
  have hrecord : (e.registry.take e.now k).2.records.get? k = none := by simp
  exact congrArg (fun record? => { e.standing k with record? }) hrecord

theorem standing_close (e : Engine) (k : CorrelationKey) :
    (e.close k).standing k = { e.standing k with case? := none, record? := none } := by
  have hclose : (e.close k).standing k =
      ({ e with registry := (e.registry.take e.now k).2, store := e.store.remove k } :
        Engine).standing k := rfl
  rw [hclose]
  exact (standing_remove { e with registry := (e.registry.take e.now k).2 } k).trans
    (congrArg (fun s : Standing => { s with case? := none }) (standing_take e k))

/-- A case of a coherent key is live: none is kept in a terminal stage. -/
theorem live?_eq_get? (hco : (e.standing k).Coherent k) : e.store.live? k = e.store.get? k := by
  cases hcase : e.store.get? k with
  | none => exact CaseStore.live?_eq_none _ _ hcase
  | some c =>
      refine CaseStore.live?_eq_some _ _ hcase ?_
      obtain ⟨-, hearly | hlate⟩ := hco.filed (s := e.standing k) hcase
      · rcases hearly.stage with h | h <;> simp [h, Stage.isTerminal]
      · rcases hlate.stage with h | h <;> simp [h, Stage.isTerminal]

/-- A section that closes the case and publishes `last` ends the standing. -/
theorem leave_close (e : Engine) {last : Message} (hlast : last.isTerminal) :
    ((e.close k).standing k).leave (.publish last) = (e.standing k).ended last := by
  rw [standing_close]
  simp [Standing.leave, Standing.ended, hlast]

/-- What the section of a message makes of its key: nothing, or one row of the table and a proper
exit. -/
def Advances (e : Engine) (k : CorrelationKey) (cause : Cause) (r : Engine × Exit) : Prop :=
  r = (e, .done) ∨
    r.2.Proper k ∧ e.Move k (e.standing k) cause ((r.1.standing k).leave r.2)

theorem onRequest_advances (r : DataRequest) (hcall : e.callAt? r.key = none) :
    e.Advances r.key (.handled (.ofRequest r))
      (e.onRequest (.ofRequest r) r.asset r.provider) := by
  unfold onRequest
  cases hcase : e.store.get? r.key with
  | some c =>
      left
      simp [Message.ofRequest, hcase]
  | none =>
      right
      have hcase' : e.store.get? (Message.ofRequest r).key = none := hcase
      rw [hcase']
      have haccept : ∀ call offers, call.Opens r → e.Move r.key (e.standing r.key)
          (.handled (.ofRequest r))
          (((({ e with offers } : Engine).note (.accepted r.key)).standing r.key).leave
            (.call call)) := by
        intro call offers hopens
        have hstanding : ((({ e with offers } : Engine).note (.accepted r.key)).standing
            r.key).leave (.call call) =
            { e.standing r.key with
              call? := some call, accepted := (e.standing r.key).accepted + 1 } := by
          ext1 <;> simp [standing, Standing.leave, Event.terminal?] <;> rfl
        rw [hstanding]
        exact .accept r call rfl hcase hcall hopens
      dsimp only
      cases (e.offers.get e.now (r.provider, r.asset)).1 with
      | none => exact ⟨⟨rfl, rfl⟩, haccept _ _ (.inl rfl)⟩
      | some offer => exact ⟨⟨rfl, rfl⟩, haccept _ _ (.inr ⟨offer, rfl⟩)⟩

/-- Keeping a case in another stage leaves the section at once. -/
theorem leave_put (e : Engine) (k : CorrelationKey) (c : Case) (hcall : e.callAt? k = none) :
    (({ e with store := e.store.put k c } : Engine).standing k).leave .done =
      { e.standing k with case? := some c } := by
  rw [standing_put]
  exact congrArg (fun call? => { e.standing k with case? := some c, call? }) hcall.symm

theorem onAccepted_advances (n : NegotiationId) (hcall : e.callAt? k = none)
    (hco : (e.standing k).Coherent k) :
    let m : Message :=
      { key := k, channel := .contractNegotiation, payload := .negotiationAccepted n }
    e.Advances k (.handled m) (e.onAccepted m n) := by
  intro m
  unfold onAccepted
  rw [live?_eq_get? hco]
  cases hcase : e.store.get? k with
  | none => exact .inl rfl
  | some c =>
      by_cases hfits : c.stage = .started ∧ c.data.negotiation = some n
      · right
        simp only [Case.concerns, hfits, decide_true, Bool.and_self, if_true]
        refine ⟨trivial, ?_⟩
        rw [leave_put e k _ hcall]
        exact .negotiate c n hcase hfits.1 hfits.2 hcall
      · left
        simp only [Case.concerns, Bool.and_eq_true, decide_eq_true_eq, hfits, if_false]

theorem onNegotiationFailed_advances (n : NegotiationId) (reason : String)
    (hcall : e.callAt? k = none) (hco : (e.standing k).Coherent k) :
    let m : Message :=
      { key := k, channel := .contractNegotiation, payload := .negotiationFailed n reason }
    e.Advances k (.handled m) (e.onNegotiationFailed m n reason) := by
  intro m
  unfold onNegotiationFailed
  rw [live?_eq_get? hco]
  cases hcase : e.store.get? k with
  | none => exact .inl rfl
  | some c =>
      by_cases hfits : c.data.negotiation = some n
      · right
        simp only [Case.concerns, hfits, decide_true, if_true]
        refine ⟨⟨rfl, rfl⟩, ?_⟩
        rw [fail, leave_close e rfl]
        exact .negotiationFailed c n reason hcase hfits hcall
      · left
        simp only [Case.concerns, decide_eq_true_eq, hfits, if_false]

theorem onConfirmed_advances (n : NegotiationId) (contract : ContractId)
    (hcall : e.callAt? k = none) (hco : (e.standing k).Coherent k) :
    e.Advances k (.handled (.confirmation k n contract))
      (e.onConfirmed (.confirmation k n contract) n contract) := by
  unfold onConfirmed
  rw [Message.key_confirmation, live?_eq_get? hco]
  cases hcase : e.store.get? k with
  | none => exact .inl rfl
  | some c =>
      by_cases hfits : (c.stage = .started ∨ c.stage = .negotiating) ∧ c.data.negotiation = some n
      · right
        obtain ⟨hstage, hown⟩ := hfits
        obtain ⟨-, ⟨-, record, hrecord, -⟩ | ⟨hlate, -⟩⟩ :=
          hco.of_case (s := e.standing k) hcall hcase
        · -- the record is there, so the transfer can be asked for
          have htake : e.registry.take e.now k =
              (some record, (e.registry.take e.now k).2) := by
            refine Prod.ext ?_ rfl
            rw [Registry.fst_take]
            exact hrecord
          simp only [Case.concerns, Bool.and_eq_true, Bool.or_eq_true, decide_eq_true_eq, hstage,
            hown, and_self, if_true]
          rw [htake]
          refine ⟨⟨rfl, rfl⟩, ?_⟩
          rw [standing_take]
          exact .confirm c record n contract hcase hstage hown hrecord hcall
        · rcases hlate.stage with h | h <;> simp [h] at hstage
      · left
        simp only [Case.concerns, Bool.and_eq_true, Bool.or_eq_true, decide_eq_true_eq, hfits,
          if_false]

theorem onTransferStarted_advances (hcall : e.callAt? k = none)
    (hco : (e.standing k).Coherent k) :
    let m : Message := { key := k, channel := .dataReference, payload := .transferStarted }
    e.Advances k (.handled m) (e.onTransferStarted m) := by
  intro m
  unfold onTransferStarted
  rw [live?_eq_get? hco]
  cases hcase : e.store.get? k with
  | none => exact .inl rfl
  | some c =>
      by_cases hstage : c.stage = .confirmed
      · right
        simp only [hstage, if_true]
        refine ⟨trivial, ?_⟩
        rw [leave_put e k _ hcall]
        exact .start c hcase hstage hcall
      · left
        simp only [hstage, if_false]

theorem onDataReference_advances (reference : DataReference) (hcall : e.callAt? k = none)
    (hco : (e.standing k).Coherent k) :
    let m : Message :=
      { key := k, channel := .dataReference, payload := .dataReference reference }
    e.Advances k (.handled m) (e.onDataReference m reference) := by
  intro m
  unfold onDataReference
  rw [live?_eq_get? hco]
  cases hcase : e.store.get? k with
  | none => exact .inl rfl
  | some c =>
      by_cases hstage : c.stage = .confirmed ∨ c.stage = .transferring
      · right
        -- the record went with the confirmation, so removing the case leaves nothing behind
        have hrecord : e.registry.records.get? k = none := by
          obtain ⟨-, ⟨hearly, -⟩ | ⟨-, hrecord⟩⟩ :=
            hco.of_case (s := e.standing k) hcall hcase
          · rcases hearly.stage with h | h <;> simp [h] at hstage
          · exact hrecord
        simp only [Bool.or_eq_true, decide_eq_true_eq, hstage, if_true]
        refine ⟨⟨rfl, rfl⟩, ?_⟩
        have hended : (({ e with store := e.store.remove k } : Engine).standing k).leave
            (.publish { key := k, channel := .result, payload := .completed reference }) =
            (e.standing k).ended
              { key := k, channel := .result, payload := .completed reference } := by
          rw [standing_remove]
          simp only [Standing.leave, Standing.ended, Message.isTerminal, if_true]
          exact congrArg (fun record? => Standing.mk none record? none _ _) hrecord
        rw [hended]
        exact .complete c reference hcase hstage hcall hrecord
      · left
        simp only [Bool.or_eq_true, decide_eq_true_eq, hstage, if_false]

theorem onTransferFailed_advances (reason : String) (hcall : e.callAt? k = none)
    (hco : (e.standing k).Coherent k) :
    let m : Message := { key := k, channel := .dataReference, payload := .transferFailed reason }
    e.Advances k (.handled m) (e.onTransferFailed m reason) := by
  intro m
  unfold onTransferFailed
  rw [live?_eq_get? hco]
  cases hcase : e.store.get? k with
  | none => exact .inl rfl
  | some c =>
      right
      refine ⟨⟨rfl, rfl⟩, ?_⟩
      rw [fail, leave_close e rfl]
      exact .transferFailed c reason hcase hcall

/-- The section of a regular message moves its key by the table or does nothing. -/
theorem handle_advances (m : Message) (hregular : m.isRegular) (hcall : e.callAt? m.key = none)
    (hco : (e.standing m.key).Coherent m.key) :
    e.Advances m.key (.handled m) (e.handle m) := by
  obtain ⟨key, channel, payload⟩ := m
  unfold handle
  split <;> rename_i hchannel hpayload <;> dsimp only at hchannel hpayload
  · subst hchannel hpayload
    exact onRequest_advances { key, asset := _, provider := _ } hcall
  · subst hchannel hpayload
    exact onAccepted_advances _ hcall hco
  · subst hchannel hpayload
    exact onNegotiationFailed_advances _ _ hcall hco
  · subst hchannel hpayload
    exact onConfirmed_advances _ _ hcall hco
  · subst hchannel hpayload
    exact onTransferStarted_advances hcall hco
  · subst hchannel hpayload
    exact onDataReference_advances _ hcall hco
  · subst hchannel hpayload
    exact onTransferFailed_advances _ hcall hco
  · -- the report of an internal failure is not regular
    subst hchannel hpayload
    simp [Message.isRegular] at hregular
  · exact .inl rfl

/-! ## So do the answers of the services -/

/-- What the answer to an open call makes of its key: one row of the table and a proper exit. -/
def Settles (e : Engine) (k : CorrelationKey) (cause : Cause) (r : Engine × Exit) : Prop :=
  r.2.Proper k ∧ e.Move k (e.standing k) cause ((r.1.standing k).leave r.2)

theorem onOffer_settles (r : DataRequest) (answer : Except EngineError ContractOffer)
    (hcall : e.callAt? r.key = some (.resolving (.ofRequest r) r.asset r.provider)) :
    e.Settles r.key (.answered (.resolving (.ofRequest r) r.asset r.provider) (.offer answer))
      (e.onOffer (.ofRequest r) r.asset r.provider answer) := by
  cases answer with
  | error error => exact ⟨⟨rfl, rfl⟩, .noOffer r error rfl hcall⟩
  | ok offer => exact ⟨⟨rfl, rfl⟩, .offer r offer rfl hcall⟩

theorem onNegotiation_settles (r : DataRequest) (offer : ContractOffer)
    (answer : Except EngineError NegotiationId)
    (hcall : e.callAt? r.key = some (.negotiating (.ofRequest r) r.asset r.provider offer))
    (hco : (e.standing r.key).Coherent r.key) :
    e.Settles r.key
      (.answered (.negotiating (.ofRequest r) r.asset r.provider offer) (.negotiation answer))
      (e.onNegotiation (.ofRequest r) r.asset r.provider offer answer) := by
  cases answer with
  | error error => exact ⟨⟨rfl, rfl⟩, .noNegotiation r offer error rfl hcall⟩
  | ok n =>
      -- neither a record nor a case is in the way of the new ones
      obtain ⟨hcase, hrecord⟩ := hco.of_opens (s := e.standing r.key) hcall (.inr ⟨offer, rfl⟩)
      have hregister := CaseStore.register_of_get?_eq_none e.store r.key
        (.ofRequest r n e.now) hcase
      unfold onNegotiation
      dsimp only [Message.ofRequest]
      rw [Registry.store_of_get?_eq_none _ _ _ hrecord]
      dsimp only
      rw [Case.ofRequest] at hregister
      rw [hregister]
      dsimp only
      generalize hregistry : Registry.mk (e.registry.records.insert _ _) _ _ _ = registry
      have hstanding : ((({ e with registry, store := e.store.put r.key (.ofRequest r n e.now) } :
          Engine).note (.registered r.key)).standing r.key) =
          { e.standing r.key with
            case? := some (.ofRequest r n e.now)
            record? := some { offer, negotiation := n } } := by
        ext1
        · simp [standing]
        · simp [standing, ← hregistry]
        · rfl
        · simp [standing]
          rfl
        · simp [standing, Event.terminal?]
          rfl
      have hmove := Move.register (e := e) (s := e.standing r.key) r offer n rfl hcall hcase
      -- with or without a replay, what is published here ends nothing
      cases (e.registry.parked.get? n).map ParkedConfirmation.contract with
      | none =>
          refine ⟨trivial, ?_⟩
          show e.Move r.key _ _ (Standing.leave _ .done)
          rw [Case.ofRequest] at hstanding hmove
          rw [hstanding]
          exact hmove
      | some contract =>
          refine ⟨⟨rfl, rfl⟩, ?_⟩
          show e.Move r.key _ _ (Standing.leave _ (.publish _))
          rw [Case.ofRequest] at hstanding hmove
          rw [hstanding]
          exact hmove

theorem onTransfer_settles (k : CorrelationKey) (n : NegotiationId) (c : Case)
    (request : TransferRequest) (answer : Except EngineError TransferProcessId)
    (hcall : e.callAt? k =
      some (.transferring (.confirmation k n request.contract) c request))
    (hco : (e.standing k).Coherent k) :
    e.Settles k
      (.answered (.transferring (.confirmation k n request.contract) c request)
        (.transfer answer))
      (e.onTransfer (.confirmation k n request.contract) c request.contract answer) := by
  obtain ⟨hcase, -⟩ := hco.of_transferring (s := e.standing k) hcall
  cases answer with
  | error error =>
      refine ⟨⟨rfl, rfl⟩, ?_⟩
      show e.Move k _ _ (((e.close k).standing k).leave (.publish _))
      rw [leave_close e rfl]
      exact .noTransfer c _ request error hcase hcall
  | ok id =>
      refine ⟨trivial, ?_⟩
      show e.Move k _ _
        ((({ e with store := e.store.put k (c.confirm request.contract id) } :
          Engine).standing k).leave .done)
      rw [standing_put]
      exact .transfer c n request.contract request id hcase hcall rfl

end Engine

end Rendezvous
