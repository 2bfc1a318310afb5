import Rendezvous.Proofs.Calls

/-!
# One transfer per case

A case is registered together with the record of its negotiation, and the handler that asks for its
transfer takes the record.  So there are no more transfers than cases, however often a negotiation
is confirmed and whatever ends the case meanwhile.

* `transfers_le`: the account of transfers and registrations;
* `negotiations_le_one`: a handler that has asked for a negotiation asks for no other;
* `Negotiated`: where a case comes from: the answer to the call for its negotiation;
* `one_transfer_per_case`: the bounds, and that every call is the right one.
-/

namespace Rendezvous

namespace Asking

/-- Whether a handler of `k` asks for a transfer. -/
def isTransfer (k : CorrelationKey) (q : Asking) : Bool :=
  match q.call with
  | .transfer _ => q.message.key = k
  | _ => false

/-- Whether the handler `t` asks for a negotiation. -/
def isNegotiation (t : TaskId) (q : Asking) : Bool :=
  match q.call with
  | .negotiate _ => q.task = t
  | _ => false

end Asking

/-- A key with a record has a case, which the record is about. -/
theorem Standing.Coherent.of_record {k : CorrelationKey} {s : Standing} {record : PendingRecord}
    (hs : s.Coherent k) (hrecord : s.record? = some record) :
    ∃ c, s.case? = some c ∧ c.data.negotiation = some record.negotiation := by
  cases hs with
  | pending c record' hcase _ _ hrecord' hown =>
      rw [hrecord] at hrecord'
      cases hrecord'
      exact ⟨c, hcase, hown⟩
  | vacant _ hnone | opening _ _ _ _ hnone | confirming _ _ _ _ _ _ _ hnone
  | confirmed _ _ _ _ hnone =>
      rw [hrecord] at hnone
      cases hnone

namespace Engine

/-- How often handlers of `k` ask for a transfer along a schedule. -/
def transfers (k : CorrelationKey) (e : Engine) (as : List Action) : Nat :=
  (e.askings as).countP (Asking.isTransfer k)

/-- How often the handler `t` asks for a negotiation along a schedule. -/
def negotiations (t : TaskId) (e : Engine) (as : List Action) : Nat :=
  (e.askings as).countP (Asking.isNegotiation t)

/-- Whether `k` gets a case by the action. -/
def registers (e : Engine) (k : CorrelationKey) (a : Action) : Bool :=
  (e.store.get? k).isNone && ((e.act a).store.get? k).isSome

/-- How many cases of `k` are registered along a schedule. -/
def registrations (k : CorrelationKey) : Engine → List Action → Nat
  | _, [] => 0
  | e, a :: as => (if e.registers k a then 1 else 0) + registrations k (e.act a) as

variable {e : Engine} {a : Action} {q : Asking} {k : CorrelationKey} {t : TaskId}

/-! ## Cases and transfers -/

theorem registrations_append (k : CorrelationKey) (e : Engine) (as bs : List Action) :
    registrations k e (as ++ bs) = registrations k e as + registrations k (e.after as) bs := by
  induction as generalizing e with
  | nil => simp [registrations]
  | cons a as ih => simp only [List.cons_append, registrations, ih, after_cons, Nat.add_assoc]

/-- A record that a key has after a row was there before, with the case of the key, or the row
registers both. -/
theorem Move.of_record {s s' : Standing} {cause : Cause} {record : PendingRecord}
    (h : e.Move k s cause s') (hs : s.Coherent k) (hrecord : s'.record? = some record) :
    (s.record? = some record ∧ ∃ c c', s.case? = some c ∧ s'.case? = some c' ∧ c.Follows c') ∨
    ∃ r : DataRequest, r.key = k ∧ s.case? = none ∧
      cause = .answered (.negotiating (.ofRequest r) r.asset r.provider record.offer)
        (.negotiation (.ok record.negotiation)) ∧
      s'.case? = some (.ofRequest r record.negotiation e.now) := by
  have hgone : s.record? = none → s.record? = some record → False := fun hnone hsome => by
    rw [hnone] at hsome
    cases hsome
  cases h with
  | register r offer n hkey hcall hcase =>
      cases hrecord
      exact .inr ⟨r, hkey, hcase, rfl, rfl⟩
  | negotiate c n hcase hstage hown hcall =>
      have hrow : Case.Transition k e.now (some c) _ (some (c.advance .negotiating)) [] :=
        .negotiate c n hstage hown
      exact .inl ⟨hrecord, c, _, hcase, rfl, hrow.follows (hs.filed hcase).2⟩
  | accept r call hkey hcase hcall hopens =>
      exact (hgone (hs.of_no_case hcall hcase) hrecord).elim
  | offer r offer hkey hcall =>
      exact (hgone (hs.of_opens hcall (.inl rfl)).2 hrecord).elim
  | noOffer r error hkey hcall =>
      exact (hgone (hs.of_opens hcall (.inl rfl)).2 hrecord).elim
  | noNegotiation r offer error hkey hcall =>
      exact (hgone (hs.of_opens hcall (.inr ⟨offer, rfl⟩)).2 hrecord).elim
  | transfer c n contract request id hcase hcall hcontract =>
      obtain ⟨-, -, -, hnone, -⟩ := hs.of_transferring hcall
      exact (hgone hnone hrecord).elim
  | start c hcase hstage hcall =>
      obtain ⟨-, ⟨hearly, -⟩ | ⟨-, hnone⟩⟩ := hs.of_case hcall hcase
      · have hthen := hearly.stage
        simp [hstage] at hthen
      · exact (hgone hnone hrecord).elim
  | confirm | noTransfer | negotiationFailed | complete | transferFailed | evict => cases hrecord

theorem reply_of_cause {call : Task} {r : Reply} (h : e.cause a = .answered call r) :
    ∃ t, a = .reply t r ∧ e.tasks.get? t = some call := by
  cases a with
  | reply t r' =>
      unfold Engine.cause at h
      dsimp only at h
      split at h
      · rename_i task hold
        cases h
        exact ⟨t, rfl, hold⟩
      · cases h
  | stride t =>
      unfold Engine.cause at h
      dsimp only at h
      split at h <;> cases h
  | submit | notify | dispatch | beginSweep | beginWait | beginHold | look | take | letGo | cancel
  | pass => cases h

/-- A record that a key has after an action was there before, with the case of the key, or the
action registers both. -/
theorem Sound.of_record (h : Sound e) (a : Action) {record : PendingRecord}
    (hrecord : (e.act a).registry.records.get? k = some record) :
    (e.registry.records.get? k = some record ∧
      ∃ c c', e.store.get? k = some c ∧ (e.act a).store.get? k = some c' ∧ c.Follows c') ∨
    ∃ (t : TaskId) (r : DataRequest), a = .reply t (.negotiation (.ok record.negotiation)) ∧
      e.tasks.get? t = some (.negotiating (.ofRequest r) r.asset r.provider record.offer) ∧
      r.key = k ∧ e.store.get? k = none ∧
      (e.act a).store.get? k = some (.ofRequest r record.negotiation e.now) := by
  rcases (act_leads h a).moves k with hsame | hmove
  · have hrecord' : e.registry.records.get? k = some record :=
      (congrArg Standing.record? hsame).symm.trans hrecord
    obtain ⟨c, hcase, -⟩ := (h.coherent k).of_record hrecord'
    have hcase' : (e.act a).store.get? k = some c := (congrArg Standing.case? hsame).trans hcase
    exact .inl ⟨hrecord', c, c, hcase, hcase', .refl c⟩
  · rcases hmove.of_record (h.coherent k) hrecord with hkept | ⟨r, hkey, hcase, hcause, hcase'⟩
    · exact .inl hkept
    · obtain ⟨t, ha, hold⟩ := reply_of_cause hcause
      exact .inr ⟨t, r, ha, hold, hkey, hcase, hcase'⟩

/-- What is right about a transfer that a handler of `k` asks for: it is asked for by the
confirmation of a live case that waits for it, whose record it takes, and its contents are those of
the confirmation and of the record. -/
structure Confirms (e : Engine) (a : Action) (k : CorrelationKey) (request : TransferRequest)
    (c : Case) (record : PendingRecord) : Prop where
  live : e.store.get? k = some c
  stage : c.stage = .started ∨ c.stage = .negotiating
  negotiation : c.data.negotiation = some record.negotiation
  pending : e.registry.records.get? k = some record
  taken : (e.act a).registry.records.get? k = none
  handled : e.cause a = .handled (.confirmation k record.negotiation request.contract)
  asset : request.asset = record.offer.asset
  provider : request.provider = record.offer.provider
  destination : request.destination = .correlated e.destination k

theorem Sound.confirms (h : Sound e) {request : TransferRequest} (hq : e.asks? a = some q)
    (hcall : q.call = .transfer request) :
    ∃ c record, e.Confirms a q.message.key request c record := by
  obtain ⟨task, hasks⟩ := h.asks hq
  have htask : task.call? = some (.transfer request) := by rw [hasks.call, hcall]
  have hsome : task.call?.isSome := by simp [htask]
  rcases hasks.move.of_call hasks.openCall hsome with
    ⟨r, -, hopens, -⟩ | ⟨r, offer, -, -, rfl⟩ |
    ⟨c, record, n, contract, hcase, hstage, hown, hrecord, hquiet, htaken, hcause, rfl⟩
  · rcases hopens with rfl | ⟨offer, rfl⟩ <;> cases htask
  · cases htask
  · -- the record is about the negotiation of the case, which is the one confirmed
    obtain ⟨c', hcase', hown'⟩ := (h.coherent _).of_record hrecord
    rw [hcase] at hcase'
    cases hcase'
    rw [hown] at hown'
    cases hown'
    cases htask
    exact ⟨c, record, hcase, hstage, hown, hrecord, htaken, hcause, rfl, rfl, rfl⟩

/-- How many transfers `k` may still ask for with the case it has. -/
def credit (e : Engine) (k : CorrelationKey) : Nat := if e.registry.contains k then 1 else 0

theorem credit_of_none (h : e.registry.records.get? k = none) : e.credit k = 0 := by
  simp [credit, Registry.contains, Assoc.contains, h]

theorem credit_of_some {record : PendingRecord} (h : e.registry.records.get? k = some record) :
    e.credit k = 1 := by
  simp [credit, Registry.contains, Assoc.contains, h]

theorem credit_le_one (e : Engine) (k : CorrelationKey) : e.credit k ≤ 1 := by
  unfold credit
  split <;> decide

/-- A transfer uses the credit up, and only a registration gives a new one. -/
theorem transfers_act (h : Sound e) (a : Action) (k : CorrelationKey) :
    (e.asks? a).toList.countP (Asking.isTransfer k) + (e.act a).credit k ≤
      (if e.registers k a then 1 else 0) + e.credit k := by
  by_cases hasked : ∃ q, e.asks? a = some q ∧ q.isTransfer k
  · obtain ⟨q, hq, htransfer⟩ := hasked
    obtain ⟨request, hcall, hkey⟩ : ∃ request, q.call = .transfer request ∧ q.message.key = k := by
      unfold Asking.isTransfer at htransfer
      split at htransfer
      · exact ⟨_, ‹_›, by simpa using htransfer⟩
      · cases htransfer
    obtain ⟨c, record, hconfirms⟩ := h.confirms hq hcall
    rw [hkey] at hconfirms
    rw [credit_of_some hconfirms.pending, credit_of_none hconfirms.taken, hq]
    simp [htransfer]
  · have hnone : (e.asks? a).toList.countP (Asking.isTransfer k) = 0 := by
      refine List.countP_eq_zero.mpr fun q hmem htransfer => hasked ⟨q, ?_, htransfer⟩
      simpa using hmem
    rw [hnone, Nat.zero_add]
    cases hrecord : (e.act a).registry.records.get? k with
    | none => simp [credit_of_none hrecord]
    | some record =>
        rw [credit_of_some hrecord]
        rcases h.of_record a hrecord with ⟨hbefore, -⟩ | ⟨t, r, -, -, -, hcase, hcase'⟩
        · simp [credit_of_some hbefore]
        · simp [registers, hcase, hcase']

/-- There are no more transfers than cases: each case that is registered along a schedule, and the
one that waits for its confirmation at the beginning, causes at most one. -/
theorem transfers_le (h : Sound e) (as : List Action) (k : CorrelationKey) :
    transfers k e as ≤ registrations k e as + e.credit k := by
  induction as generalizing e with
  | nil => exact Nat.zero_le _
  | cons a as ih =>
      have hfirst := transfers_act h a k
      have hrest := ih (h.act a)
      unfold transfers at hrest ⊢
      rw [askings, List.countP_append, registrations]
      omega

/-! ## Handlers and negotiations -/

/-- The handler `t` will ask for no negotiation any more: it has ended, or has asked for one. -/
structure Spent (e : Engine) (t : TaskId) : Prop where
  past : t < e.nextTask
  position : e.tasks.get? t = none ∨
    ∃ m asset provider offer, e.tasks.get? t = some (.negotiating m asset provider offer)

theorem Sound.past (h : Sound e) {task : Task} (hold : e.tasks.get? t = some task) :
    t < e.nextTask := by
  refine Nat.lt_of_not_le fun hle => ?_
  rw [h.orderly.fresh t hle] at hold
  cases hold

/-- Only the answer to its call takes a handler on that waits for a negotiation, to its end. -/
theorem get?_tasks_of_negotiating (h : Sound e) {m : Message} {asset : AssetId}
    {provider : String} {offer : ContractOffer}
    (hold : e.tasks.get? t = some (.negotiating m asset provider offer)) (a : Action) :
    (e.act a).tasks.get? t = none ∨ (e.act a).tasks.get? t = e.tasks.get? t := by
  by_cases htask : a.task? = some t
  · cases a with
    | submit | notify | dispatch | beginSweep | beginWait | beginHold | take | pass => cases htask
    | look t' | stride t' | letGo t' | cancel t' =>
        obtain rfl := Option.some.inj htask
        right
        simp [Engine.act, look, stride, letGo, giveUp, hold]
    | reply t' r =>
        obtain rfl := Option.some.inj htask
        cases r with
        | offer | transfer =>
            right
            simp [Engine.act, reply, hold]
        | negotiation answer =>
            left
            have hp := passage?_negotiation hold answer
            obtain ⟨hleaving, hact⟩ := h.leaving hp
            have hopen : (e.onNegotiation m asset provider offer answer).1.bus.isOpen := by
              rw [hleaving.contained.bus]
              exact h.regular.isOpen
            have hproper := hleaving.proper
            rw [hact]
            dsimp only at hproper ⊢
            cases hexit : (e.onNegotiation m asset provider offer answer).2 with
            | done => simp [leave_done]
            | publish next => simp [leave_publish _ m next hopen]
            | call task =>
                cases h.calling hp hexit with
                | begins hlocking =>
                    rw [hold] at hlocking
                    cases hlocking
                | offered _ _ _ hresolving =>
                    rw [hold] at hresolving
                    cases hresolving
            | record o =>
                rw [hexit] at hproper
                exact hproper.elim
            | fault error =>
                rw [hexit] at hproper
                exact hproper.elim
  · exact .inr (get?_tasks_act (h.past hold) htask).1

theorem act_of_gone (hnone : e.tasks.get? t = none) (htask : a.task? = some t) : e.act a = e := by
  cases a with
  | submit | notify | dispatch | beginSweep | beginWait | beginHold | take | pass => cases htask
  | look t' | stride t' | reply t' | letGo t' | cancel t' =>
      obtain rfl := Option.some.inj htask
      simp [Engine.act, look, stride, reply, letGo, giveUp, hnone]

namespace Spent

theorem act (hs : e.Spent t) (h : Sound e) (a : Action) : (e.act a).Spent t := by
  have hnext : e.nextTask ≤ (e.act a).nextTask := by
    rcases (e.act_step a).alone with ⟨t', -, halone⟩ | ⟨-, hnext⟩ | ⟨task, -, hnext⟩
    · exact Nat.le_of_eq halone.nextTask.symm
    · exact Nat.le_of_eq hnext.symm
    · exact hnext ▸ Nat.le_succ _
  refine ⟨Nat.lt_of_lt_of_le hs.past hnext, ?_⟩
  rcases hs.position with hnone | ⟨m, asset, provider, offer, hold⟩
  · left
    by_cases htask : a.task? = some t
    · rw [act_of_gone hnone htask]
      exact hnone
    · exact (get?_tasks_act hs.past htask).1.trans hnone
  · rcases get?_tasks_of_negotiating h hold a with hnone | hsame
    · exact .inl hnone
    · exact .inr ⟨m, asset, provider, offer, hsame.trans hold⟩

theorem not_asks (hs : e.Spent t) (h : Sound e) (hq : e.asks? a = some q) : q.task ≠ t := by
  rintro rfl
  obtain ⟨task, hasks⟩ := h.asks hq
  cases hasks.calling with
  | begins hold | offered _ _ _ hold =>
      rcases hs.position with hnone | ⟨m, asset, provider, offer, hnegotiating⟩
      · rw [hold] at hnone
        cases hnone
      · rw [hold] at hnegotiating
        cases hnegotiating

theorem negotiations_eq_zero (hs : e.Spent t) (h : Sound e) (as : List Action) :
    negotiations t e as = 0 := by
  induction as generalizing e with
  | nil => rfl
  | cons a as ih =>
      have hrest : ((e.act a).askings as).countP (Asking.isNegotiation t) = 0 :=
        ih (hs.act h a) (h.act a)
      have hfirst : (e.asks? a).toList.countP (Asking.isNegotiation t) = 0 := by
        refine List.countP_eq_zero.mpr fun q hmem hq => ?_
        have hne : q.task ≠ t := hs.not_asks h (by simpa using hmem)
        unfold Asking.isNegotiation at hq
        split at hq
        · exact hne (by simpa using hq)
        · cases hq
      rw [negotiations, askings, List.countP_append, hfirst, hrest]

end Spent

/-- A handler asks for at most one negotiation. -/
theorem negotiations_le_one (h : Sound e) (as : List Action) (t : TaskId) :
    negotiations t e as ≤ 1 := by
  induction as generalizing e with
  | nil => exact Nat.zero_le 1
  | cons a as ih =>
      rw [negotiations, askings, List.countP_append]
      by_cases hasked : ∃ q, e.asks? a = some q ∧ q.isNegotiation t
      · obtain ⟨q, hq, hnegotiation⟩ := hasked
        -- from here on the handler is spent
        have hspent : (e.act a).Spent t := by
          obtain ⟨task, hasks⟩ := h.asks hq
          unfold Asking.isNegotiation at hnegotiation
          split at hnegotiation
          · rename_i offer hcall
            obtain rfl : q.task = t := by simpa using hnegotiation
            have htask := hasks.call
            rw [hcall] at htask
            cases task <;> cases htask
            exact ⟨(h.act a).past hasks.position, .inr ⟨_, _, _, _, hasks.position⟩⟩
          · cases hnegotiation
        have hrest : ((e.act a).askings as).countP (Asking.isNegotiation t) = 0 :=
          hspent.negotiations_eq_zero (h.act a) as
        rw [hq, hrest]
        simp [hnegotiation]
      · have hnone : (e.asks? a).toList.countP (Asking.isNegotiation t) = 0 := by
          refine List.countP_eq_zero.mpr fun q hmem hnegotiation => hasked ⟨q, ?_, hnegotiation⟩
          simpa using hmem
        rw [hnone, Nat.zero_add]
        exact ih (h.act a)

/-- A negotiation is asked for by the handler of a request whose key has no case. -/
theorem Sound.asks_negotiation (h : Sound e) {offer : ContractOffer} (hq : e.asks? a = some q)
    (hcall : q.call = .negotiate offer) :
    ∃ r : DataRequest, q.message = .ofRequest r ∧ e.store.get? r.key = none := by
  obtain ⟨task, hasks⟩ := h.asks hq
  have htask : task.call? = some (.negotiate offer) := by rw [hasks.call, hcall]
  have hsome : task.call?.isSome := by simp [htask]
  cases hasks.calling with
  | begins hold hhandled =>
      rcases hasks.move.of_call hasks.openCall hsome with
        ⟨r, hkey, -, hcase, hcause⟩ | ⟨r, offer', -, hcause, -⟩ |
        ⟨c, record, n, contract, -, -, -, -, -, -, -, rfl⟩
      · rw [hhandled] at hcause
        exact ⟨r, Cause.handled.inj hcause, hkey ▸ hcase⟩
      · rw [hhandled] at hcause
        cases hcause
      · cases htask
  | offered asset provider offer' hold =>
      obtain ⟨-, hopen, ⟨r, hkey, hopens⟩ | ⟨n, c, request, htransfer⟩⟩ :=
        h.open_call hold rfl rfl
      · obtain ⟨hcase, -⟩ := (h.coherent q.message.key).of_opens hopen hopens
        rcases hopens with hresolving | ⟨offer'', hnegotiating⟩
        · obtain ⟨hmessage, -, -⟩ := Task.resolving.inj hresolving
          exact ⟨r, hmessage, hkey ▸ hcase⟩
        · cases hnegotiating
      · cases htransfer

/-! ## Where a case comes from -/

/-- Along `as` the negotiation `n` over `offer` has begun for a request for `k`, by the answer to
the call of its handler, and has registered the case that is now `c`; no case of `k` has been
registered since. -/
inductive Negotiated (e : Engine) (as : List Action) (k : CorrelationKey) (n : NegotiationId)
    (offer : ContractOffer) (c : Case) : Prop
  | intro (before since : List Action) (t : TaskId) (r : DataRequest)
      (hsplit : as = before ++ .reply t (.negotiation (.ok n)) :: since) (hkey : r.key = k)
      (hcall : (e.after before).tasks.get? t =
        some (.negotiating (.ofRequest r) r.asset r.provider offer))
      (hcase : (Case.ofRequest r n (e.after before).now).Follows c)
      (hsince : registrations k ((e.after before).act (.reply t (.negotiation (.ok n)))) since = 0)

/-- A record that a key has after a schedule was there before, with the case of the key, or its
negotiation has begun meanwhile. -/
theorem Sound.record_origin (h : Sound e) (as : List Action) {record : PendingRecord} {c : Case}
    (hrecord : (e.after as).registry.records.get? k = some record)
    (hcase : (e.after as).store.get? k = some c) :
    (e.registry.records.get? k = some record ∧ registrations k e as = 0 ∧
      ∃ c₀, e.store.get? k = some c₀ ∧ c₀.Follows c) ∨
    e.Negotiated as k record.negotiation record.offer c := by
  induction as generalizing e with
  | nil => exact .inl ⟨hrecord, rfl, c, hcase, .refl c⟩
  | cons a as ih =>
      rcases ih (h.act a) hrecord hcase with ⟨hthen, hnone, c₁, hcase₁, hfollows⟩ | hnegotiated
      · rcases h.of_record a hthen with
          ⟨hbefore, c₀, c₁', hcase₀, hcase₁', hfirst⟩ | ⟨t, r, rfl, hold, hkey, -, hcase₁'⟩
        · rw [hcase₁] at hcase₁'
          cases hcase₁'
          have hregisters : e.registers k a = false := by simp [registers, hcase₀]
          refine .inl ⟨hbefore, ?_, c₀, hcase₀, hfirst.trans hfollows⟩
          simp [registrations, hregisters, hnone]
        · rw [hcase₁] at hcase₁'
          cases hcase₁'
          exact .inr (.intro [] as t r rfl hkey hold hfollows hnone)
      · obtain ⟨before, since, t, r, rfl, hkey, hcall, hfollows, hsince⟩ := hnegotiated
        exact .inr (.intro (a :: before) since t r rfl hkey hcall hfollows hsince)

theorem Sound.destination_after (h : Sound e) (as : List Action) :
    (e.after as).destination = e.destination :=
  h.after_invariant (P := fun e' => e'.destination = e.destination) rfl
    (fun h hsame a => (act_leads h a).destination.trans hsame) as

/-- A message that is about to be handled is on its way. -/
theorem inMail_of_cause {m : Message} (h : e.cause a = .handled m) : e.InMail m := by
  cases a with
  | stride t =>
      unfold Engine.cause at h
      dsimp only at h
      split at h
      · rename_i hold
        cases h
        exact .inr ⟨t, by simp [hold, Task.message?]⟩
      · cases h
      · cases h
  | reply t r =>
      unfold Engine.cause at h
      dsimp only at h
      split at h <;> cases h
  | submit | notify | dispatch | beginSweep | beginWait | beginHold | look | take | letGo | cancel
  | pass => cases h

/-- The history lists the calls made.  For every key there are no more transfers than registered
cases, and at most one in any stretch without a registration.  A transfer for `k` is asked for only
while the case of `k` is live and waits for its confirmation; it carries the contract of a callback
that confirmed the negotiation of this case, the asset and the provider of the offer that this
negotiation was about, and goes to the configured kind of destination with the key as property.  A
handler asks for at most one negotiation, only for a request, and never while its key has a live
case. -/
theorem one_transfer_per_case (s : Settings) (as : List Action) :
    let e := (ofSettings s).after as
    e.history.filterMap Event.call? = (((ofSettings s).askings as).map Asking.call).reverse ∧
    (∀ k, transfers k (ofSettings s) as ≤ registrations k (ofSettings s) as) ∧
    (∀ k bs, registrations k e bs = 0 → transfers k e bs ≤ 1) ∧
    (∀ a q request, e.asks? a = some q → q.call = .transfer request →
      ∃ c n offer, e.store.live? q.message.key = some c ∧
        (c.stage = .started ∨ c.stage = .negotiating) ∧ c.data.negotiation = some n ∧
        (ofSettings s).Negotiated as q.message.key n offer c ∧
        .notify (.confirmed n request.contract) ∈ as ∧
        request.asset = offer.asset ∧ request.provider = offer.provider ∧
        request.destination.kind = s.transfer.destinationType ∧
        request.destination.properties.get? "cid" = some q.message.key.text) ∧
    (∀ t, negotiations t (ofSettings s) as ≤ 1) ∧
    (∀ a q offer, e.asks? a = some q → q.call = .negotiate offer →
      ∃ r : DataRequest, q.message = .ofRequest r ∧ e.store.live? r.key = none) := by
  intro e
  have hstart : Sound (ofSettings s) := sound_ofSettings s
  have hsound : Sound e := sound_after s as
  refine ⟨?_, fun k => ?_, fun k bs hnone => ?_, fun a q request hq hcall => ?_,
    fun t => negotiations_le_one hstart as t, fun a q offer hq hcall => ?_⟩
  · have hempty : (ofSettings s).history.filterMap Event.call? = [] := rfl
    have hcalled := called_after hstart as
    rwa [hempty, List.append_nil] at hcalled
  · have hcredit : (ofSettings s).credit k = 0 := credit_of_none rfl
    have hle := transfers_le hstart as k
    omega
  · have hcredit := credit_le_one e k
    have hle := transfers_le hsound bs k
    omega
  · obtain ⟨c, record, hconfirms⟩ := hsound.confirms hq hcall
    -- the confirmation is on its way, so it was published, so a callback has brought it
    have hmail : ∀ m, e.InMail m → .published m ∈ e.history :=
      hstart.published_of_inMail (fun m hm => by simp [InMail, ofSettings] at hm) as
    have hconfirmed : .notify (.confirmed record.negotiation request.contract) ∈ as :=
      (informed_after s as).published _ _ _ (hmail _ (inMail_of_cause hconfirms.handled)) rfl
    have hnegotiated : (ofSettings s).Negotiated as q.message.key record.negotiation record.offer
        c := by
      rcases hstart.record_origin as hconfirms.pending hconfirms.live with ⟨hnone, -⟩ | horigin
      · cases hnone
      · exact horigin
    have hdestination : e.destination = s.transfer.destinationType :=
      hstart.destination_after as
    refine ⟨c, record.negotiation, record.offer, ?_, hconfirms.stage, hconfirms.negotiation,
      hnegotiated, hconfirmed, hconfirms.asset, hconfirms.provider, ?_, ?_⟩
    · rw [live?_eq_get? (hsound.coherent _)]
      exact hconfirms.live
    · rw [hconfirms.destination, ← hdestination]
      rfl
    · rw [hconfirms.destination]
      rfl
  · obtain ⟨r, hmessage, hcase⟩ := hsound.asks_negotiation hq hcall
    exact ⟨r, hmessage, CaseStore.live?_eq_none _ _ hcase⟩

end Engine

end Rendezvous
