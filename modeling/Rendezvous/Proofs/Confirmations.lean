import Rendezvous.Proofs.Negotiations

/-!
# Early and late confirmations

A confirmation can come before its negotiation is filed, while the record of the negotiation is
there, or after the record was taken.  Nothing orders it: the callback takes no lock.

* `Engine.Unissued`: what the registry knows of a negotiation before it has begun: at most a
  confirmation that is parked;
* `Engine.Tracks`: what it knows afterwards: the negotiation is indexed exactly as long as its
  record is there, and no other record is about it;
* `confirmation_not_lost`: the last of the early confirmations is published once, when the
  negotiation is filed; one that comes while the record is there is published at once; one that
  comes while the negotiation is remembered as closed does nothing.
-/

namespace Rendezvous

/-- Whether a service answers that the negotiation `n` has begun. -/
def Action.issues (n : NegotiationId) : Action → Bool
  | .reply _ (.negotiation (.ok n')) => n' = n
  | _ => false

/-- Whether a callback confirms the negotiation `n`. -/
def Action.confirms (n : NegotiationId) : Action → Bool
  | .notify (.confirmed n' _) => n' = n
  | _ => false

/-- The confirmation of `n` whose publication the event is. -/
def Event.confirmation? (n : NegotiationId) : Event → Option Message
  | .published m =>
      match m.payload with
      | .contractConfirmed n' _ => if n' = n then some m else none
      | _ => none
  | _ => none

namespace Engine

/-- The confirmations of `n` published so far, latest first. -/
def confirmations (e : Engine) (n : NegotiationId) : List Message :=
  e.history.filterMap (Event.confirmation? n)

/-- Whether every sweep that ends along the schedule keeps what was parked at `since`. -/
def spares (since : Nat) : Engine → List Action → Bool
  | _, [] => true
  | e, a :: as =>
      ((e.purging? a).all fun sweep => age sweep.startedAt since < e.parkedTtl) &&
        spares since (e.act a) as

variable {e : Engine} {a : Action} {n : NegotiationId}

/-! ## Counting confirmations -/

theorem eq_of_confirmation? {ev : Event} {m : Message} (h : ev.confirmation? n = some m) :
    ev = .published m ∧ ∃ contract, m.payload = .contractConfirmed n contract := by
  cases ev with
  | published m' =>
      simp only [Event.confirmation?] at h
      split at h
      · rename_i n' contract hpayload
        split at h
        · rename_i hn
          cases h
          exact ⟨rfl, contract, hn ▸ hpayload⟩
        · cases h
      · cases h
  | spawned | granted | notified | accepted | registered | called | held | evicted | recorded
  | faulted | finished => cases h

/-- A confirmation of `n` is published only by a callback that finds it filed, or by filing it. -/
theorem confirmations_act (h : Sound e) (hissues : a.issues n = false)
    (hconfirms : a.confirms n → e.registry.index.get? n = none) :
    (e.act a).confirmations n = e.confirmations n := by
  obtain ⟨evs, hnews⟩ := act_news h a
  refine view_of_silent (fun ev hmem => ?_) hnews.history
  refine Option.eq_none_iff_forall_not_mem.mpr fun m hm => ?_
  obtain ⟨rfl, contract, hpayload⟩ := eq_of_confirmation? hm
  rcases (hnews.writes _ hmem).confirmation h hpayload with
    ⟨key, ha, hindex, -⟩ | ⟨t, r, offer, ha, -⟩
  · rw [hconfirms (by simp [ha, Action.confirms])] at hindex
    cases hindex
  · simp [ha, Action.issues] at hissues

/-! ## Before a negotiation has begun -/

/-- The negotiation `n` has not begun: it is neither pending nor closed, and no confirmation of it
is published.  One may be parked. -/
structure Unissued (e : Engine) (n : NegotiationId) : Prop where
  index : e.registry.index.get? n = none
  closed : e.registry.closed.get? n = none
  records : ∀ k record, e.registry.records.get? k = some record → record.negotiation ≠ n
  confirmations : e.confirmations n = []

namespace Unissued

theorem act (hu : e.Unissued n) (h : Sound e) (hissues : a.issues n = false) :
    (e.act a).Unissued n := by
  have hconfirmations := confirmations_act h hissues fun _ => hu.index
  generalize hregistry : (e.act a).registry = registry
  have hfiles := hregistry ▸ act_files h a
  suffices hkept : registry.index.get? n = none ∧ registry.closed.get? n = none ∧
      ∀ k record, registry.records.get? k = some record → record.negotiation ≠ n by
    exact ⟨hregistry ▸ hkept.1, hregistry ▸ hkept.2.1, hregistry ▸ hkept.2.2,
      hconfirmations.trans hu.confirmations⟩
  cases hfiles with
  | same | park => exact ⟨hu.index, hu.closed, hu.records⟩
  | file t r offer n' ha =>
      have hne : n' ≠ n := by simpa [ha, Action.issues] using hissues
      refine ⟨by simp [Registry.file, hne, hu.index], by simp [Registry.file, hu.closed], ?_⟩
      intro k record hrecord
      by_cases hk : r.key = k
      · obtain rfl : _ = record := by simpa [Registry.file, hk] using hrecord
        exact hne
      · exact hu.records k record (by simpa [Registry.file, hk] using hrecord)
  | take key record hrecord =>
      have hne := hu.records key record hrecord
      refine ⟨by simp [Registry.unfile, hu.index], by simp [Registry.unfile, hne, hu.closed], ?_⟩
      intro k record' hrecord'
      have hkept : k ≠ key ∧ e.registry.records.get? k = some record' := by
        simpa [Registry.unfile] using hrecord'
      exact hu.records k record' hkept.2
  | purge sweep => exact ⟨hu.index, by simp [hu.closed], hu.records⟩

theorem after (hu : e.Unissued n) (h : Sound e) {as : List Action}
    (hissues : ∀ a ∈ as, a.issues n = false) : (e.after as).Unissued n :=
  h.after_induction (P := (Unissued · n)) hu (fun h hu hissues => hu.act h hissues) hissues

/-- A confirmation that comes early is parked, over an older one. -/
theorem parked_notify (hu : e.Unissued n) (contract : ContractId) :
    (e.act (.notify (.confirmed n contract))).registry.parked.get? n =
      some { contract, since := e.now } := by
  simp [Engine.act, deliver, Registry.resolveOrPark, hu.index, Assoc.contains, hu.closed]

end Unissued

/-- What is parked stays until its negotiation begins, another confirmation comes, or a sweep finds
it too old. -/
theorem parked_after (h : Sound e) {p : ParkedConfirmation} {as : List Action}
    (hp : e.registry.parked.get? n = some p) (hissues : ∀ a ∈ as, a.issues n = false)
    (hconfirms : ∀ a ∈ as, a.confirms n = false) (hspares : spares p.since e as) :
    (e.after as).registry.parked.get? n = some p := by
  induction as generalizing e with
  | nil => exact hp
  | cons a as ih =>
      simp only [spares, Bool.and_eq_true] at hspares
      refine ih (h.act a) ?_ (fun a' hmem => hissues a' (List.mem_cons_of_mem a hmem))
        (fun a' hmem => hconfirms a' (List.mem_cons_of_mem a hmem)) hspares.2
      generalize hregistry : (e.act a).registry = registry
      have hfiles := hregistry ▸ act_files h a
      cases hfiles with
      | same | take => exact hp
      | park n' contract ha =>
          have hne : n' ≠ n := by
            simpa [ha, Action.confirms] using hconfirms a List.mem_cons_self
          simp [hne, hp]
      | file t r offer n' ha =>
          have hne : n' ≠ n := by
            simpa [ha, Action.issues] using hissues a List.mem_cons_self
          simp [Registry.file, Ne.symm hne, hp]
      | purge sweep ha =>
          have hyoung : age sweep.startedAt p.since < e.parkedTtl := by
            simpa [ha] using hspares.1
          simp [hp, Option.filter, hyoung]

/-- Without a callback nothing is parked anew. -/
theorem not_parked_after (h : Sound e) {as : List Action}
    (hnone : e.registry.parked.get? n = none) (hconfirms : ∀ a ∈ as, a.confirms n = false) :
    (e.after as).registry.parked.get? n = none := by
  refine h.after_induction (P := fun e => e.registry.parked.get? n = none) hnone
    (fun {e a} h hnone hconfirms => ?_) hconfirms
  generalize hregistry : (e.act a).registry = registry
  have hfiles := hregistry ▸ act_files h a
  cases hfiles with
  | same | take => exact hnone
  | park n' contract ha =>
      have hne : n' ≠ n := by simpa [ha, Action.confirms] using hconfirms
      simp [hne, hnone]
  | file => simp [Registry.file, hnone]
  | purge => simp [hnone]

/-! ## A negotiation begins -/

section

variable {t : TaskId} {r : DataRequest} {offer : ContractOffer}

/-- The answer to a call for a negotiation ends the handler in the state in which the request has
its case. -/
theorem act_reply_issued (h : Sound e)
    (hold : e.tasks.get? t = some (.negotiating (.ofRequest r) r.asset r.provider offer)) :
    e.act (.reply t (.negotiation (.ok n))) =
      (e.enroll r offer n).leave t (.ofRequest r) (.ofFollowUp (e.replay? r.key n)) := by
  obtain ⟨r', hr, -, -, hcase, hrecord⟩ := h.negotiating hold
  have hkey : r.key = r'.key := congrArg Message.key hr
  rw [← hkey] at hcase hrecord
  have hstep := onNegotiation_ok offer n hcase hrecord
  simp [Engine.act, reply, hold, hstep]

theorem registry_reply_issued (h : Sound e)
    (hold : e.tasks.get? t = some (.negotiating (.ofRequest r) r.asset r.provider offer)) :
    (e.act (.reply t (.negotiation (.ok n)))).registry =
      e.registry.file r.key { offer, negotiation := n } := by
  rw [act_reply_issued h hold, registry_leave]
  rfl

/-- A handler that leaves with a follow-up publishes it after the lock is given back. -/
theorem history_leave_ofFollowUp (t : TaskId) (m : Message) (next? : Option Message)
    (hopen : e.bus.isOpen) :
    (e.leave t m (.ofFollowUp next?)).history =
      .finished t .handled ::
        (next?.toList.map Event.published ++
          ((e.store.locks.heir? m.key t).toList.map Event.granted ++ e.history)) := by
  cases next? with
  | none => simp [Exit.ofFollowUp, leave_done]
  | some next =>
      have hopen' : (e.leaveLock t m.key).bus.isOpen := by simpa using hopen
      rw [Exit.ofFollowUp, leave_publish t m next hopen, publish_of_isOpen _ _ hopen']
      simp

/-- The confirmation that is parked for a negotiation is published when the negotiation begins. -/
theorem confirmations_reply_issued (h : Sound e)
    (hold : e.tasks.get? t = some (.negotiating (.ofRequest r) r.asset r.provider offer)) :
    (e.act (.reply t (.negotiation (.ok n)))).confirmations n =
      (e.replay? r.key n).toList ++ e.confirmations n := by
  have hopen : (e.enroll r offer n).bus.isOpen := h.regular.isOpen
  have hhistory : (e.enroll r offer n).history = .registered r.key :: e.history := rfl
  have hgranted : ∀ heir? : Option TaskId,
      (heir?.toList.map Event.granted).filterMap (Event.confirmation? n) = [] := by
    intro heir?
    cases heir? <;> rfl
  have hreplay : ((e.replay? r.key n).toList.map Event.published).filterMap
      (Event.confirmation? n) = (e.replay? r.key n).toList := by
    unfold replay?
    cases e.registry.parked.get? n with
    | none => rfl
    | some p => simp [Event.confirmation?, Message.confirmation]
  rw [act_reply_issued h hold, confirmations, history_leave_ofFollowUp _ _ _ hopen, hhistory,
    List.filterMap_cons_none rfl, List.filterMap_append, List.filterMap_append, hreplay, hgranted,
    List.nil_append, List.filterMap_cons_none rfl]
  rfl

end

/-! ## Afterwards -/

/-- What the registry knows of a negotiation that has begun for `k` with `record`, once and for
all. -/
structure Tracks (e : Engine) (k : CorrelationKey) (record : PendingRecord) : Prop where
  index : e.registry.index.get? record.negotiation =
    if e.registry.records.get? k = some record then some k else none
  own : ∀ k' record', e.registry.records.get? k' = some record' →
    record'.negotiation = record.negotiation → k' = k ∧ record' = record
  closed : e.registry.closed.contains record.negotiation →
    e.registry.records.get? k ≠ some record

namespace Tracks

variable {k : CorrelationKey} {record : PendingRecord}

theorem of_unissued {r : DataRequest} {t : TaskId} {offer : ContractOffer} (hu : e.Unissued n)
    (h : Sound e)
    (hold : e.tasks.get? t = some (.negotiating (.ofRequest r) r.asset r.provider offer)) :
    (e.act (.reply t (.negotiation (.ok n)))).Tracks r.key { offer, negotiation := n } := by
  have hregistry := registry_reply_issued (n := n) h hold
  refine ⟨?_, fun k' record' hrecord' hn => ?_, fun hclosed => ?_⟩
  · simp [hregistry, Registry.file]
  · rw [hregistry] at hrecord'
    by_cases hk : r.key = k'
    · simp [Registry.file, hk] at hrecord'
      exact ⟨hk.symm, hrecord'.symm⟩
    · have hbefore : e.registry.records.get? k' = some record' := by
        simpa [Registry.file, hk] using hrecord'
      exact absurd hn (hu.records k' record' hbefore)
  · simp [hregistry, Registry.file, Assoc.contains] at hclosed

theorem act (htracks : e.Tracks k record) (h : Sound e)
    (hissues : a.issues record.negotiation = false) : (e.act a).Tracks k record := by
  obtain ⟨hindex, hown, hclosed⟩ := htracks
  suffices hkept : ∀ registry, e.Files a registry →
      (registry.index.get? record.negotiation =
        if registry.records.get? k = some record then some k else none) ∧
      (∀ k' record', registry.records.get? k' = some record' →
        record'.negotiation = record.negotiation → k' = k ∧ record' = record) ∧
      (registry.closed.contains record.negotiation → registry.records.get? k ≠ some record) by
    obtain ⟨hindex', hown', hclosed'⟩ := hkept _ (act_files h a)
    exact ⟨hindex', hown', hclosed'⟩
  intro registry hfiles
  cases hfiles with
  | same | park => exact ⟨hindex, hown, hclosed⟩
  | file t r offer n ha hold hrecord =>
      have hne : n ≠ record.negotiation := by simpa [ha, Action.issues] using hissues
      have hother : ({ offer, negotiation := n } : PendingRecord) ≠ record :=
        fun heq => hne (congrArg PendingRecord.negotiation heq)
      refine ⟨?_, fun k' record' hrecord' hn => ?_, fun hclosed' => ?_⟩
      · by_cases hk : r.key = k
        · -- the key had no record, so the negotiation was not pending before either
          subst hk
          simp [Registry.file, hne, hother, hindex, hrecord]
        · simp [Registry.file, hne, hk, hindex]
      · by_cases hk : r.key = k'
        · obtain rfl : _ = record' := by simpa [Registry.file, hk] using hrecord'
          exact absurd hn hne
        · exact hown k' record' (by simpa [Registry.file, hk] using hrecord') hn
      · have hbefore := hclosed (by
          simpa [Registry.file, Assoc.contains, Ne.symm hne] using hclosed')
        by_cases hk : r.key = k
        · simp [Registry.file, hk, hother]
        · simpa [Registry.file, hk] using hbefore
  | take key record' hrecord' =>
      by_cases hn : record'.negotiation = record.negotiation
      · obtain ⟨rfl, rfl⟩ := hown key record' hrecord' hn
        refine ⟨by simp [Registry.unfile], fun k' record₁ hrecord₁ hn₁ => ?_,
          fun _ => by simp [Registry.unfile]⟩
        have hkept : k' ≠ key ∧ e.registry.records.get? k' = some record₁ := by
          simpa [Registry.unfile] using hrecord₁
        exact absurd (hown k' record₁ hkept.2 hn₁).1 hkept.1
      · refine ⟨?_, fun k' record₁ hrecord₁ hn₁ => ?_, fun hclosed' => ?_⟩
        · by_cases hk : k = key
          · subst hk
            have hother : record' ≠ record := fun heq => hn (congrArg _ heq)
            simp [Registry.unfile, hindex, hrecord', hother]
          · simp [Registry.unfile, Ne.symm hn, hk, hindex]
        · have hkept : k' ≠ key ∧ e.registry.records.get? k' = some record₁ := by
            simpa [Registry.unfile] using hrecord₁
          exact hown k' record₁ hkept.2 hn₁
        · have hbefore := hclosed (by
            simpa [Registry.unfile, Assoc.contains, hn] using hclosed')
          by_cases hk : k = key
          · simp [Registry.unfile, hk]
          · simpa [Registry.unfile, hk] using hbefore
  | purge sweep =>
      refine ⟨hindex, hown, fun hclosed' => hclosed ?_⟩
      obtain ⟨since, hsince⟩ := Option.isSome_iff_exists.mp hclosed'
      rw [Registry.get?_closed_purge] at hsince
      exact Option.isSome_iff_exists.mpr ⟨since, (Option.filter_eq_some_iff.mp hsince).1⟩

theorem after (htracks : e.Tracks k record) (h : Sound e) {as : List Action}
    (hissues : ∀ a ∈ as, a.issues record.negotiation = false) : (e.after as).Tracks k record :=
  h.after_induction (P := (Tracks · k record)) htracks
    (fun h htracks hissues => htracks.act h hissues) hissues

/-- A callback that comes while the record is there is published at once. -/
theorem act_notify_pending (htracks : e.Tracks k record)
    (hrecord : e.registry.records.get? k = some record) (contract : ContractId) :
    e.act (.notify (.confirmed record.negotiation contract)) =
      e.publish (.confirmation k record.negotiation contract) := by
  have hindex : e.registry.index.get? record.negotiation = some k := by
    rw [htracks.index, if_pos hrecord]
  simp [Engine.act, deliver, Registry.resolveOrPark, hindex, send, Message.confirmation]

/-- A callback that comes while the negotiation is remembered as closed does nothing. -/
theorem act_notify_closed (htracks : e.Tracks k record)
    (hclosed : e.registry.closed.contains record.negotiation) (contract : ContractId) :
    e.act (.notify (.confirmed record.negotiation contract)) = e := by
  have hindex : e.registry.index.get? record.negotiation = none := by
    rw [htracks.index, if_neg (htracks.closed hclosed)]
  simp [Engine.act, deliver, Registry.resolveOrPark, hindex, hclosed]

end Tracks

/-- Whoever takes a record closes its negotiation. -/
theorem closed_of_taken (h : Sound e) {k : CorrelationKey} {record : PendingRecord}
    (hbefore : e.registry.records.get? k = some record)
    (hafter : (e.act a).registry.records.get? k ≠ some record) :
    (e.act a).registry.closed.get? record.negotiation = some e.now := by
  generalize hregistry : (e.act a).registry = registry at hafter ⊢
  have hfiles := hregistry ▸ act_files h a
  cases hfiles with
  | same | park | purge => exact absurd hbefore hafter
  | file t r offer n ha hold hrecord =>
      by_cases hk : r.key = k
      · -- the key of the new record had none before
        rw [hk, hbefore] at hrecord
        cases hrecord
      · exact absurd hbefore (by simpa [Registry.file, hk] using hafter)
  | take key record' hrecord' =>
      by_cases hk : k = key
      · subst hk
        rw [hbefore] at hrecord'
        cases hrecord'
        simp [Registry.unfile]
      · exact absurd hbefore (by simpa [Registry.unfile, hk] using hafter)

/-! ## No confirmation is lost -/

theorem confirmations_after (h : Sound e) {as : List Action}
    (hissues : ∀ a ∈ as, a.issues n = false) (hconfirms : ∀ a ∈ as, a.confirms n = false) :
    (e.after as).confirmations n = e.confirmations n := by
  refine h.after_induction (P := fun e' => e'.confirmations n = e.confirmations n) rfl
    (fun {e' a} h hsame hkind => ?_) fun a hmem => And.intro (hissues a hmem) (hconfirms a hmem)
  rw [confirmations_act h hkind.1 fun ha => by simp [hkind.2] at ha, hsame]

theorem unissued_ofSettings (s : Settings) (n : NegotiationId) : (ofSettings s).Unissued n :=
  ⟨rfl, rfl, fun k record hrecord => by simp [ofSettings] at hrecord, rfl⟩

/-- The last confirmation that comes before its negotiation begins, and that every sweep in between
keeps, is the only one published, and none stays parked. -/
theorem early_confirmation (h : Sound e) (hu : e.Unissued n) {as bs : List Action} {t : TaskId}
    {r : DataRequest} {offer : ContractOffer} {contract : ContractId}
    (hcall : ((e.act (.notify (.confirmed n contract))).after as).tasks.get? t =
      some (.negotiating (.ofRequest r) r.asset r.provider offer))
    (hissues : ∀ a ∈ as ++ bs, a.issues n = false)
    (hconfirms : ∀ a ∈ as ++ bs, a.confirms n = false)
    (hspares : spares e.now (e.act (.notify (.confirmed n contract))) as) :
    let e' := e.after (.notify (.confirmed n contract) :: as ++
      .reply t (.negotiation (.ok n)) :: bs)
    e'.confirmations n = [.confirmation r.key n contract] ∧
      e'.registry.parked.get? n = none := by
  intro e'
  simp only [List.mem_append] at hissues hconfirms
  -- the callback parks the confirmation, and it is still parked when the negotiation begins
  generalize hparked : e.act (.notify (.confirmed n contract)) = parked at hcall hspares
  have hsound₁ : Sound parked := hparked ▸ h.act _
  have hunissued₁ : parked.Unissued n := hparked ▸ hu.act h rfl
  have hkept : (parked.after as).registry.parked.get? n =
      some { contract, since := e.now } :=
    parked_after hsound₁ (hparked ▸ hu.parked_notify contract)
      (fun a ha => hissues a (.inl ha)) (fun a ha => hconfirms a (.inl ha)) hspares
  have hsound₂ : Sound (parked.after as) := hsound₁.after as
  have hunissued₂ : (parked.after as).Unissued n :=
    hunissued₁.after hsound₁ fun a ha => hissues a (.inl ha)
  -- it is published then, and what follows neither publishes nor parks another one
  generalize hbegun : (parked.after as).act (.reply t (.negotiation (.ok n))) = begun
  have hsound₃ : Sound begun := hbegun ▸ hsound₂.act _
  have hpublished : begun.confirmations n = [.confirmation r.key n contract] := by
    rw [← hbegun, confirmations_reply_issued hsound₂ hcall, hunissued₂.confirmations]
    simp [replay?, hkept]
  have hnone : begun.registry.parked.get? n = none := by
    rw [← hbegun, registry_reply_issued hsound₂ hcall]
    simp [Registry.file]
  have he' : e' = begun.after bs := by
    show e.after _ = _
    rw [List.cons_append, after_cons, hparked, after_append, after_cons, hbegun]
  rw [he']
  refine ⟨?_, not_parked_after hsound₃ hnone fun a ha => hconfirms a (.inr ha)⟩
  rw [confirmations_after hsound₃ (fun a ha => hissues a (.inr ha))
    (fun a ha => hconfirms a (.inr ha)), hpublished]

/-- However callbacks that confirm `n` and sweeps interleave with the handler of a request whose
negotiation gets the fresh id `n`:

* if all of them come before the negotiation is filed, and no sweep drops the last one, that one is
  the only confirmation of `n` ever published, and nothing stays parked;
* one that comes while the record of the negotiation is there is published at once;
* whoever takes the record closes the negotiation, and one that comes while it is remembered as
  closed, which is never before the record is taken, does nothing. -/
theorem confirmation_not_lost (s : Settings) (as bs : List Action) {t : TaskId} {r : DataRequest}
    {offer : ContractOffer} {n : NegotiationId}
    (hcall : ((ofSettings s).after as).tasks.get? t =
      some (.negotiating (.ofRequest r) r.asset r.provider offer))
    (hfresh : ∀ a ∈ as ++ bs, a.issues n = false) :
    let e := (ofSettings s).after (as ++ .reply t (.negotiation (.ok n)) :: bs)
    let record : PendingRecord := { offer, negotiation := n }
    (∀ as₁ as₂ contract, as = as₁ ++ .notify (.confirmed n contract) :: as₂ →
      (∀ a ∈ as₂ ++ bs, a.confirms n = false) →
      spares ((ofSettings s).after as₁).now
        ((ofSettings s).after (as₁ ++ [.notify (.confirmed n contract)])) as₂ →
      e.confirmations n = [.confirmation r.key n contract] ∧
        e.registry.parked.get? n = none) ∧
    (∀ contract, e.registry.records.get? r.key = some record →
      (e.act (.notify (.confirmed n contract))).history =
          .published (.confirmation r.key n contract) :: e.history ∧
        (e.act (.notify (.confirmed n contract))).bus.queue =
          e.bus.queue ++ [.confirmation r.key n contract]) ∧
    (∀ a, e.registry.records.get? r.key = some record →
      (e.act a).registry.records.get? r.key ≠ some record →
      (e.act a).registry.closed.get? n = some e.now) ∧
    (∀ contract, e.registry.closed.contains n →
      e.registry.records.get? r.key ≠ some record ∧
        e.act (.notify (.confirmed n contract)) = e) := by
  intro e record
  have hsound : Sound e := sound_after s _
  have hsoundAs : Sound ((ofSettings s).after as) := sound_after s as
  have hunissued : ((ofSettings s).after as).Unissued n :=
    (unissued_ofSettings s n).after (sound_ofSettings s) fun a ha =>
      hfresh a (List.mem_append_left bs ha)
  have he : e = (((ofSettings s).after as).act (.reply t (.negotiation (.ok n)))).after bs :=
    after_append _ as _
  have htracks : e.Tracks r.key record := by
    rw [he]
    exact (Tracks.of_unissued hunissued hsoundAs hcall).after (hsoundAs.act _) fun a ha =>
      hfresh a (List.mem_append_right as ha)
  refine ⟨fun as₁ as₂ contract has hconfirms hspares => ?_, fun contract hrecord => ?_,
    fun a hbefore hafter => closed_of_taken hsound hbefore hafter,
    fun contract hclosed => ⟨htracks.closed hclosed, htracks.act_notify_closed hclosed contract⟩⟩
  · subst has
    have hunissued₁ : ((ofSettings s).after as₁).Unissued n :=
      (unissued_ofSettings s n).after (sound_ofSettings s) fun a ha =>
        hfresh a (by simp [ha])
    rw [after_append, after_cons, after_nil] at hspares
    rw [after_append, after_cons] at hcall
    have hissues : ∀ a ∈ as₂ ++ bs, a.issues n = false := by
      intro a ha
      refine hfresh a ?_
      rw [List.append_assoc]
      exact List.mem_append_right as₁ (List.mem_cons_of_mem _ ha)
    have hearly := early_confirmation (sound_after s as₁) hunissued₁ hcall hissues hconfirms
      hspares
    have hsplit : e = ((ofSettings s).after as₁).after
        (.notify (.confirmed n contract) :: as₂ ++ .reply t (.negotiation (.ok n)) :: bs) := by
      rw [← after_append, ← List.append_assoc]
    rw [hsplit]
    exact hearly
  · have hact : e.act (.notify (.confirmed n contract)) =
        e.publish (.confirmation r.key n contract) :=
      htracks.act_notify_pending hrecord contract
    have hopen : e.bus.isOpen := hsound.regular.isOpen
    rw [hact, publish_of_isOpen _ _ hopen]
    simp [Bus.publish, hopen]

/-- Two confirmations come while the negotiation is asked for, and a sweep ends after them.  The
later one is published; a third one is published as well, and a fourth one, after the record is
taken, does nothing. -/
theorem confirmation_not_lost_of_early :
    let r : DataRequest := { key := ⟨"k"⟩, asset := ⟨"a"⟩, provider := "p" }
    let offer : ContractOffer := { id := "o", asset := ⟨"a"⟩, provider := "p" }
    let confirmed (contract : String) : Action := .notify (.confirmed ⟨"n"⟩ ⟨contract⟩)
    let as₁ : List Action :=
      [.submit r, .dispatch, .stride 0, .stride 0, .reply 0 (.offer (.ok offer)), confirmed "c",
        .pass 1]
    let as₂ : List Action := [.beginSweep, .look 1 1 [], .stride 1]
    let as := as₁ ++ confirmed "d" :: as₂
    let begun := (ofSettings {}).after (as ++ [.reply 0 (.negotiation (.ok ⟨"n"⟩))])
    let taking : List Action := [.dispatch, .stride 2, .stride 2]
    let taken := (ofSettings {}).after (as ++ .reply 0 (.negotiation (.ok ⟨"n"⟩)) :: taking)
    ((ofSettings {}).after as).tasks.get? 0 =
        some (.negotiating (.ofRequest r) r.asset r.provider offer) ∧
      (∀ a ∈ as ++ taking, a.issues ⟨"n"⟩ = false) ∧
      begun.confirmations ⟨"n"⟩ = [.confirmation r.key ⟨"n"⟩ ⟨"d"⟩] ∧
      begun.registry.parked.get? ⟨"n"⟩ = none ∧
      (begun.act (confirmed "e")).history =
        .published (.confirmation r.key ⟨"n"⟩ ⟨"e"⟩) :: begun.history ∧
      taken.registry.closed.contains ⟨"n"⟩ ∧ taken.act (confirmed "e") = taken := by
  intro r offer confirmed as₁ as₂ as begun taking taken
  have hcall : ((ofSettings {}).after as).tasks.get? 0 =
      some (.negotiating (.ofRequest r) r.asset r.provider offer) := by decide
  have hfresh : ∀ a ∈ as ++ taking, a.issues ⟨"n"⟩ = false := by
    simp [as, as₁, as₂, taking, confirmed, Action.issues]
  have hclosed : taken.registry.closed.contains ⟨"n"⟩ := by decide
  obtain ⟨hearly, hpending, -, -⟩ := confirmation_not_lost {} as [] hcall
    fun a ha => hfresh a (List.mem_append_left taking (by simpa using ha))
  obtain ⟨-, -, -, hstale⟩ := confirmation_not_lost {} as taking hcall hfresh
  obtain ⟨hlast, hnone⟩ := hearly as₁ as₂ ⟨"d"⟩ rfl (by simp [as₂, Action.confirms]) (by decide)
  obtain ⟨hpublished, -⟩ := hpending ⟨"e"⟩ (by decide)
  obtain ⟨-, hquiet⟩ := hstale ⟨"e"⟩ (by with_reducible exact hclosed)
  -- the states are the same terms, and nothing needs to be evaluated to see it
  with_reducible exact ⟨hcall, hfresh, hlast, hnone, hpublished, hclosed, hquiet⟩

end Engine

end Rendezvous
