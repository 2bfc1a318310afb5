import Rendezvous.Adapter
import Rendezvous.Proofs.HandlerTurns

/-!
# Turns at a host with a loopback provider

What the loopback provider answers is known in advance, so the turn of a handler that calls it can
be followed to the end.

* `Calm.rejects`, `Calm.opens`: the turn of a request for an asset that is not, or is, on offer;
* `Calm.confirms`: the turn of a confirmation.
-/

namespace Rendezvous

namespace Loopback

/-- The provider to which an engine listens, after it has given out `issued` ids. -/
def attached (p : Loopback) (issued : Nat) : Loopback :=
  { p with issued, hasListener := true, hasReceiver := true }

/-- The offer that the provider makes for what `r` asks for. -/
def offerFor (r : DataRequest) : ContractOffer :=
  { id := "offer-" ++ r.asset.text, asset := r.asset, provider := r.provider }

/-- The name of the negotiation that gets the `serial`-th id. -/
def negotiationId (serial : Nat) : NegotiationId := ⟨"neg-" ++ toString serial⟩

/-- No two negotiations have the same name. -/
theorem negotiationId_inj {i j : Nat} (h : negotiationId i = negotiationId j) : i = j := by
  have htext : toString i = toString j :=
    (String.append_right_inj "neg-").mp (congrArg NegotiationId.text h)
  have hdigits : Nat.toDigits 10 i = Nat.toDigits 10 j := by
    rw [← Nat.toList_repr, ← Nat.toList_repr]
    exact congrArg String.toList htext
  rw [← Nat.ofDigitChars_ten_toDigits (n := i), hdigits, Nat.ofDigitChars_ten_toDigits]

/-- Why there is no offer for what `r` asks for. -/
def notOffered (r : DataRequest) : EngineError :=
  .collaborator ("asset " ++ r.asset.text ++ " not offered by " ++ r.provider)

variable {p : Loopback} {r : DataRequest}

theorem resolve_of_offers (h : p.offers r.asset) :
    p.resolve r.provider r.asset = .ok (offerFor r) := by
  simp [resolve, h, offerFor]

theorem resolve_of_not_offers (h : p.offers r.asset = false) :
    p.resolve r.provider r.asset = .error (notOffered r) := by
  simp [resolve, h, notOffered]

/-- Every cached offer is the one that the provider makes. -/
def Faithful (p : Loopback) (offers : OfferCache) : Prop :=
  ∀ key entry, offers.entries.get? key = some entry → p.resolve key.1 key.2 = .ok entry.1

theorem Faithful.get {offers : OfferCache} (h : p.Faithful offers) (now : Nat)
    (key : String × AssetId) : p.Faithful (offers.get now key).2 := by
  unfold ExpiringMap.get
  cases offers.peek? now key with
  | some offer => exact h
  | none =>
      intro key' entry hentry
      dsimp only at hentry
      rw [Assoc.get?_erase] at hentry
      split at hentry
      · cases hentry
      · exact h key' entry hentry

theorem Faithful.insert {offers : OfferCache} (h : p.Faithful offers) (now : Nat)
    {key : String × AssetId} {offer : ContractOffer} (hoffer : p.resolve key.1 key.2 = .ok offer) :
    p.Faithful (offers.insert now key offer) := by
  intro key' entry hentry
  unfold ExpiringMap.insert at hentry
  dsimp only at hentry
  rw [Assoc.get?_insert] at hentry
  split at hentry
  · rename_i hkey
    obtain rfl := Option.some.inj hentry
    exact hkey ▸ hoffer
  · exact h key' entry hentry

theorem Faithful.purge {offers : OfferCache} (h : p.Faithful offers) (now : Nat) :
    p.Faithful (offers.purge now).2 := by
  intro key entry hentry
  unfold ExpiringMap.purge at hentry
  dsimp only at hentry
  rw [Assoc.get?_keep] at hentry
  exact h key entry (Option.filter_eq_some_iff.mp hentry).1

/-- A cached offer is the one that the provider makes. -/
theorem Faithful.fst_get {offers : OfferCache} (h : p.Faithful offers) {now : Nat}
    {key : String × AssetId} {offer : ContractOffer} (hget : (offers.get now key).1 = some offer) :
    p.resolve key.1 key.2 = .ok offer := by
  unfold ExpiringMap.get at hget
  cases hpeek : offers.peek? now key with
  | none => rw [hpeek] at hget; cases hget
  | some offer' =>
      rw [hpeek] at hget
      obtain rfl : offer' = offer := Option.some.inj hget
      obtain ⟨entry, hentry, rfl⟩ := Option.map_eq_some_iff.mp hpeek
      exact h key entry (Option.filter_eq_some_iff.mp hentry).1

/-- The destination of a transfer says for which request it is. -/
theorem correlationKey?_correlated (kind : String) (key : CorrelationKey) :
    (TransferDestination.correlated kind key).correlationKey? = some key := by
  simp [TransferDestination.correlated, TransferDestination.withProperty,
    TransferDestination.correlationKey?, Properties.insert, Properties.empty, Properties.insertIn,
    Properties.get?]

end Loopback

/-- A request that finds no case looks for an offer. -/
theorem Engine.onRequest_of_vacant {e : Engine} {m : Message} (hcase : e.store.get? m.key = none)
    (asset : AssetId) (provider : String) :
    e.onRequest m asset provider =
      (({ e with offers := (e.offers.get e.now (provider, asset)).2 } : Engine).note
        (.accepted m.key),
        .call (match (e.offers.get e.now (provider, asset)).1 with
          | some offer => .negotiating m asset provider offer
          | none => .resolving m asset provider)) := by
  unfold onRequest
  rw [hcase]
  cases e.offers.get e.now (provider, asset) with
  | mk offer? offers => cases offer? <;> rfl

namespace Host

open Loopback

variable {h h₁ : Host Loopback} {interval due : Nat} {t : TaskId} {rest : List Turn}
variable {extra : List Turn} {p : Loopback} {issued : Nat} {r : DataRequest}

/-! ## Requests -/

/-- A request finds no case: it asks for a negotiation if it finds an offer, else for an offer. -/
theorem Calm.asks (hc : Calm h interval due) (hready : h.ready = .task t :: rest)
    (hcase : h.engine.store.get? r.key = none) (hfaithful : p.Faithful h.engine.offers) :
    let h₁ := ({ h with ready := rest, engine := h.engine.queueUp t (.handle (.ofRequest r)) } :
      Host Loopback).apply fun e => (e.handle (.ofRequest r)).1.leave t (.ofRequest r)
        (e.handle (.ofRequest r)).2
    (h₁.engine.store.cases = h.engine.store.cases ∧ h₁.engine.registry = h.engine.registry ∧
      p.Faithful h₁.engine.offers ∧ h₁.services = h.services) ∧
    (p.offers r.asset ∧ Within h h₁ t (.ofRequest r)
        (.negotiating (.ofRequest r) r.asset r.provider (offerFor r)) [] ∨
      Within h h₁ t (.ofRequest r) (.resolving (.ofRequest r) r.asset r.provider) []) := by
  intro h₁
  let e₁ := h.engine.queueUp t (.handle (.ofRequest r))
  let found := h.engine.offers.get h.engine.now (r.provider, r.asset)
  let noted : Engine := ({ e₁ with offers := found.2 } : Engine).note (.accepted r.key)
  have hcase' : e₁.store.get? r.key = none := hcase
  have hengine : h₁.engine = { (e₁.handle (.ofRequest r)).1.leave t (.ofRequest r)
      (e₁.handle (.ofRequest r)).2 with history := [] } :=
    engine_apply_of_blank (h := { h with ready := rest, engine := e₁ }) hc.blank _
  have hdata : (e₁.handle (.ofRequest r)).1 = noted → h₁.engine.store.cases = h.engine.store.cases ∧
      h₁.engine.registry = h.engine.registry ∧ p.Faithful h₁.engine.offers ∧
      h₁.services = h.services := by
    intro hnoted
    refine ⟨?_, ?_, ?_, services_apply _ _⟩ <;> rw [hengine, hnoted]
    · exact Engine.cases_leave _ _ _ _
    · exact Engine.registry_leave _ _ _ _
    · show p.Faithful (Engine.leave noted t (.ofRequest r) _).offers
      rw [Engine.offers_leave]
      exact hfaithful.get _ _
  have hwithin : ∀ (task : Task) (call : Call), task.call? = some call →
      (e₁.handle (.ofRequest r)).2 = .call task → Within h h₁ t (.ofRequest r) task [] := by
    intro task call hcall hexit
    have hcalls := (hc.within hready (.ofRequest r)).calls [] hc (Engine.handle_contained _ _)
      (by simp) h.services (f := fun e => (e.handle (.ofRequest r)).1.leave t (.ofRequest r)
        (e.handle (.ofRequest r)).2) hcall hexit rfl
    simpa using hcalls
  have hhandle : e₁.handle (.ofRequest r) = (noted, .call (match found.1 with
      | some offer => .negotiating (.ofRequest r) r.asset r.provider offer
      | none => .resolving (.ofRequest r) r.asset r.provider)) :=
    Engine.onRequest_of_vacant (m := .ofRequest r) hcase' r.asset r.provider
  refine ⟨hdata (congrArg Prod.fst hhandle), ?_⟩
  cases hfound : found.1 with
  | some offer =>
      left
      have hresolve : p.resolve r.provider r.asset = .ok offer := hfaithful.fst_get hfound
      have hoffers : p.offers r.asset = true := by
        cases hoffers : p.offers r.asset with
        | true => rfl
        | false => rw [resolve_of_not_offers hoffers] at hresolve; cases hresolve
      rw [resolve_of_offers hoffers] at hresolve
      obtain rfl := Except.ok.inj hresolve
      rw [hfound] at hhandle
      exact ⟨hoffers, hwithin _ _ rfl (congrArg Prod.snd hhandle)⟩
  | none =>
      right
      rw [hfound] at hhandle
      exact hwithin _ _ rfl (congrArg Prod.snd hhandle)

/-- The provider is asked for an offer that it does not make. -/
theorem Within.declines (hc : Calm h interval due)
    (hw : Within h h₁ t (.ofRequest r) (.resolving (.ofRequest r) r.asset r.provider) extra)
    (hservices : h₁.services = p.attached issued) (hnot : p.offers r.asset = false) (n : Nat) :
    let h' := (answerCalls (n + 1) t h₁).renewTimer t
    Does h h' (some (.task t)) (some t)
        [.failed r.key (.offerUnavailable (notOffered r).message)] extra (fun _ => []) ∧
      Keeps h₁ h' := by
  intro h'
  have hnot' : (p.attached issued).offers r.asset = false := hnot
  have hanswer : Services.respond h₁.services (.resolve r.provider r.asset) =
      (.offer (.error (notOffered r)), [], h₁.services) := by
    rw [hservices, ← resolve_of_not_offers hnot']
    rfl
  have hreply : h₁.engine.reply t (.offer (.error (notOffered r))) =
      h₁.engine.leave t (.ofRequest r)
        (.ofFollowUp (some (.failed r.key (.offerUnavailable (notOffered r).message)))) := by
    simp only [Engine.reply, hw.inside.moved.self, Engine.onOffer]
    rfl
  obtain ⟨hdoes, hengine, hservices'⟩ := hw.answered_leaves hc rfl hanswer hreply
    (.refl h₁.engine r.key _) (some (.failed r.key (.offerUnavailable (notOffered r).message))) rfl
    n
  rw [List.map_nil, List.append_nil] at hdoes
  refine ⟨hdoes, ?_, ?_, ?_, hservices'⟩ <;> rw [hengine] <;> simp

/-- The provider is asked for an offer that it makes. -/
theorem Within.resolves (hc : Calm h interval due)
    (hw : Within h h₁ t (.ofRequest r) (.resolving (.ofRequest r) r.asset r.provider) extra)
    (hservices : h₁.services = p.attached issued) (hfaithful : p.Faithful h₁.engine.offers)
    (hoffers : p.offers r.asset) (n : Nat) :
    ∃ h₂, answerCalls (n + 1) t h₁ = answerCalls n t h₂ ∧
      Within h h₂ t (.ofRequest r)
        (.negotiating (.ofRequest r) r.asset r.provider (offerFor r)) extra ∧
      h₂.engine.store.cases = h₁.engine.store.cases ∧ h₂.engine.registry = h₁.engine.registry ∧
      p.Faithful h₂.engine.offers ∧ h₂.services = h₁.services := by
  have hoffers' : (p.attached issued).offers r.asset := hoffers
  have hanswer : Services.respond h₁.services (.resolve r.provider r.asset) =
      (.offer (.ok (offerFor r)), [], h₁.services) := by
    rw [hservices, ← resolve_of_offers hoffers']
    rfl
  let kept := h₁.engine.onOffer (.ofRequest r) r.asset r.provider (.ok (offerFor r))
  have hreply : h₁.engine.reply t (.offer (.ok (offerFor r))) =
      kept.1.leave t (.ofRequest r) kept.2 := by
    simp only [Engine.reply, hw.inside.moved.self, kept]
  obtain ⟨h₂, hanswered, hwithin, hengine, hservices'⟩ := hw.answered_calls hc rfl hanswer hreply
    (Engine.onOffer_contained h₁.engine (.ofRequest r) r.asset r.provider (.ok (offerFor r)))
    rfl rfl n
  rw [List.map_nil, List.append_nil] at hwithin
  refine ⟨h₂, hanswered, hwithin, ?_, ?_, ?_, hservices'⟩ <;> rw [hengine]
  · exact Engine.cases_leave _ _ _ _
  · exact Engine.registry_leave _ _ _ _
  · show p.Faithful (Engine.leave _ t (.ofRequest r) _).offers
    rw [Engine.offers_leave]
    exact hfaithful.insert _ (resolve_of_offers hoffers)

/-- The provider is asked for a negotiation. -/
theorem Within.negotiates (hc : Calm h interval due)
    (hw : Within h h₁ t (.ofRequest r)
      (.negotiating (.ofRequest r) r.asset r.provider (offerFor r)) extra)
    (hcase : h₁.engine.store.get? r.key = none)
    (hrecord : h₁.engine.registry.records.get? r.key = none)
    (hparked : h₁.engine.registry.parked.get? (negotiationId (issued + 1)) = none)
    (hservices : h₁.services = p.attached issued) (n : Nat) :
    let h' := (answerCalls (n + 1) t h₁).renewTimer t
    Does h h' (some (.task t)) (some t) []
        (extra ++ ((p.attached issued).afterNegotiation (negotiationId (issued + 1)) (issued + 1)
          (offerFor r)).map .aftermath) (fun _ => []) ∧
      h'.engine.store.cases = h₁.engine.store.cases.insert r.key
        (.ofRequest r (negotiationId (issued + 1)) h.now) ∧
      h'.engine.registry = h₁.engine.registry.file r.key
        { offer := offerFor r, negotiation := negotiationId (issued + 1) } ∧
      h'.engine.offers = h₁.engine.offers ∧ h'.services = p.attached (issued + 1) := by
  intro h'
  have hnegotiated := Engine.onNegotiation_ok (e := h₁.engine) (offerFor r)
    (negotiationId (issued + 1)) hcase hrecord
  rw [show h₁.engine.replay? r.key (negotiationId (issued + 1)) = none by
    simp [Engine.replay?, hparked]] at hnegotiated
  have hanswer : Services.respond h₁.services (.negotiate (offerFor r)) =
      (.negotiation (.ok (negotiationId (issued + 1))),
        (p.attached issued).afterNegotiation (negotiationId (issued + 1)) (issued + 1)
          (offerFor r), p.attached (issued + 1)) := by
    rw [hservices]
    rfl
  have hreply : h₁.engine.reply t (.negotiation (.ok (negotiationId (issued + 1)))) =
      (h₁.engine.enroll r (offerFor r) (negotiationId (issued + 1))).leave t (.ofRequest r)
        (.ofFollowUp none) := by
    simp only [Engine.reply, hw.inside.moved.self, hnegotiated]
  have hcontained := Engine.onNegotiation_contained h₁.engine (.ofRequest r) r.asset r.provider
    (offerFor r) (.ok (negotiationId (issued + 1)))
  rw [hnegotiated] at hcontained
  obtain ⟨hdoes, hengine, hservices'⟩ := hw.answered_leaves hc rfl hanswer hreply hcontained none
    rfl n
  have hnow : h₁.engine.now = h.now := hw.inside.now
  refine ⟨hdoes, ?_, ?_, ?_, hservices'⟩ <;> rw [hengine]
  · simp [Engine.enroll, CaseStore.put, hnow]
  · simp [Engine.enroll]
  · simp [Engine.enroll]

section

variable (hc : Calm h interval due) (hready : h.ready = .task t :: rest)
  (hold : h.engine.tasks.get? t = some (.arriving (.ofRequest r)))
  (hcase : h.engine.store.get? r.key = none) (hservices : h.services = p.attached issued)
  (hfaithful : p.Faithful h.engine.offers)

include hc hready hold hcase hservices hfaithful

/-- The turn of a request for an asset that is not on offer. -/
theorem Calm.rejects (hnot : p.offers r.asset = false) :
    let h' := ({ h with ready := rest } : Host Loopback).runTask t
    Does h h' (some (.task t)) (some t)
        [.failed r.key (.offerUnavailable (notOffered r).message)] [] (fun _ => []) ∧
      h'.engine.store.cases = h.engine.store.cases ∧ h'.engine.registry = h.engine.registry ∧
      p.Faithful h'.engine.offers ∧ h'.services = h.services := by
  intro h'
  have hturn : h' = _ := runTask_of_needsLock hc hold rfl rest
  obtain ⟨⟨hcases, hregistry, hoffers, hservices₁⟩, ⟨hoffered, -⟩ | hw⟩ :=
    hc.asks (p := p) (r := r) hready hcase hfaithful
  · rw [hnot] at hoffered
    cases hoffered
  · obtain ⟨hdoes, hkeeps⟩ := hw.declines hc (hservices₁.trans hservices) hnot 1
    rw [hturn]
    refine ⟨hdoes, hkeeps.cases.trans hcases, hkeeps.registry.trans hregistry, ?_,
      hkeeps.services.trans hservices₁⟩
    exact hkeeps.offers ▸ hoffers

/-- The turn of a request for an asset that is on offer. -/
theorem Calm.opens (hrecord : h.engine.registry.records.get? r.key = none)
    (hparked : h.engine.registry.parked.get? (negotiationId (issued + 1)) = none)
    (hoffers : p.offers r.asset) :
    let h' := ({ h with ready := rest } : Host Loopback).runTask t
    Does h h' (some (.task t)) (some t) []
        (((p.attached issued).afterNegotiation (negotiationId (issued + 1)) (issued + 1)
          (offerFor r)).map .aftermath) (fun _ => []) ∧
      h'.engine.store.cases = h.engine.store.cases.insert r.key
        (.ofRequest r (negotiationId (issued + 1)) h.now) ∧
      h'.engine.registry = h.engine.registry.file r.key
        { offer := offerFor r, negotiation := negotiationId (issued + 1) } ∧
      p.Faithful h'.engine.offers ∧ h'.services = p.attached (issued + 1) := by
  intro h'
  have hturn : h' = _ := runTask_of_needsLock hc hold rfl rest
  obtain ⟨⟨hcases, hregistry, hfaithful₁, hservices₁⟩, hw⟩ :=
    hc.asks (p := p) (r := r) hready hcase hfaithful
  rw [hturn]
  generalize (({ h with ready := rest, engine := h.engine.queueUp t (.handle (.ofRequest r)) } :
    Host Loopback).apply fun e => (e.handle (.ofRequest r)).1.leave t (.ofRequest r)
      (e.handle (.ofRequest r)).2) = h₁ at hcases hregistry hfaithful₁ hservices₁ hw
  -- with or without a call of the catalog the handler comes to stand before the negotiation
  obtain ⟨h₂, n, hanswered, hw₂, hcases₂, hregistry₂, hfaithful₂, hservices₂⟩ : ∃ h₂ n,
      answerCalls callsPerTask t h₁ = answerCalls (n + 1) t h₂ ∧
      Within h h₂ t (.ofRequest r)
        (.negotiating (.ofRequest r) r.asset r.provider (offerFor r)) [] ∧
      h₂.engine.store.cases = h.engine.store.cases ∧ h₂.engine.registry = h.engine.registry ∧
      p.Faithful h₂.engine.offers ∧ h₂.services = h.services := by
    rcases hw with ⟨-, hw⟩ | hw
    · exact ⟨h₁, 1, rfl, hw, hcases, hregistry, hfaithful₁, hservices₁⟩
    · obtain ⟨h₂, hanswered, hw₂, hcases₂, hregistry₂, hfaithful₂, hservices₂⟩ :=
        hw.resolves hc (hservices₁.trans hservices) hfaithful₁ hoffers 1
      exact ⟨h₂, 0, hanswered, hw₂, hcases₂.trans hcases, hregistry₂.trans hregistry, hfaithful₂,
        hservices₂.trans hservices₁⟩
  rw [hanswered]
  obtain ⟨hdoes, hcases', hregistry', hoffers', hservices'⟩ := hw₂.negotiates hc
    (by unfold CaseStore.get? at hcase ⊢; rw [hcases₂]; exact hcase) (hregistry₂ ▸ hrecord)
    (hregistry₂ ▸ hparked) (hservices₂.trans hservices) n
  exact ⟨hdoes, hcases₂ ▸ hcases', hregistry₂ ▸ hregistry', hoffers' ▸ hfaithful₂, hservices'⟩

end

/-! ## Confirmations -/

/-- The turn of a confirmation for which a case waits. -/
theorem Calm.confirms (hc : Calm h interval due) (hready : h.ready = .task t :: rest)
    {k : CorrelationKey} {c : Case} {n : NegotiationId} {contract : ContractId}
    (hold : h.engine.tasks.get? t = some (.arriving (.confirmation k n contract)))
    (hcase : h.engine.store.get? k = some c) (hstage : c.stage = .started ∨ c.stage = .negotiating)
    (hown : c.data.negotiation = some n) {record : PendingRecord}
    (hrecord : h.engine.registry.records.get? k = some record)
    (hservices : h.services = p.attached issued) :
    let request : TransferRequest :=
      { contract
        asset := record.offer.asset
        provider := record.offer.provider
        destination := .correlated h.engine.destination k }
    let h' := ({ h with ready := rest } : Host Loopback).runTask t
    Does h h' (some (.task t)) (some t) []
        [.aftermath
          { delay := p.latency
            callbacks :=
              [.transferStarted k, .dataReference k (reference request k (issued + 1))] }]
        (fun _ => []) ∧
      h'.engine.store.cases = h.engine.store.cases.insert k
        (c.confirm contract ⟨"tp-" ++ toString (issued + 1)⟩) ∧
      h'.engine.registry = h.engine.registry.unfile k record h.now ∧
      h'.engine.offers = h.engine.offers ∧ h'.services = p.attached (issued + 1) := by
  intro request h'
  let m : Message := .confirmation k n contract
  let e₁ := h.engine.queueUp t (.handle m)
  let begun : Host Loopback := { h with ready := rest, engine := e₁ }
  let taken : Engine := { e₁ with registry := h.engine.registry.unfile k record h.now }
  have hhandle : e₁.handle m = (taken, .call (.transferring m c request)) := by
    have hlive : e₁.store.live? k = some c :=
      CaseStore.live?_eq_some e₁.store k hcase
        (by rcases hstage with hstage | hstage <;> simp [hstage, Stage.isTerminal])
    have htake : e₁.registry.take e₁.now k =
        (some record, h.engine.registry.unfile k record h.now) :=
      Registry.take_of_get?_eq_some _ _ _ hrecord
    show e₁.onConfirmed m n contract = _
    unfold Engine.onConfirmed
    rw [show e₁.store.live? m.key = some c from hlive,
      show e₁.registry.take e₁.now m.key = _ from htake]
    simp only [Case.concerns, hstage, hown, Bool.and_eq_true, Bool.or_eq_true, decide_eq_true_eq,
      and_self, if_true]
    rfl
  have hturn : h' = _ := runTask_of_needsLock hc hold rfl rest
  have hcall : (Task.transferring m c request).call? = some (.transfer request) := rfl
  have hw := (hc.within hready m).calls [] hc (Engine.handle_contained _ m) (by simp) h.services
    (f := fun e => (e.handle m).1.leave t m (e.handle m).2) hcall (congrArg Prod.snd hhandle) rfl
  have hengine₁ := engine_apply_of_blank (h := begun) hc.blank fun e =>
    (e.handle m).1.leave t m (e.handle m).2
  rw [show begun.engine.handle m = _ from hhandle] at hengine₁
  have hservices₁ : (begun.apply fun e => (e.handle m).1.leave t m (e.handle m).2).services =
      p.attached issued := (services_apply _ _).trans hservices
  rw [hturn, show callsPerTask = 1 + 1 from rfl]
  simp only [List.append_nil] at hw
  change Within h (begun.apply fun e => (e.handle m).1.leave t m (e.handle m).2) t m _ [] at hw
  generalize (begun.apply fun e => (e.handle m).1.leave t m (e.handle m).2) = h₁
    at hw hengine₁ hservices₁
  let confirmed := h₁.engine.onTransfer m c contract (.ok ⟨"tp-" ++ toString (issued + 1)⟩)
  have hanswer : Services.respond h₁.services (.transfer request) =
      (.transfer (.ok ⟨"tp-" ++ toString (issued + 1)⟩),
        [{ delay := p.latency
           callbacks :=
             [.transferStarted k, .dataReference k (reference request k (issued + 1))] }],
        p.attached (issued + 1)) := by
    have hkey : request.destination.correlationKey? = some k := correlationKey?_correlated _ k
    have htransfer : (p.attached issued).transfer request =
        (.ok ⟨"tp-" ++ toString (issued + 1)⟩,
          [{ delay := p.latency
             callbacks :=
               [.transferStarted k, .dataReference k (reference request k (issued + 1))] }],
          p.attached (issued + 1)) := by
      unfold transfer
      rw [hkey]
      rfl
    rw [hservices₁]
    show (Reply.transfer ((p.attached issued).transfer request).1,
      ((p.attached issued).transfer request).2.1, ((p.attached issued).transfer request).2.2) = _
    rw [htransfer]
  have hreply : h₁.engine.reply t (.transfer (.ok ⟨"tp-" ++ toString (issued + 1)⟩)) =
      confirmed.1.leave t m confirmed.2 := by
    simp only [Engine.reply, hw.inside.moved.self, confirmed]
    rfl
  obtain ⟨hdoes, hengine, hservices'⟩ := hw.answered_leaves hc rfl hanswer hreply
    (Engine.onTransfer_contained h₁.engine m c contract _) none rfl 1
  have hconfirmed : confirmed.1.store.cases = h.engine.store.cases.insert k
        (c.confirm contract ⟨"tp-" ++ toString (issued + 1)⟩) ∧
      confirmed.1.registry = h.engine.registry.unfile k record h.now ∧
      confirmed.1.offers = h.engine.offers := by
    have htaken : h₁.engine.store.cases = h.engine.store.cases ∧
        h₁.engine.registry = h.engine.registry.unfile k record h.now ∧
        h₁.engine.offers = h.engine.offers := by
      rw [hengine₁]
      exact ⟨Engine.cases_leave taken t m _, Engine.registry_leave taken t m _,
        Engine.offers_leave taken t m _⟩
    obtain ⟨hcases, hregistry, hoffers⟩ := htaken
    rw [← hcases, ← hregistry, ← hoffers]
    exact ⟨rfl, rfl, rfl⟩
  refine ⟨hdoes, ?_, ?_, ?_, hservices'⟩ <;> rw [hengine]
  · exact (Engine.cases_leave _ _ _ _).trans hconfirmed.1
  · exact (Engine.registry_leave _ _ _ _).trans hconfirmed.2.1
  · exact (Engine.offers_leave _ _ _ _).trans hconfirmed.2.2

end Host

end Rendezvous
