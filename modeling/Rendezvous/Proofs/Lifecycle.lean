import Rendezvous.Proofs.Actions

/-!
# The life of a case

A case is registered when its negotiation begins, goes through its stages in order and is removed
together with one terminal message.  `Case.Transition` is the table of what can happen to the case
of a key, seen from the store alone; it forgets the open calls of `Engine.Move`.

* `Sound.transition`: every action leaves the case of a key as it was or follows one row;
* `Case.Follows`: what a case can become during its life;
* `case_lifecycle`: the table, the shape of stored cases and what stays during a life;
* `record_iff_early`: a key has a pending record exactly while its case waits for the confirmation.
-/

namespace Rendezvous

/-- How far a stage is along the life of a case. -/
def Stage.rank : Stage → Nat
  | .started => 0
  | .negotiating => 1
  | .confirmed => 2
  | .transferring => 3
  | .completed | .failed => 4

/-- The table of the case of `k`: what it was, why it changes at the instant `now`, what it becomes,
and the terminal messages published for `k` meanwhile. -/
inductive Case.Transition (k : CorrelationKey) (now : Nat) :
    Option Case → Cause → Option Case → List Message → Prop
  /-- A request with an offer has begun its negotiation. -/
  | register (r : DataRequest) (offer : ContractOffer) (n : NegotiationId) (hkey : r.key = k) :
      Transition k now none
        (.answered (.negotiating (.ofRequest r) r.asset r.provider offer) (.negotiation (.ok n)))
        (some (.ofRequest r n now)) []
  /-- Its own negotiation is accepted. -/
  | negotiate (c : Case) (n : NegotiationId) (hstage : c.stage = .started)
      (hown : c.data.negotiation = some n) :
      Transition k now (some c)
        (.handled { key := k, channel := .contractNegotiation, payload := .negotiationAccepted n })
        (some (c.advance .negotiating)) []
  /-- Its own negotiation is confirmed and the transfer has begun. -/
  | confirm (c : Case) (n : NegotiationId) (contract : ContractId) (request : TransferRequest)
      (id : TransferProcessId) (hstage : c.stage = .started ∨ c.stage = .negotiating)
      (hown : c.data.negotiation = some n) :
      Transition k now (some c)
        (.answered (.transferring (.confirmation k n contract) c request) (.transfer (.ok id)))
        (some (c.confirm contract id)) []
  /-- The transfer starts. -/
  | start (c : Case) (hstage : c.stage = .confirmed) :
      Transition k now (some c)
        (.handled { key := k, channel := .dataReference, payload := .transferStarted })
        (some (c.advance .transferring)) []
  /-- The data can be pulled. -/
  | complete (c : Case) (reference : DataReference)
      (hstage : c.stage = .confirmed ∨ c.stage = .transferring) :
      Transition k now (some c)
        (.handled { key := k, channel := .dataReference, payload := .dataReference reference })
        none [{ key := k, channel := .result, payload := .completed reference }]
  /-- Its own negotiation fails. -/
  | negotiationFailed (c : Case) (n : NegotiationId) (reason : String)
      (hown : c.data.negotiation = some n) :
      Transition k now (some c)
        (.handled
          { key := k, channel := .contractNegotiation, payload := .negotiationFailed n reason })
        none [.failed k (.negotiationFailed reason)]
  /-- The transfer is refused. -/
  | noTransfer (c : Case) (m : Message) (request : TransferRequest) (error : EngineError) :
      Transition k now (some c)
        (.answered (.transferring m c request) (.transfer (.error error)))
        none [.failed k (.transferFailed error.message)]
  /-- The transfer fails. -/
  | transferFailed (c : Case) (reason : String) :
      Transition k now (some c)
        (.handled { key := k, channel := .dataReference, payload := .transferFailed reason })
        none [.failed k (.transferFailed reason)]
  /-- A sweep finds the case expired and in the stage that it saw. -/
  | evict (c : Case) (sweep : Sweep) :
      Transition k now (some c) (.visited sweep k c.stage) none [.failed k .timeout]

/-- `c'` is what `c` has become: the same case, unchanged or in a later stage. -/
structure Case.Follows (c c' : Case) : Prop where
  stage : c' = c ∨ c.stage.rank < c'.stage.rank
  key : c'.key = c.key
  createdAt : c'.createdAt = c.createdAt
  error : c'.error = c.error
  asset : c'.data.asset = c.data.asset
  provider : c'.data.provider = c.data.provider
  negotiation : c'.data.negotiation = c.data.negotiation
  contract : c.data.contract.isSome → c'.data.contract = c.data.contract
  transfer : c.data.transfer.isSome → c'.data.transfer = c.data.transfer

namespace Case.Follows

theorem refl (c : Case) : c.Follows c :=
  ⟨.inl rfl, rfl, rfl, rfl, rfl, rfl, rfl, fun _ => rfl, fun _ => rfl⟩

theorem trans {c₁ c₂ c₃ : Case} (h₁ : c₁.Follows c₂) (h₂ : c₂.Follows c₃) : c₁.Follows c₃ where
  stage := by
    rcases h₁.stage with rfl | hless₁
    · exact h₂.stage
    · rcases h₂.stage with rfl | hless₂
      · exact .inr hless₁
      · exact .inr (Nat.lt_trans hless₁ hless₂)
  key := h₂.key.trans h₁.key
  createdAt := h₂.createdAt.trans h₁.createdAt
  error := h₂.error.trans h₁.error
  asset := h₂.asset.trans h₁.asset
  provider := h₂.provider.trans h₁.provider
  negotiation := h₂.negotiation.trans h₁.negotiation
  contract hsome :=
    have heq := h₁.contract hsome
    (h₂.contract (heq ▸ hsome)).trans heq
  transfer hsome :=
    have heq := h₁.transfer hsome
    (h₂.transfer (heq ▸ hsome)).trans heq

/-- A case that is still in its stage has not changed at all. -/
theorem eq_of_stage {c c' : Case} (h : c.Follows c') (hstage : c'.stage = c.stage) : c' = c := by
  rcases h.stage with heq | hless
  · exact heq
  · rw [hstage] at hless
    exact absurd hless (Nat.lt_irrefl _)

end Case.Follows

namespace Case.Transition

variable {k : CorrelationKey} {now : Nat} {cause : Cause} {published : List Message}

/-- A row that keeps a case moves it on. -/
theorem follows {c c' : Case} (h : Transition k now (some c) cause (some c') published)
    (hc : c.Early ∨ c.Late) : c.Follows c' := by
  cases h with
  | negotiate _ n hstage hown =>
      refine ⟨.inr ?_, rfl, rfl, rfl, rfl, rfl, rfl, fun _ => rfl, fun _ => rfl⟩
      rw [hstage]
      show Stage.rank .started < Stage.rank .negotiating
      decide
  | confirm _ n contract request id hstage hown =>
      -- an early case has neither contract nor transfer yet
      have hearly : c.Early := by
        rcases hc with hearly | hlate
        · exact hearly
        · have hthen := hlate.stage
          rcases hstage with h | h <;> simp [h] at hthen
      refine ⟨.inr ?_, rfl, rfl, rfl, rfl, rfl, rfl, fun hsome => ?_, fun hsome => ?_⟩
      · show c.stage.rank < Stage.rank .confirmed
        rcases hstage with h | h <;> rw [h] <;> decide
      · simp [hearly.contract] at hsome
      · simp [hearly.transfer] at hsome
  | start _ hstage =>
      refine ⟨.inr ?_, rfl, rfl, rfl, rfl, rfl, rfl, fun _ => rfl, fun _ => rfl⟩
      rw [hstage]
      show Stage.rank .confirmed < Stage.rank .transferring
      decide

/-- A row that begins without a case registers one now. -/
theorem createdAt_of_none {c' : Case} (h : Transition k now none cause (some c') published) :
    c'.createdAt = now := by
  cases h
  rfl

end Case.Transition

namespace Engine

variable {e : Engine} {k : CorrelationKey}

/-- Seen from the store, every row of `Move` follows a row of the table or leaves the case. -/
theorem Move.transition {s s' : Standing} {cause : Cause} (h : e.Move k s cause s')
    (hs : s.Coherent k) :
    s'.case? = s.case? ∨
      ∃ published, Case.Transition k e.now s.case? cause s'.case? published ∧
        s'.terminals = published ++ s.terminals := by
  cases h with
  | accept | offer | noOffer | noNegotiation => exact .inl rfl
  | confirm => exact .inl rfl
  | register r offer n hkey hcall hcase =>
      rw [hcase]
      exact .inr ⟨_, .register r offer n hkey, rfl⟩
  | negotiate c n hcase hstage hown hcall =>
      rw [hcase]
      exact .inr ⟨_, .negotiate c n hstage hown, rfl⟩
  | negotiationFailed c n reason hcase hown hcall =>
      rw [hcase]
      exact .inr ⟨_, .negotiationFailed c n reason hown, rfl⟩
  | transfer c n contract request id hcase hcall hcontract =>
      obtain ⟨-, -, hearly, -, n', hown, hm⟩ := hs.of_transferring hcall
      obtain ⟨rfl, -⟩ : n = n' ∧ contract = request.contract := by
        simpa [Message.confirmation] using hm
      rw [hcase]
      exact .inr ⟨_, .confirm c n contract request id hearly.stage hown, rfl⟩
  | noTransfer c m request error hcase hcall =>
      rw [hcase]
      exact .inr ⟨_, .noTransfer c m request error, rfl⟩
  | start c hcase hstage hcall =>
      rw [hcase]
      exact .inr ⟨_, .start c hstage, rfl⟩
  | complete c reference hcase hstage hcall hrecord =>
      rw [hcase]
      exact .inr ⟨_, .complete c reference hstage, rfl⟩
  | transferFailed c reason hcase hcall =>
      rw [hcase]
      exact .inr ⟨_, .transferFailed c reason, rfl⟩
  | evict c sweep seen hcase hstage hexpired hcall =>
      rw [hcase, ← hstage]
      exact .inr ⟨_, .evict c sweep, rfl⟩

/-- Every action leaves the case of a key as it was or follows one row of the table. -/
theorem Sound.transition (h : Sound e) (a : Action) (k : CorrelationKey) :
    (e.act a).store.get? k = e.store.get? k ∨
      ∃ published,
        Case.Transition k e.now (e.store.get? k) (e.cause a) ((e.act a).store.get? k) published ∧
          (e.act a).terminals k = published ++ e.terminals k := by
  rcases (act_leads h a).moves k with hsame | hmove
  · exact .inl (congrArg Standing.case? hsame)
  · exact hmove.transition (h.coherent k)

/-- A stored case is filed under its key, and early or late. -/
theorem Sound.filed (h : Sound e) {c : Case} (hcase : e.store.get? k = some c) :
    c.Filed k ∧ (c.Early ∨ c.Late) :=
  (h.coherent k).filed hcase

/-- A case that is there after an action was registered by it, or is what the case before has
become. -/
theorem Sound.origin_act (h : Sound e) (a : Action) {c' : Case}
    (hcase' : (e.act a).store.get? k = some c') :
    (e.store.get? k = none ∧ c'.createdAt = e.now) ∨
      ∃ c, e.store.get? k = some c ∧ c.Follows c' := by
  rcases h.transition a k with hsame | ⟨published, hrow, -⟩
  · exact .inr ⟨c', hsame ▸ hcase', .refl c'⟩
  · rw [hcase'] at hrow
    cases hcase : e.store.get? k with
    | none =>
        rw [hcase] at hrow
        exact .inl ⟨rfl, hrow.createdAt_of_none⟩
    | some c =>
        rw [hcase] at hrow
        exact .inr ⟨c, rfl, hrow.follows (h.filed hcase).2⟩

/-- While a key keeps its case, the case only goes forward. -/
theorem Sound.follows_after (h : Sound e) (bs : List Action) {c : Case}
    (hcase : e.store.get? k = some c)
    (hlive : ∀ n ≤ bs.length, ((e.after (bs.take n)).store.get? k).isSome) :
    ∃ c', (e.after bs).store.get? k = some c' ∧ c.Follows c' := by
  induction bs generalizing e c with
  | nil => exact ⟨c, hcase, .refl c⟩
  | cons a bs ih =>
      obtain ⟨c₁, hcase₁⟩ := Option.isSome_iff_exists.mp (hlive 1 (by simp))
      rw [List.take_succ_cons, List.take_zero, after_cons, after_nil] at hcase₁
      -- the key had a case before the first action, so that action registered none
      have hfirst : c.Follows c₁ := by
        rcases h.origin_act a hcase₁ with ⟨hnone, -⟩ | ⟨c₀, hcase₀, hfollows⟩
        · rw [hcase] at hnone
          cases hnone
        · rw [hcase] at hcase₀
          cases hcase₀
          exact hfollows
      obtain ⟨c', hcase', hrest⟩ := ih (h.act a) hcase₁ fun n hn => by
        simpa using hlive (n + 1) (by simpa using hn)
      exact ⟨c', hcase', hfirst.trans hrest⟩

/-- A case that is there after a schedule was registered meanwhile, or is what a case from before
has become. -/
theorem Sound.origin_after (h : Sound e) (bs : List Action) {c' : Case}
    (hcase' : (e.after bs).store.get? k = some c') :
    e.now ≤ c'.createdAt ∨ ∃ c, e.store.get? k = some c ∧ c.Follows c' := by
  induction bs generalizing e with
  | nil => exact .inr ⟨c', hcase', .refl c'⟩
  | cons a bs ih =>
      rcases ih (h.act a) hcase' with hlater | ⟨c₁, hcase₁, hfollows₁⟩
      · exact .inl (Nat.le_trans (act_leads h a).now_le hlater)
      · rcases h.origin_act a hcase₁ with ⟨-, hnow⟩ | ⟨c, hcase, hfollows⟩
        · exact .inl (Nat.le_of_eq (hfollows₁.createdAt.trans hnow).symm)
        · exact .inr ⟨c, hcase, hfollows.trans hfollows₁⟩

/-- In every reachable state, whatever happens next follows the table; every stored case is under
its own key, free of error, and in one of the four stages before its end, with contract and transfer
from the third on; and as long as the key keeps its case, the case only goes forward, and what it
knows stays. -/
theorem case_lifecycle (s : Settings) (as : List Action) (k : CorrelationKey) :
    let e := (ofSettings s).after as
    (∀ a, (e.act a).store.get? k = e.store.get? k ∨
      ∃ published,
        Case.Transition k e.now (e.store.get? k) (e.cause a) ((e.act a).store.get? k) published ∧
          (e.act a).terminals k = published ++ e.terminals k) ∧
    (∀ c, e.store.get? k = some c → c.Filed k ∧ (c.Early ∨ c.Late)) ∧
    (∀ bs c, e.store.get? k = some c →
      (∀ n ≤ bs.length, ((e.after (bs.take n)).store.get? k).isSome) →
        ∃ c', (e.after bs).store.get? k = some c' ∧ c.Follows c') := by
  intro e
  have hsound : Sound e := sound_after s as
  exact ⟨fun a => hsound.transition a k, fun c hcase => hsound.filed hcase,
    fun bs c hcase hlive => hsound.follows_after bs hcase hlive⟩

/-! ## Cases and records -/

/-- Whenever nobody holds the lock of `k`, the key has a pending record exactly if it has a case
that waits for its confirmation, and the record is about the negotiation of that case. -/
theorem record_iff_early (s : Settings) (as : List Action) (k : CorrelationKey)
    (hfree : ((ofSettings s).after as).store.locks.owner? k = none) :
    let e := (ofSettings s).after as
    (e.registry.contains k ↔
      ∃ c, e.store.get? k = some c ∧ (c.stage = .started ∨ c.stage = .negotiating)) ∧
    (∀ record, e.registry.records.get? k = some record →
      ∃ c, e.store.get? k = some c ∧ (c.stage = .started ∨ c.stage = .negotiating) ∧
        c.data.negotiation = some record.negotiation) := by
  intro e
  have hsound : Sound e := sound_after s as
  have hcall : e.callAt? k = none := by simp [callAt?, e, hfree]
  have hco := hsound.coherent k
  cases hcase : e.store.get? k with
  | none =>
      have hrecord : e.registry.records.get? k = none := hco.of_no_case hcall hcase
      simp [Registry.contains, Assoc.contains, hrecord]
  | some c =>
      obtain ⟨-, ⟨hearly, record, hrecord, hown⟩ | ⟨hlate, hrecord⟩⟩ := hco.of_case hcall hcase
      · have hrecord' : e.registry.records.get? k = some record := hrecord
        simp [Registry.contains, Assoc.contains, hrecord', hearly.stage, hown]
      · have hrecord' : e.registry.records.get? k = none := hrecord
        have hnot : ¬ (c.stage = .started ∨ c.stage = .negotiating) := by
          rcases hlate.stage with h | h <;> simp [h]
        simp [Registry.contains, Assoc.contains, hrecord', hnot]

/-- A request whose negotiation has begun, and which waits for the confirmation. -/
theorem record_iff_early_of_registered :
    let r : DataRequest := { key := ⟨"k"⟩, asset := ⟨"a"⟩, provider := "p" }
    let offer : ContractOffer := { id := "o", asset := ⟨"a"⟩, provider := "p" }
    let as : List Action :=
      [.submit r, .dispatch, .stride 0, .stride 0, .reply 0 (.offer (.ok offer)),
        .reply 0 (.negotiation (.ok ⟨"n"⟩))]
    let e := (ofSettings {}).after as
    e.store.locks.owner? ⟨"k"⟩ = none ∧ e.registry.contains ⟨"k"⟩ ∧
      (e.registry.contains ⟨"k"⟩ ↔
        ∃ c, e.store.get? ⟨"k"⟩ = some c ∧ (c.stage = .started ∨ c.stage = .negotiating)) ∧
      (∀ record, e.registry.records.get? ⟨"k"⟩ = some record →
        ∃ c, e.store.get? ⟨"k"⟩ = some c ∧ (c.stage = .started ∨ c.stage = .negotiating) ∧
          c.data.negotiation = some record.negotiation) := by
  intro r offer as
  have hfree : ((ofSettings {}).after as).store.locks.owner? ⟨"k"⟩ = none := by decide
  have hrecord : ((ofSettings {}).after as).registry.contains ⟨"k"⟩ := by decide
  exact ⟨hfree, hrecord, record_iff_early {} as ⟨"k"⟩ hfree⟩

end Engine

end Rendezvous
