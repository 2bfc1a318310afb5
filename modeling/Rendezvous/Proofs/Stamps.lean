import Rendezvous.Proofs.Lifecycle
import Rendezvous.Proofs.Negotiations

/-!
# When things were put down

Whatever an engine keeps bears the instant at which it was put down, and sweeps go by these
instants.  They are trustworthy: nothing is dated later than now, and the times to live never
change.

* `ExpiringMap.Restocked`: what is in a map was there before or is put there now;
* `Step.stocks`: offers come with the answer of a catalog, outcomes with a terminal message;
* `Dated`: the times to live are those of the settings, and nothing is dated later than now;
* `Registry.Backed`: a negotiation that leads to a key is the one in the record of the key;
* `dated_after`, `backed_after`: both hold of every reachable state.
-/

namespace Rendezvous

namespace ExpiringMap

variable {κ α : Type} [DecidableEq κ]

/-- From `m` to `m'` the time to live stays, and every entry of `m'` was there before or is put
there at `now`; the latter only if `fresh` holds. -/
structure Restocked (m m' : ExpiringMap κ α) (now : Nat) (fresh : Prop) : Prop where
  ttl : m'.ttl = m.ttl
  entries : ∀ k x, m'.entries.get? k = some x → m.entries.get? k = some x ∨ fresh ∧ x.2 = now

namespace Restocked

variable {m m' : ExpiringMap κ α} {now : Nat} {fresh : Prop}

theorem refl (m : ExpiringMap κ α) (now : Nat) (fresh : Prop) : m.Restocked m now fresh :=
  ⟨rfl, fun _ _ hx => .inl hx⟩

theorem of_eq (h : m' = m) : m.Restocked m' now fresh := h ▸ refl m now fresh

theorem insert (m : ExpiringMap κ α) (now : Nat) (k : κ) (v : α) (hfresh : fresh) :
    m.Restocked (m.insert now k v) now fresh where
  ttl := rfl
  entries k' x hx := by
    rw [ExpiringMap.insert, Assoc.get?_insert] at hx
    split at hx
    · cases hx
      exact .inr ⟨hfresh, rfl⟩
    · exact .inl hx

theorem erase (m : ExpiringMap κ α) (now : Nat) (k : κ) :
    m.Restocked { m with entries := m.entries.erase k } now fresh where
  ttl := rfl
  entries k' x hx := by
    rw [Assoc.get?_erase] at hx
    split at hx
    · cases hx
    · exact .inl hx

theorem get (m : ExpiringMap κ α) (now : Nat) (k : κ) : m.Restocked (m.get now k).2 now fresh := by
  unfold ExpiringMap.get
  cases m.peek? now k with
  | some v => exact refl m now fresh
  | none => exact erase m now k

theorem take (m : ExpiringMap κ α) (now : Nat) (k : κ) : m.Restocked (m.take now k).2 now fresh :=
  erase m now k

theorem purge (m : ExpiringMap κ α) (now : Nat) : m.Restocked (m.purge now).2 now fresh where
  ttl := rfl
  entries k x hx := by
    rw [ExpiringMap.purge, Assoc.get?_keep] at hx
    exact .inl (Option.filter_eq_some_iff.mp hx).1

end Restocked

end ExpiringMap

namespace Engine

variable {e e' : Engine} {a : Action} {t : TaskId} {s : Settings}

/-! ## What comes to the cache and to the board -/

/-- The action brings the answer of a catalog. -/
def Resolves (e : Engine) (a : Action) : Prop :=
  ∃ t m asset provider, a.task? = some t ∧ e.tasks.get? t = some (.resolving m asset provider)

/-- The action begins to handle a message that is there. -/
def Begins (e : Engine) (a : Action) : Prop :=
  ∃ t m, a.task? = some t ∧ e.tasks.get? t = some (.arriving m)

/-- From `e` to `e'` the times to live stay, offers come to the cache only if `offered` holds, and
outcomes to the board only if `told` does. -/
structure Stocks (e e' : Engine) (offered told : Prop) : Prop where
  parkedTtl : e'.parkedTtl = e.parkedTtl
  offers : e.offers.Restocked e'.offers e.now offered
  outcomes : e.board.outcomes.Restocked e'.board.outcomes e.now told

variable {offered told : Prop}

theorem stocks_of_eq (hparked : e'.parkedTtl = e.parkedTtl) (hoffers : e'.offers = e.offers)
    (hboard : e'.board = e.board) : Stocks e e' offered told :=
  ⟨hparked, .of_eq hoffers, .of_eq (by rw [hboard])⟩

/-- Leaving a section changes neither the cache nor the board. -/
theorem Leaving.stocks {cause : Cause} {m : Message} {r : Engine × Exit}
    (hr : Leaving e t cause m r) (h : Sound e) (hparked : r.1.parkedTtl = e.parkedTtl)
    (hoffers : e.offers.Restocked r.1.offers e.now offered) :
    Stocks e (r.1.leave t m r.2) offered told := by
  refine ⟨?_, ?_, .of_eq (by rw [hr.board h])⟩
  · simpa using hparked
  · simpa using hoffers

/-- A section of a message reads the cache at most. -/
theorem stock_handle (e : Engine) (m : Message) :
    (e.handle m).1.parkedTtl = e.parkedTtl ∧ ((e.handle m).1.offers = e.offers ∨
      ∃ pair, (e.handle m).1.offers = (e.offers.get e.now pair).2) := by
  have hsame : ∀ e' : Engine, e'.parkedTtl = e.parkedTtl → e'.offers = e.offers →
      e'.parkedTtl = e.parkedTtl ∧
        (e'.offers = e.offers ∨ ∃ pair, e'.offers = (e.offers.get e.now pair).2) :=
    fun _ hparked hoffers => ⟨hparked, .inl hoffers⟩
  unfold handle
  split
  · rename_i asset provider _ _
    unfold onRequest
    cases e.store.get? m.key with
    | some c => exact hsame _ rfl rfl
    | none =>
        dsimp only
        split
        · exact ⟨rfl, .inr ⟨(provider, asset), rfl⟩⟩
        · exact ⟨rfl, .inr ⟨(provider, asset), rfl⟩⟩
  · unfold onAccepted
    repeat' split
    all_goals exact hsame _ rfl rfl
  · unfold onNegotiationFailed
    repeat' split
    all_goals exact hsame _ rfl rfl
  · unfold onConfirmed
    repeat' split
    all_goals exact hsame _ rfl rfl
  · unfold onTransferStarted
    repeat' split
    all_goals exact hsame _ rfl rfl
  · unfold onDataReference
    repeat' split
    all_goals exact hsame _ rfl rfl
  · unfold onTransferFailed
    split
    all_goals exact hsame _ rfl rfl
  · exact hsame _ rfl rfl
  · exact hsame _ rfl rfl

theorem stock_onNegotiation (e : Engine) (m : Message) (asset : AssetId) (provider : String)
    (offer : ContractOffer) (answer : Except EngineError NegotiationId) :
    (e.onNegotiation m asset provider offer answer).1.parkedTtl = e.parkedTtl ∧
      (e.onNegotiation m asset provider offer answer).1.offers = e.offers := by
  unfold onNegotiation
  dsimp only
  repeat' split
  all_goals exact ⟨rfl, rfl⟩

theorem stocks_visit (e : Engine) (t : TaskId) (sweep : Sweep) (key : CorrelationKey)
    (seen : Stage) : Stocks e (e.visit t sweep key seen) offered told :=
  stocks_of_eq (by simp) (by simp) (by simp)

theorem Step.stocks (h : Sound e) (hs : e.Step a e') :
    Stocks e e' (e.Resolves a) (e.Begins a) := by
  cases hs with
  | idle | park | dispatch | begin | look | queueUp | keep | neverMind | pass =>
      exact stocks_of_eq rfl rfl rfl
  | submit | forward => exact stocks_of_eq (by simp) (by simp) (by simp)
  | letGo | leaveQueue => exact stocks_of_eq (by simp) (by simp) (by simp)
  | outcome t m hold hlock =>
      have hregular := h.regular.tasks t m (by simp [hold, Task.message?])
      obtain ⟨o, ho⟩ := eq_message_of_isRegular hregular hlock
      rw [ho, begin_message]
      refine ⟨by simp, .of_eq (by simp), ?_⟩
      simp only [finish_frame, record_frame, OutcomeBoard.record]
      exact .insert _ _ _ _ ⟨t, m, rfl, hold⟩
  | handle t m hold ho =>
      obtain ⟨hparked, hoffers⟩ := stock_handle e m
      refine (h.leaving_handle hold ho).stocks h hparked ?_
      rcases hoffers with hsame | ⟨pair, hread⟩
      · exact .of_eq hsame
      · exact hread ▸ .get e.offers e.now pair
  | visit t sweep key seen => exact stocks_visit e t sweep key seen
  | finishSweep t sweep => exact ⟨rfl, .purge e.offers e.now, .purge e.board.outcomes e.now⟩
  | listen t key deadline =>
      have htake : e.board.outcomes.Restocked (e.board.outcomes.take e.now key).2 e.now
          (e.Begins (.stride t)) := .take e.board.outcomes e.now key
      unfold lookForOutcome
      dsimp only
      split
      · exact ⟨rfl, .refl _ _ _, htake⟩
      · exact ⟨rfl, .refl _ _ _, htake⟩
  | offer t m asset provider answer hold =>
      refine (h.leaving_offer hold answer).stocks h ?_ ?_
      · cases answer <;> rfl
      · cases answer with
        | error error => exact .refl _ _ _
        | ok offer => exact .insert _ _ _ _ ⟨t, m, asset, provider, rfl, hold⟩
  | negotiation t m asset provider offer answer hold =>
      obtain ⟨hparked, hoffers⟩ := stock_onNegotiation e m asset provider offer answer
      exact (h.leaving_negotiation hold answer).stocks h hparked (.of_eq hoffers)
  | transfer t m c request answer hold =>
      refine (h.leaving_transfer hold answer).stocks h ?_ (.of_eq ?_)
      · cases answer <;> rfl
      · cases answer <;> rfl
  | take key => exact ⟨rfl, .refl _ _ _, .take e.board.outcomes e.now key⟩

theorem act_stocks (h : Sound e) (a : Action) :
    Stocks e (e.act a) (e.Resolves a) (e.Begins a) :=
  (e.act_step a).stocks h

/-! ## Dates -/

theorem Sound.now_le_after (h : Sound e) (as : List Action) : e.now ≤ (e.after as).now :=
  h.after_invariant (P := fun e' => e.now ≤ e'.now) (Nat.le_refl _)
    (fun h hle a => Nat.le_trans hle (act_leads h a).now_le) as

/-- The times to live of `e` are those of `s`, and nothing is dated later than now. -/
structure Dated (s : Settings) (e : Engine) : Prop where
  caseTtl : e.store.ttl = s.caseTtl
  parkedTtl : e.parkedTtl = s.parkedEventTtl
  resultTtl : e.board.outcomes.ttl = s.resultTtl
  offerTtl : e.offers.ttl = s.offerCacheTtl
  cases : ∀ k c, e.store.get? k = some c → c.createdAt ≤ e.now
  parked : ∀ n p, e.registry.parked.get? n = some p → p.since ≤ e.now
  closed : ∀ n since, e.registry.closed.get? n = some since → since ≤ e.now
  outcomes : ∀ k x, e.board.outcomes.entries.get? k = some x → x.2 ≤ e.now
  offers : ∀ i x, e.offers.entries.get? i = some x → x.2 ≤ e.now

namespace Dated

/-- What an action does to the registry dates nothing later than now. -/
theorem registry (hd : e.Dated s) {registry : Registry} (hf : e.Files a registry) :
    (∀ n p, registry.parked.get? n = some p → p.since ≤ e.now) ∧
      ∀ n since, registry.closed.get? n = some since → since ≤ e.now := by
  cases hf with
  | same => exact ⟨hd.parked, hd.closed⟩
  | park n' contract =>
      refine ⟨fun n p hp => ?_, hd.closed⟩
      rw [Assoc.get?_insert] at hp
      split at hp
      · cases hp
        exact Nat.le_refl _
      · exact hd.parked n p hp
  | file t r offer n' =>
      refine ⟨fun n p hp => hd.parked n p ?_, fun n since hsince => hd.closed n since ?_⟩
      · rw [Registry.file, Assoc.get?_erase] at hp
        exact (Option.ite_none_left_eq_some.mp hp).2
      · rw [Registry.file, Assoc.get?_erase] at hsince
        exact (Option.ite_none_left_eq_some.mp hsince).2
  | take key record =>
      refine ⟨hd.parked, fun n since hsince => ?_⟩
      rw [Registry.unfile, Assoc.get?_insert] at hsince
      split at hsince
      · cases hsince
        exact Nat.le_refl _
      · exact hd.closed n since hsince
  | purge sweep =>
      refine ⟨fun n p hp => hd.parked n p ?_, fun n since hsince => hd.closed n since ?_⟩
      · rw [Registry.get?_parked_purge] at hp
        exact (Option.filter_eq_some_iff.mp hp).1
      · rw [Registry.get?_closed_purge] at hsince
        exact (Option.filter_eq_some_iff.mp hsince).1

theorem act (hd : e.Dated s) (h : Sound e) (a : Action) : (e.act a).Dated s := by
  have hnow := (act_leads h a).now_le
  have hstocks := act_stocks h a
  obtain ⟨hparked, hclosed⟩ := hd.registry (act_files h a)
  refine ⟨?_, ?_, ?_, ?_, fun k c' hcase' => ?_, fun n p hp => ?_, fun n since hsince => ?_,
    fun k x hx => ?_, fun i x hx => ?_⟩
  · exact (act_leads h a).ttl.trans hd.caseTtl
  · exact hstocks.parkedTtl.trans hd.parkedTtl
  · exact hstocks.outcomes.ttl.trans hd.resultTtl
  · exact hstocks.offers.ttl.trans hd.offerTtl
  · rcases h.origin_act a hcase' with ⟨-, hcreated⟩ | ⟨c, hcase, hfollows⟩
    · exact hcreated ▸ hnow
    · exact hfollows.createdAt ▸ Nat.le_trans (hd.cases k c hcase) hnow
  · exact Nat.le_trans (hparked n p hp) hnow
  · exact Nat.le_trans (hclosed n since hsince) hnow
  · rcases hstocks.outcomes.entries k x hx with hbefore | ⟨-, hfresh⟩
    · exact Nat.le_trans (hd.outcomes k x hbefore) hnow
    · exact hfresh ▸ hnow
  · rcases hstocks.offers.entries i x hx with hbefore | ⟨-, hfresh⟩
    · exact Nat.le_trans (hd.offers i x hbefore) hnow
    · exact hfresh ▸ hnow

theorem after (hd : e.Dated s) (h : Sound e) (as : List Action) : (e.after as).Dated s :=
  h.after_invariant (P := Dated s) hd (fun h hd a => hd.act h a) as

end Dated

theorem dated_ofSettings (s : Settings) : (ofSettings s).Dated s where
  caseTtl := rfl
  parkedTtl := rfl
  resultTtl := rfl
  offerTtl := rfl
  cases k c hcase := by cases hcase
  parked n p hp := by cases hp
  closed n since hsince := by cases hsince
  outcomes k x hx := by cases hx
  offers i x hx := by cases hx

/-- In every reachable state nothing is dated later than now. -/
theorem dated_after (s : Settings) (as : List Action) : ((ofSettings s).after as).Dated s :=
  (dated_ofSettings s).after (sound_ofSettings s) as

end Engine

/-! ## Negotiations that lead to a key -/

namespace Registry

/-- A negotiation that leads to a key is the one in the record of the key. -/
def Backed (r : Registry) : Prop :=
  ∀ n k, r.index.get? n = some k →
    ∃ record, r.records.get? k = some record ∧ record.negotiation = n

variable {r : Registry}

theorem Backed.file (h : r.Backed) {key : CorrelationKey} (hrecord : r.records.get? key = none)
    (record : PendingRecord) : (r.file key record).Backed := by
  intro n k hindex
  simp only [Registry.file, Assoc.get?_insert] at hindex ⊢
  split at hindex
  · rename_i hn
    cases hindex
    exact ⟨record, if_pos rfl, hn⟩
  · obtain ⟨record', hrecord', hn⟩ := h n k hindex
    -- the key that gets its record had none, so it is not the key of `n`
    have hk : key ≠ k := fun hk => by
      rw [← hk, hrecord] at hrecord'
      cases hrecord'
    exact ⟨record', by rw [if_neg hk, hrecord'], hn⟩

theorem Backed.unfile (h : r.Backed) {key : CorrelationKey} {record : PendingRecord}
    (hrecord : r.records.get? key = some record) (now : Nat) :
    (r.unfile key record now).Backed := by
  intro n k hindex
  simp only [Registry.unfile, Assoc.get?_erase] at hindex ⊢
  obtain ⟨hne, hindex⟩ := Option.ite_none_left_eq_some.mp hindex
  obtain ⟨record', hrecord', hn⟩ := h n k hindex
  have hk : k ≠ key := fun hk => by
    rw [hk, hrecord] at hrecord'
    cases hrecord'
    exact hne hn.symm
  exact ⟨record', by rw [if_neg hk, hrecord'], hn⟩

end Registry

namespace Engine

variable {e : Engine}

theorem backed_act (hb : e.registry.Backed) (h : Sound e) (a : Action) :
    (e.act a).registry.Backed := by
  generalize hregistry : (e.act a).registry = registry
  have hfiles := hregistry ▸ act_files h a
  cases hfiles with
  | same | park | purge => exact hb
  | file t r offer n ha hold hrecord => exact hb.file hrecord _
  | take key record hrecord => exact hb.unfile hrecord e.now

theorem Sound.backed_after (h : Sound e) (hb : e.registry.Backed) (as : List Action) :
    (e.after as).registry.Backed :=
  h.after_invariant (P := fun e => e.registry.Backed) hb (fun h hb a => backed_act hb h a) as

/-- In every reachable state a negotiation that leads to a key is the one in its record. -/
theorem backed_after (s : Settings) (as : List Action) :
    ((ofSettings s).after as).registry.Backed :=
  (sound_ofSettings s).backed_after (fun n k hindex => by cases hindex) as

end Engine

end Rendezvous
