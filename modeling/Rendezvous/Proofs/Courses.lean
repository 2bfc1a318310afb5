import Rendezvous.Proofs.LoopbackTurns

/-!
# The courses of requests

With a loopback provider the fate of a request is settled when it is submitted: by what the provider
makes of the asset, and by nothing else.  A course says where a request stands on its way there.  At
each point its key has one load at most, and what can be seen of the key is known.

* `Loopback.verdict`, `Loopback.endsAt`, `Loopback.Gives`: how a request ends and when;
* `Picture`, `Shows`: what can be seen of one key;
* `Course`: the points that a request goes through;
* `Going`: what holds of a host between any two turns;
* `Going.turn`: who is not concerned by a turn stays on course.
-/

namespace Rendezvous

/-! ## How a request ends -/

/-- What a loopback provider makes of a request for an asset. -/
inductive Verdict
  | unavailable
  | silent
  | declined
  | granted
deriving DecidableEq

/-- The first multiple of `interval` that is not before `instant`. -/
def tickFrom (interval instant : Nat) : Nat := (instant + interval - 1) / interval * interval

theorem tickFrom_eq {interval instant tick : Nat} (hmultiple : interval ∣ tick)
    (hle : instant ≤ tick) (hlt : tick < instant + interval) :
    tickFrom interval instant = tick := by
  obtain ⟨n, rfl⟩ := hmultiple
  have hdiv : (instant + interval - 1) / interval = n := by
    refine Nat.div_eq_of_lt_le ?_ ?_
    · rw [Nat.mul_comm]
      omega
    · rw [Nat.mul_comm, Nat.mul_add, Nat.mul_one]
      omega
  rw [tickFrom, hdiv, Nat.mul_comm]

theorem le_tickFrom {interval : Nat} (hpos : 0 < interval) (instant : Nat) :
    instant ≤ tickFrom interval instant := by
  have hlt : instant + interval - 1 < ((instant + interval - 1) / interval + 1) * interval :=
    Nat.lt_mul_of_div_lt (Nat.lt_succ_self _) hpos
  rw [Nat.add_mul, Nat.one_mul] at hlt
  unfold tickFrom
  omega

theorem le_tickFrom_of_lt {interval instant tick : Nat} (hpos : 0 < interval)
    (hmultiple : interval ∣ tick) (hlt : tick < instant + interval) :
    tick ≤ tickFrom interval instant := by
  rcases Nat.lt_or_ge tick instant with hearly | hle
  · exact Nat.le_trans (Nat.le_of_lt hearly) (le_tickFrom hpos instant)
  · exact Nat.le_of_eq (tickFrom_eq hmultiple hle hlt).symm

namespace Loopback

/-- What the provider makes of a request for an asset. -/
def verdict (p : Loopback) (asset : AssetId) : Verdict :=
  if !p.offers asset then .unavailable
  else if p.silent.contains asset then .silent
  else if p.declined.contains asset then .declined
  else .granted

/-- When a request for `asset` ends that is submitted at `t₀`, if cases live for `ttl` and there is
a sweep at every multiple of `interval`. -/
def endsAt (p : Loopback) (ttl interval t₀ : Nat) (asset : AssetId) : Nat :=
  match p.verdict asset with
  | .unavailable => t₀
  | .silent => tickFrom interval (t₀ + ttl)
  | .declined => t₀ + p.latency
  | .granted => t₀ + 2 * p.latency

/-- The outcomes that the request `r` can have. -/
inductive Gives (p : Loopback) (r : DataRequest) : Outcome → Prop
  | unavailable (h : p.verdict r.asset = .unavailable) :
      Gives p r (.error (.offerUnavailable (notOffered r).message))
  | silent (h : p.verdict r.asset = .silent) : Gives p r (.error .timeout)
  | declined (h : p.verdict r.asset = .declined) :
      Gives p r (.error (.negotiationFailed "provider declined the offer"))
  | granted (h : p.verdict r.asset = .granted) (reference : DataReference)
      (hendpoint : reference.endpoint = r.provider ++ "/public/" ++ r.asset.text)
      (hproperties : reference.properties = .ofList [(correlationProperty, r.key.text)]) :
      Gives p r (.success reference)

variable {p : Loopback} {asset : AssetId}

theorem offers_of_verdict (h : p.verdict asset ≠ .unavailable) : p.offers asset := by
  unfold verdict at h
  cases hoffers : p.offers asset with
  | true => rfl
  | false => simp [hoffers] at h

theorem not_offers_of_verdict (h : p.verdict asset = .unavailable) : p.offers asset = false := by
  unfold verdict at h
  cases hoffers : p.offers asset with
  | false => rfl
  | true =>
      simp only [hoffers, Bool.not_true, Bool.false_eq_true, if_false] at h
      repeat' split at h
      all_goals cases h

/-- What the provider promises when a negotiation begins. -/
theorem afterNegotiation_of_verdict (p : Loopback) (r : DataRequest) (issued : Nat)
    (n : NegotiationId) (serial : Nat) :
    (p.attached issued).afterNegotiation n serial (offerFor r) =
      match p.verdict r.asset with
      | .declined =>
          [{ delay := p.latency
             callbacks := [.negotiationFailed n "provider declined the offer"] }]
      | .granted =>
          [{ delay := p.latency
             callbacks := [.accepted n, .confirmed n ⟨"contract-" ++ toString serial⟩] }]
      | .silent => []
      | .unavailable => (p.attached issued).afterNegotiation n serial (offerFor r) := by
  cases hoffers : p.offers r.asset <;> cases hsilent : p.silent.contains r.asset <;>
    cases hdeclined : p.declined.contains r.asset <;>
      simp only [verdict, hoffers, hsilent, hdeclined, afterNegotiation, attached, offerFor,
        Bool.not_true, Bool.not_false, Bool.or_self, Bool.or_false, Bool.false_eq_true, if_true,
        if_false]

end Loopback

/-! ## What can be seen of a key -/

/-- What can be seen of one key: what is still to come, its case, its record and its outcomes. -/
structure Picture where
  load? : Option Load := none
  case? : Option Case := none
  record? : Option PendingRecord := none
  outcomes : List (Nat × Outcome) := []

/-- The key that a callback is about, if `own` says whose each negotiation is. -/
def Callback.owner (own : NegotiationId → CorrelationKey) : Callback → CorrelationKey
  | .accepted n | .confirmed n _ | .negotiationFailed n _ => own n
  | .transferStarted k | .dataReference k _ | .transferFailed k _ => k

/-- Whether the course of the request for `k` depends on the load. -/
def Load.isFor (own : NegotiationId → CorrelationKey) (k : CorrelationKey) : Load → Bool
  | .mail m => m.key = k && !m.isLight
  | .errand _ [] => false
  | .errand _ (c :: _) => c.owner own = k

/-- What can be seen of `k` at `h` is `q`. -/
structure Shows {σ : Type} (own : NegotiationId → CorrelationKey) (h : Host σ) (k : CorrelationKey)
    (q : Picture) : Prop where
  loads : (h.loads.filter (Load.isFor own k)).Perm q.load?.toList
  case : h.engine.store.get? k = q.case?
  record : h.engine.registry.records.get? k = q.record?
  outcomes : h.outcomes k = q.outcomes

/-- The case of `k`, registered at `t₀`, waits for what comes of the negotiation `n`. -/
structure Case.Waits (c : Case) (k : CorrelationKey) (t₀ : Nat) (n : NegotiationId) : Prop where
  key : c.key = k
  createdAt : c.createdAt = t₀
  stage : c.stage = .started ∨ c.stage = .negotiating
  negotiation : c.data.negotiation = some n

/-- The case of `k`, registered at `t₀`, waits for its data reference. -/
structure Case.Receives (c : Case) (k : CorrelationKey) (t₀ : Nat) : Prop where
  key : c.key = k
  createdAt : c.createdAt = t₀
  stage : c.stage = .confirmed ∨ c.stage = .transferring

/-- What a callback comes as: with others before it at `due`, or already as a message. -/
inductive Coming (k : CorrelationKey) (now due : Nat) (before : List Callback) (c : Callback) :
    Load → Prop
  | errand : Coming k now due before c (.errand due (before ++ [c]))
  | mail (hnow : now = due) : Coming k now due before c (.mail (c.message k))

/-- A loopback provider and the times of the engine that it serves. -/
structure Setup where
  provider : Loopback
  /-- How long a case may live. -/
  ttl : Nat
  /-- The time between two sweeps. -/
  interval : Nat
  interval_pos : 0 < interval
  /-- The provider answers before a case expires. -/
  prompt : 2 * provider.latency < ttl

open Loopback

/-- The case `c` of `r` is about the `i`-th of the ids given out so far. -/
structure Negotiating (own : NegotiationId → CorrelationKey) (issued t₀ : Nat) (r : DataRequest)
    (c : Case) (i : Nat) : Prop where
  waits : c.Waits r.key t₀ (negotiationId i)
  known : i ≤ issued
  own : own (negotiationId i) = r.key

/-- What there is to be seen of the request `r`, submitted at `t₀`, at the instant `now`, if the
next sweep is due at `due`. -/
inductive Course (s : Setup) (own : NegotiationId → CorrelationKey) (issued t₀ : Nat)
    (r : DataRequest) (now due : Nat) : Picture → Prop
  | requested (hnow : now = t₀) :
      Course s own issued t₀ r now due { load? := some (.mail (.ofRequest r)) }
  | refusing (c : Case) (i : Nat) (load : Load) (hverdict : s.provider.verdict r.asset = .declined)
      (hcase : Negotiating own issued t₀ r c i)
      (hload : Coming r.key now (t₀ + s.provider.latency) []
        (.negotiationFailed (negotiationId i) "provider declined the offer") load) :
      Course s own issued t₀ r now due
        { load? := some load, case? := some c, record? := some ⟨offerFor r, negotiationId i⟩ }
  | agreeing (c : Case) (i : Nat) (contract : ContractId) (load : Load)
      (hverdict : s.provider.verdict r.asset = .granted) (hcase : Negotiating own issued t₀ r c i)
      (hload : Coming r.key now (t₀ + s.provider.latency) [.accepted (negotiationId i)]
        (.confirmed (negotiationId i) contract) load) :
      Course s own issued t₀ r now due
        { load? := some load, case? := some c, record? := some ⟨offerFor r, negotiationId i⟩ }
  | silent (c : Case) (i : Nat) (hverdict : s.provider.verdict r.asset = .silent)
      (hcase : Negotiating own issued t₀ r c i) (hdue : due < t₀ + s.ttl + s.interval) :
      Course s own issued t₀ r now due
        { case? := some c, record? := some ⟨offerFor r, negotiationId i⟩ }
  | delivering (c : Case) (reference : DataReference) (load : Load)
      (hcase : c.Receives r.key t₀) (hgives : s.provider.Gives r (.success reference))
      (hload : Coming r.key now (t₀ + 2 * s.provider.latency) [.transferStarted r.key]
        (.dataReference r.key reference) load) :
      Course s own issued t₀ r now due { load? := some load, case? := some c }
  | ending (o : Outcome) (hgives : s.provider.Gives r o)
      (hnow : now = s.provider.endsAt s.ttl s.interval t₀ r.asset) :
      Course s own issued t₀ r now due { load? := some (.mail (o.message r.key)) }
  | ended (o : Outcome) (hgives : s.provider.Gives r o) :
      Course s own issued t₀ r now due
        { outcomes := [(s.provider.endsAt s.ttl s.interval t₀ r.asset, o)] }

/-- What there is to be seen of `k`, if `asked?` is the request for it and when it was submitted. -/
inductive OnCourse (s : Setup) (own : NegotiationId → CorrelationKey) (issued now due : Nat) :
    Option (Nat × DataRequest) → CorrelationKey → Picture → Prop
  | unasked (k : CorrelationKey) : OnCourse s own issued now due none k {}
  | asked {t₀ : Nat} {r : DataRequest} {q : Picture}
      (hcourse : Course s own issued t₀ r now due q) :
      OnCourse s own issued now due (some (t₀, r)) r.key q

variable {s : Setup} {own own' : NegotiationId → CorrelationKey} {issued issued' t₀ : Nat}
variable {r : DataRequest} {now now' due : Nat} {q : Picture}

/-! ## What a course depends on -/

theorem Coming.later {k : CorrelationKey} {d : Nat} {before : List Callback} {c : Callback}
    {load : Load} (h : Coming k now d before c load) (hmail : ∀ m, load ≠ .mail m) :
    Coming k now' d before c load := by
  cases h with
  | errand => exact .errand
  | mail hnow => exact absurd rfl (hmail _)

/-- Whoever listens, the ids given out so far have the same owners. -/
def Agrees (issued : Nat) (own own' : NegotiationId → CorrelationKey) : Prop :=
  ∀ i ≤ issued, own' (negotiationId i) = own (negotiationId i)

/-- The callback is about `k`: it names the key, or a known negotiation that `k` has a record of. -/
structure Callback.About (c : Callback) (own : NegotiationId → CorrelationKey) (issued : Nat)
    (k : CorrelationKey) (record? : Option PendingRecord) : Prop where
  owner : ∀ own', Agrees issued own own' → c.owner own' = k
  key : ∀ registry : Registry, (∀ record, record? = some record →
    registry.index.get? record.negotiation = some k) → c.key? registry = some k

/-- A callback of a negotiation is about the key of its record. -/
theorem Negotiating.about {c : Case} {i : Nat} (h : Negotiating own issued t₀ r c i)
    {callback : Callback} (howner : ∀ own, callback.owner own = own (negotiationId i))
    (hkey : ∀ registry, callback.key? registry = registry.keyFor? (negotiationId i)) :
    callback.About own issued r.key (some ⟨offerFor r, negotiationId i⟩) :=
  ⟨fun own' hagrees => (howner own').trans ((hagrees i h.known).trans h.own),
    fun registry hindex => (hkey registry).trans (hindex _ rfl)⟩

namespace Course

/-- The course goes on when more ids are given out. -/
theorem mono (h : Course s own issued t₀ r now due q) (hissued : issued ≤ issued')
    (hagrees : Agrees issued own own') : Course s own' issued' t₀ r now due q := by
  have hcase : ∀ {c i}, Negotiating own issued t₀ r c i → Negotiating own' issued' t₀ r c i :=
    fun {c i} hn => ⟨hn.waits, Nat.le_trans hn.known hissued, (hagrees i hn.known).trans hn.own⟩
  cases h with
  | requested hnow => exact .requested hnow
  | refusing c i load hverdict hn hload => exact .refusing c i load hverdict (hcase hn) hload
  | agreeing c i contract load hverdict hn hload =>
      exact .agreeing c i contract load hverdict (hcase hn) hload
  | silent c i hverdict hn hdue => exact .silent c i hverdict (hcase hn) hdue
  | delivering c reference load hc hgives hload =>
      exact .delivering c reference load hc hgives hload
  | ending o hgives hnow => exact .ending o hgives hnow
  | ended o hgives => exact .ended o hgives

/-- Where no message is on its way, time can pass. -/
theorem later (h : Course s own issued t₀ r now due q) (hmail : ∀ m, q.load? ≠ some (.mail m)) :
    Course s own issued t₀ r now' due q := by
  have hload : ∀ {load : Load}, q.load? = some load → ∀ m, load ≠ .mail m :=
    fun {load} heq m hm => hmail m (hm ▸ heq)
  cases h with
  | requested hnow => exact absurd rfl (hmail _)
  | refusing c i load hverdict hn hcoming =>
      exact .refusing c i load hverdict hn (hcoming.later (hload rfl))
  | agreeing c i contract load hverdict hn hcoming =>
      exact .agreeing c i contract load hverdict hn (hcoming.later (hload rfl))
  | silent c i hverdict hn hdue => exact .silent c i hverdict hn hdue
  | delivering c reference load hc hgives hcoming =>
      exact .delivering c reference load hc hgives (hcoming.later (hload rfl))
  | ending o hgives hnow => exact absurd rfl (hmail _)
  | ended o hgives => exact .ended o hgives

/-- Callbacks to come bring, after some bookkeeping, the message that the case waits for. -/
theorem errand (h : Course s own issued t₀ r now due q) {d : Nat} {cs : List Callback}
    (hload : q.load? = some (.errand d cs)) :
    ∃ before c, cs = before ++ [c] ∧ (∀ c' ∈ cs, c'.About own issued r.key q.record?) ∧
      (∀ c' ∈ before, (c'.message r.key).isLight) ∧ (c.message r.key).isLight = false ∧
      (now = d → Course s own issued t₀ r now due
        { q with load? := some (.mail (c.message r.key)) }) := by
  cases h with
  | requested hnow => cases hload
  | refusing c i load hverdict hn hcoming =>
      cases hcoming with
      | mail hnow => cases hload
      | errand =>
          obtain ⟨rfl, rfl⟩ := Load.errand.inj (Option.some.inj hload)
          refine ⟨[], _, rfl, ?_, by simp, rfl, fun hnow =>
            .refusing c i _ hverdict hn (.mail hnow)⟩
          simpa using hn.about (fun _ => rfl) fun _ => rfl
  | agreeing c i contract load hverdict hn hcoming =>
      cases hcoming with
      | mail hnow => cases hload
      | errand =>
          obtain ⟨rfl, rfl⟩ := Load.errand.inj (Option.some.inj hload)
          refine ⟨[.accepted (negotiationId i)], _, rfl, ?_, ?_, rfl, fun hnow =>
            .agreeing c i contract _ hverdict hn (.mail hnow)⟩
          · simp only [List.cons_append, List.nil_append, List.mem_cons, List.not_mem_nil, or_false]
            rintro c' (rfl | rfl)
            · exact hn.about (fun _ => rfl) fun _ => rfl
            · exact hn.about (fun _ => rfl) fun _ => rfl
          · simp [Callback.message, Message.isLight]
  | silent c i hverdict hn hdue => cases hload
  | delivering c reference load hc hgives hcoming =>
      cases hcoming with
      | mail hnow => cases hload
      | errand =>
          obtain ⟨rfl, rfl⟩ := Load.errand.inj (Option.some.inj hload)
          refine ⟨[.transferStarted r.key], _, rfl, ?_, ?_, rfl, fun hnow =>
            .delivering c reference _ hc hgives (.mail hnow)⟩
          · simp only [List.cons_append, List.nil_append, List.mem_cons, List.not_mem_nil, or_false]
            rintro c' (rfl | rfl) <;> exact ⟨fun _ _ => rfl, fun _ _ => rfl⟩
          · simp [Callback.message, Message.isLight]
  | ending o hgives hnow => cases hload
  | ended o hgives => cases hload

/-- A case is filed under the key of its request, and was registered when that was submitted. -/
theorem case_key (h : Course s own issued t₀ r now due q) {c : Case} (hcase : q.case? = some c) :
    c.key = r.key ∧ c.createdAt = t₀ := by
  cases h with
  | requested | ending | ended => cases hcase
  | refusing c' i load hverdict hn hcoming =>
      obtain rfl := Option.some.inj hcase
      exact ⟨hn.waits.key, hn.waits.createdAt⟩
  | agreeing c' i contract load hverdict hn hcoming =>
      obtain rfl := Option.some.inj hcase
      exact ⟨hn.waits.key, hn.waits.createdAt⟩
  | silent c' i hverdict hn hdue =>
      obtain rfl := Option.some.inj hcase
      exact ⟨hn.waits.key, hn.waits.createdAt⟩
  | delivering c' reference load hc hgives hcoming =>
      obtain rfl := Option.some.inj hcase
      exact ⟨hc.key, hc.createdAt⟩

/-- A record is that of a negotiation whose id was given out. -/
theorem record_known (h : Course s own issued t₀ r now due q) {record : PendingRecord}
    (hrecord : q.record? = some record) :
    ∃ i ≤ issued, record.negotiation = negotiationId i := by
  cases h with
  | requested | delivering | ending | ended => cases hrecord
  | refusing c i load hverdict hn hcoming =>
      exact ⟨i, hn.known, congrArg _ (Option.some.inj hrecord).symm⟩
  | agreeing c i contract load hverdict hn hcoming =>
      exact ⟨i, hn.known, congrArg _ (Option.some.inj hrecord).symm⟩
  | silent c i hverdict hn hdue =>
      exact ⟨i, hn.known, congrArg _ (Option.some.inj hrecord).symm⟩

/-- Bookkeeping takes no course any further. -/
theorem nudged (h : Course s own issued t₀ r now due q) {c c' : Case} (hcase : q.case? = some c)
    (hnudged : c.Nudged c') : Course s own issued t₀ r now due { q with case? := some c' } := by
  have hwaits : ∀ {i}, Negotiating own issued t₀ r c i → Negotiating own issued t₀ r c' i := by
    intro i hn
    refine ⟨?_, hn.known, hn.own⟩
    cases hnudged with
    | negotiating hstage => exact ⟨hn.waits.key, hn.waits.createdAt, .inr rfl, hn.waits.negotiation⟩
    | transferring hstage =>
        rcases hn.waits.stage with hearly | hearly <;>
        · rw [hstage] at hearly
          cases hearly
  have hreceives : c.Receives r.key t₀ → c'.Receives r.key t₀ := by
    intro hc
    cases hnudged with
    | transferring hstage => exact ⟨hc.key, hc.createdAt, .inr rfl⟩
    | negotiating hstage =>
        rcases hc.stage with hlate | hlate <;>
        · rw [hstage] at hlate
          cases hlate
  cases h with
  | requested | ending | ended => cases hcase
  | refusing c₀ i load hverdict hn hcoming =>
      obtain rfl := Option.some.inj hcase
      exact .refusing c' i load hverdict (hwaits hn) hcoming
  | agreeing c₀ i contract load hverdict hn hcoming =>
      obtain rfl := Option.some.inj hcase
      exact .agreeing c' i contract load hverdict (hwaits hn) hcoming
  | silent c₀ i hverdict hn hdue =>
      obtain rfl := Option.some.inj hcase
      exact .silent c' i hverdict (hwaits hn) hdue
  | delivering c₀ reference load hc hgives hcoming =>
      obtain rfl := Option.some.inj hcase
      exact .delivering c' reference load (hreceives hc) hgives hcoming

/-- A sweep finds a case expired only if it waits for a provider that is silent. -/
theorem expired (h : Course s own issued t₀ r now due q)
    (hload : ∀ d cs, q.load? = some (.errand d cs) → now ≤ d) {c : Case} (hcase : q.case? = some c)
    (hexpired : c.createdAt + s.ttl ≤ now) :
    s.provider.verdict r.asset = .silent ∧ q.load? = none ∧ q.outcomes = [] ∧
      due < t₀ + s.ttl + s.interval := by
  have hcreated := (h.case_key hcase).2
  have hprompt := s.prompt
  have htime : ∀ {d before callback load}, q.load? = some load →
      Coming r.key now d before callback load → now ≤ d := by
    intro d before callback load heq hcoming
    cases hcoming with
    | errand => exact hload _ _ heq
    | mail hnow => exact Nat.le_of_eq hnow
  cases h with
  | requested | ending | ended => cases hcase
  | refusing c' i load hverdict hn hcoming =>
      have hnow := htime rfl hcoming
      omega
  | agreeing c' i contract load hverdict hn hcoming =>
      have hnow := htime rfl hcoming
      omega
  | silent c' i hverdict hn hdue => exact ⟨hverdict, rfl, rfl, hdue⟩
  | delivering c' reference load hc hgives hcoming =>
      have hnow := htime rfl hcoming
      omega

/-- A course of which no case expires goes on after a sweep. -/
theorem swept (h : Course s own issued t₀ r now due q) (hdue : due = now)
    (hlive : ∀ c, q.case? = some c → ¬ c.createdAt + s.ttl ≤ now) :
    Course s own issued t₀ r now (due + s.interval) q := by
  cases h with
  | requested hnow => exact .requested hnow
  | refusing c i load hverdict hn hload => exact .refusing c i load hverdict hn hload
  | agreeing c i contract load hverdict hn hload =>
      exact .agreeing c i contract load hverdict hn hload
  | silent c i hverdict hn hsoon =>
      refine .silent c i hverdict hn ?_
      have hyoung := hlive c rfl
      rw [hn.waits.createdAt] at hyoung
      omega
  | delivering c reference load hc hgives hload =>
      exact .delivering c reference load hc hgives hload
  | ending o hgives hnow => exact .ending o hgives hnow
  | ended o hgives => exact .ended o hgives

end Course

namespace OnCourse

variable {asked? : Option (Nat × DataRequest)} {k : CorrelationKey}

/-- A key with a load has a request. -/
theorem of_load (h : OnCourse s own issued now due asked? k q) {load : Load}
    (hload : q.load? = some load) :
    ∃ t₀ r, asked? = some (t₀, r) ∧ r.key = k ∧ Course s own issued t₀ r now due q := by
  cases h with
  | unasked => cases hload
  | asked hcourse => exact ⟨_, _, rfl, rfl, hcourse⟩

/-- A key with a case has a request. -/
theorem of_case (h : OnCourse s own issued now due asked? k q) {c : Case}
    (hcase : q.case? = some c) :
    ∃ t₀ r, asked? = some (t₀, r) ∧ r.key = k ∧ Course s own issued t₀ r now due q := by
  cases h with
  | unasked => cases hcase
  | asked hcourse => exact ⟨_, _, rfl, rfl, hcourse⟩

theorem course (h : OnCourse s own issued now due (some (t₀, r)) k q) :
    Course s own issued t₀ r now due q := by
  cases h with
  | asked hcourse => exact hcourse

end OnCourse

/-! ## Registries -/

namespace Registry

/-- Every record can be found by its negotiation. -/
def Indexed (registry : Registry) : Prop :=
  ∀ k record, registry.records.get? k = some record →
    registry.index.get? record.negotiation = some k

variable {registry : Registry} {key : CorrelationKey} {record : PendingRecord}

theorem Indexed.file (h : registry.Indexed) (hfresh : ∀ k record',
    registry.records.get? k = some record' → record'.negotiation ≠ record.negotiation) :
    (registry.file key record).Indexed := by
  intro k record' hrecord
  unfold Registry.file at hrecord ⊢
  dsimp only at hrecord ⊢
  rw [Assoc.get?_insert] at hrecord ⊢
  split at hrecord
  · rename_i hkey
    obtain rfl := Option.some.inj hrecord
    rw [if_pos rfl, hkey]
  · rw [if_neg (Ne.symm (hfresh k record' hrecord))]
    exact h k record' hrecord

theorem Indexed.take (h : registry.Indexed) (now : Nat) (key : CorrelationKey) :
    (registry.take now key).2.Indexed := by
  cases hold : registry.records.get? key with
  | none =>
      rw [registry.take_of_get?_eq_none key now hold]
      exact h
  | some record =>
      rw [registry.take_of_get?_eq_some key now hold]
      intro k record' hrecord
      unfold unfile at hrecord ⊢
      dsimp only at hrecord ⊢
      rw [Assoc.get?_erase] at hrecord ⊢
      split at hrecord
      · cases hrecord
      · rename_i hne
        rw [if_neg, h k record' hrecord]
        intro heq
        have hindex := h k record' hrecord
        rw [heq, h key record hold] at hindex
        exact hne (Option.some.inj hindex).symm

theorem parked_take (registry : Registry) (now : Nat) (key : CorrelationKey) :
    (registry.take now key).2.parked = registry.parked := by
  unfold Registry.take
  cases registry.records.get? key <;> rfl

end Registry

/-! ## Hosts with requests on course -/

/-- Between any two turns every request is on course, and everything else is as the loopback
provider left it. -/
structure Going (s : Setup) (own : NegotiationId → CorrelationKey) (issued due : Nat)
    (asked : CorrelationKey → Option (Nat × DataRequest)) (h : Host Loopback) : Prop where
  calm : h.Calm s.interval due
  services : h.services = s.provider.attached issued
  ttl : h.engine.store.ttl = s.ttl
  parked : ∀ n, h.engine.registry.parked.get? n = none
  indexed : h.engine.registry.Indexed
  faithful : s.provider.Faithful h.engine.offers
  courses : ∀ k, ∃ q, Shows own h k q ∧ OnCourse s own issued h.now due (asked k) k q

namespace Host

variable {σ : Type}

/-- The loads that a turn takes, if it is the turn `popped?` and ends the task `gone?`. -/
def taken (h : Host σ) (popped? : Option Turn) (gone? : Option TaskId) : List Load :=
  ((gone?.bind h.engine.tasks.get?).bind Task.message?).toList.map .mail ++
    (popped?.bind (Turn.load? h.now)).toList

/-- The loads that a turn leaves, if it posts messages and adds turns. -/
def left (h : Host σ) (posted : List Message) (extra : List Turn) : List Load :=
  posted.map .mail ++ extra.filterMap (Turn.load? h.now)

variable {h h' : Host σ} {popped? : Option Turn} {gone? : Option TaskId}
variable {posted : List Message} {extra : List Turn} {told : CorrelationKey → List Outcome}

theorem Does.loads_filter (hd : Does h h' popped? gone? posted extra told) (P : Load → Bool) :
    ((h.taken popped? gone?).filter P ++ h'.loads.filter P).Perm
      ((h.left posted extra).filter P ++ h.loads.filter P) := by
  rw [← List.filter_append, ← List.filter_append]
  exact hd.loads.filter P

end Host

section

variable {h h' : Host Loopback} {asked asked' : CorrelationKey → Option (Nat × DataRequest)}
variable {popped? : Option Turn} {gone? : Option TaskId} {posted : List Message}
variable {extra : List Turn} {told : CorrelationKey → List Outcome} {k : CorrelationKey}

/-- The load that a course depends on is the only one. -/
theorem Shows.load_eq (hs : Shows own h k q) {load : Load} (hmem : load ∈ h.loads)
    (hfor : load.isFor own k) : q.load? = some load :=
  Option.mem_toList.mp (hs.loads.mem_iff.mp (List.mem_filter.mpr ⟨hmem, hfor⟩))

theorem Shows.mem_loads (hs : Shows own h k q) {load : Load} (hload : q.load? = some load) :
    load ∈ h.loads :=
  (List.mem_filter.mp (hs.loads.mem_iff.mpr (Option.mem_toList.mpr hload))).1

/-- What can be seen of a key after a turn that takes its load. -/
theorem Shows.after (hs : Shows own h k q) (hd : Host.Does h h' popped? gone? posted extra told)
    (hsame : ∀ load ∈ h.loads, load.isFor own' k = load.isFor own k) (load? : Option Load)
    (htaken : (h.taken popped? gone?).filter (Load.isFor own' k) = q.load?.toList)
    (hleft : (h.left posted extra).filter (Load.isFor own' k) = load?.toList) :
    Shows own' h' k
      { load?
        case? := h'.engine.store.get? k
        record? := h'.engine.registry.records.get? k
        outcomes := (told k).map (h.now, ·) ++ q.outcomes } := by
  refine ⟨?_, rfl, rfl, ?_⟩
  · have hloads := hd.loads_filter (Load.isFor own' k)
    rw [htaken, hleft, List.filter_congr hsame] at hloads
    have hboth := hloads.trans ((hs.loads.append_left _).trans List.perm_append_comm)
    exact (List.perm_append_left_iff _).mp hboth
  · rw [hd.outcomes, hs.outcomes]

namespace Going

variable (hg : Going s own issued due asked h)

include hg

/-- A load is for the same key, whatever is made of ids not given out yet. -/
theorem isFor_congr (hagrees : Agrees issued own own') (k : CorrelationKey) :
    ∀ load ∈ h.loads, load.isFor own' k = load.isFor own k := by
  intro load hmem
  cases load with
  | mail m => rfl
  | errand d cs =>
      cases cs with
      | nil => rfl
      | cons c cs =>
          obtain ⟨q, hs, hcourse⟩ := hg.courses (c.owner own)
          have hload := hs.load_eq hmem (by simp [Load.isFor])
          obtain ⟨t₀, r, -, hkey, hcourse⟩ := hcourse.of_load hload
          obtain ⟨before, c', -, habout, -⟩ := hcourse.errand hload
          have howner := (habout c (by simp)).owner own' hagrees
          simp only [Load.isFor, howner, hkey]

/-- Who is not concerned by a turn stays on course. -/
theorem unconcerned (hd : Host.Does h h' popped? gone? posted extra told)
    (hissued : issued ≤ issued') (hagrees : Agrees issued own own')
    (hcase : h'.engine.store.get? k = h.engine.store.get? k)
    (hrecord : h'.engine.registry.records.get? k = h.engine.registry.records.get? k)
    (htold : told k = []) (htaken : (h.taken popped? gone?).filter (Load.isFor own' k) = [])
    (hleft : (h.left posted extra).filter (Load.isFor own' k) = []) :
    ∃ q, Shows own' h' k q ∧ OnCourse s own' issued' h'.now due (asked k) k q := by
  obtain ⟨q, hs, hcourse⟩ := hg.courses k
  have hnow : h'.now = h.now := hd.handles.now
  refine ⟨q, ⟨?_, hcase.trans hs.case, hrecord.trans hs.record, ?_⟩, ?_⟩
  · have hloads := hd.loads_filter (Load.isFor own' k)
    rw [htaken, hleft, List.nil_append, List.nil_append,
      List.filter_congr (hg.isFor_congr hagrees k)] at hloads
    exact hloads.trans hs.loads
  · rw [hd.outcomes, htold]
    exact hs.outcomes
  · rw [hnow]
    generalize asked k = asked? at hcourse ⊢
    cases hcourse with
    | unasked => exact .unasked k
    | asked hcourse => exact .asked (hcourse.mono hissued hagrees)

end Going

end

end Rendezvous
