import Mathlib.Algebra.GroupWithZero.Nat
import Rendezvous.Proofs.Courses

/-!
# Every turn keeps requests on course

Each turn takes the load of one key at most.  The course of that key goes one point further, and the
others stay where they are.  The potential of a host, a weighted sum of all that is still to come,
falls with every turn.

* `Host.potential`, `Host.Does.proceeds`: how much can still happen without time passing;
* `Going.turn`, `Going.advance`: from what a turn does to the courses after it;
* `Going.step`: every turn keeps all requests on course and lowers the potential.
-/

namespace Rendezvous

/-! ## The potential -/

/-- A bound on what the turn of the message adds to the potential. -/
def Message.weight (m : Message) : Nat :=
  match m.payload with
  | .request .. => 14
  | .contractConfirmed .. => 7
  | .negotiationFailed .. | .dataReference _ => 2
  | _ => 0

theorem Message.weight_le (m : Message) : m.weight ≤ 14 := by
  unfold weight
  split <;> omega

@[simp] theorem Outcome.key_message (o : Outcome) (k : CorrelationKey) : (o.message k).key = k := by
  cases o <;> rfl

@[simp] theorem Outcome.isLight_message (o : Outcome) (k : CorrelationKey) :
    (o.message k).isLight = false := by
  cases o <;> rfl

@[simp] theorem Outcome.weight_message (o : Outcome) (k : CorrelationKey) :
    (o.message k).weight = 0 := by
  cases o <;> rfl

@[simp] theorem Callback.key_message (c : Callback) (k : CorrelationKey) :
    (c.message k).key = k := by
  cases c <;> rfl

/-- A bound on what the message of the callback adds to the potential. -/
def Callback.weight : Callback → Nat
  | .confirmed .. => 9
  | .negotiationFailed .. | .dataReference .. => 4
  | .accepted _ | .transferStarted _ | .transferFailed .. => 2

/-- A callback weighs as much as its message and the two turns that the message is queued for. -/
theorem sum_weight_message (k : CorrelationKey) (cs : List Callback) :
    (cs.map fun c => (c.message k).weight).sum + 2 * cs.length = (cs.map Callback.weight).sum := by
  induction cs with
  | nil => rfl
  | cons c cs ih =>
      have hone : (c.message k).weight + 2 = c.weight := by cases c <;> rfl
      simp only [List.map_cons, List.sum_cons, List.length_cons]
      omega

def Load.weight : Load → Nat
  | .mail m => m.weight
  | .errand _ cs => (cs.map Callback.weight).sum

namespace Host

variable {σ : Type} {h h' : Host σ} {popped? : Option Turn} {gone? : Option TaskId}
variable {posted : List Message} {extra : List Turn} {told : CorrelationKey → List Outcome}

/-- How much can still happen without time passing. -/
def potential (h : Host σ) : Nat :=
  (h.loads.map Load.weight).sum + h.backlog + 2 * h.engine.store.cases.size

/-- From `h` to `h'` no time passes, and less can happen afterwards. -/
structure Proceeds (h h' : Host σ) : Prop where
  now : h'.now = h.now
  potential : h'.potential < h.potential

/-- A turn lowers the potential if what it takes weighs more than what it leaves. -/
theorem Does.proceeds (hd : Does h h' popped? gone? posted extra told)
    (hlt : ((h.left posted extra).map Load.weight).sum + extra.length + 2 * posted.length +
        2 * h'.engine.store.cases.size <
      ((h.taken popped? gone?).map Load.weight).sum + popped?.toList.length +
        2 * h.engine.store.cases.size) :
    h.Proceeds h' := by
  have hloads : ((h.taken popped? gone? ++ h'.loads).map Load.weight).sum =
      ((h.left posted extra ++ h.loads).map Load.weight).sum := (hd.loads.map Load.weight).sum_nat
  have hbacklog := hd.backlog
  simp only [List.map_append, List.sum_append] at hloads
  refine ⟨hd.handles.now, ?_⟩
  unfold Host.potential
  omega

end Host

open Loopback

variable {s : Setup} {own own' : NegotiationId → CorrelationKey} {issued issued' due : Nat}
variable {asked asked' : CorrelationKey → Option (Nat × DataRequest)} {h h' : Host Loopback}
variable {popped? : Option Turn} {gone? : Option TaskId} {posted : List Message}
variable {extra : List Turn} {told : CorrelationKey → List Outcome} {k₀ : CorrelationKey}
variable {t : TaskId} {rest : List Turn} {q : Picture} {t₀ : Nat} {r : DataRequest} {m : Message}

/-- Only one key depends on a load. -/
theorem filter_isFor {load? : Option Load} {k₀ : CorrelationKey}
    (hfor : ∀ load, load? = some load → ∀ k, load.isFor own k = decide (k₀ = k))
    (k : CorrelationKey) :
    load?.toList.filter (Load.isFor own k) = if k₀ = k then load?.toList else [] := by
  cases load? with
  | none => simp
  | some load => by_cases hk : k₀ = k <;> simp [hfor load rfl, hk]

theorem filter_isFor_mail (own : NegotiationId → CorrelationKey) (hvital : m.isLight = false)
    (k : CorrelationKey) :
    [Load.mail m].filter (Load.isFor own k) = if m.key = k then [.mail m] else [] := by
  have hfor : ∀ load, some (Load.mail m) = some load →
      ∀ k, load.isFor own k = decide (m.key = k) := by
    rintro load ⟨⟩ k
    simp [Load.isFor, hvital]
  exact filter_isFor hfor k

namespace Going

/-- From what a turn does for the key that it concerns to the courses of all keys. -/
theorem turn (hg : Going s own issued due asked h)
    (hd : Host.Does h h' popped? gone? posted extra told) (hcalm : h'.Calm s.interval due)
    (hservices : h'.services = s.provider.attached issued') (hissued : issued ≤ issued')
    (hagrees : Agrees issued own own') (hparked : ∀ n, h'.engine.registry.parked.get? n = none)
    (hindexed : h'.engine.registry.Indexed) (hfaithful : s.provider.Faithful h'.engine.offers)
    (k₀ : CorrelationKey) (hothers : ∀ k, k ≠ k₀ →
      h'.engine.store.get? k = h.engine.store.get? k ∧
      h'.engine.registry.records.get? k = h.engine.registry.records.get? k ∧ told k = [] ∧
      (h.taken popped? gone?).filter (Load.isFor own' k) = [] ∧
      (h.left posted extra).filter (Load.isFor own' k) = [] ∧ asked' k = asked k)
    (hconcerned : ∃ q, Shows own' h' k₀ q ∧
      OnCourse s own' issued' h.now due (asked' k₀) k₀ q) :
    Going s own' issued' due asked' h' where
  calm := hcalm
  services := hservices
  ttl := hd.handles.ttl.trans hg.ttl
  parked := hparked
  indexed := hindexed
  faithful := hfaithful
  courses k := by
    by_cases hk : k = k₀
    · rw [hk, show h'.now = h.now from hd.handles.now]
      exact hconcerned
    · obtain ⟨hcase, hrecord, htold, htaken, hleft, hasked⟩ := hothers k hk
      rw [hasked]
      exact hg.unconcerned hd hissued hagrees hcase hrecord htold htaken hleft

/-- A turn that takes the load of `k₀` and leaves the load `load?` in its place. -/
theorem advance (hg : Going s own issued due asked h)
    (hd : Host.Does h h' popped? gone? posted extra told) (hcalm : h'.Calm s.interval due)
    (hservices : h'.services = s.provider.attached issued') (hissued : issued ≤ issued')
    (hagrees : Agrees issued own own') (hparked : ∀ n, h'.engine.registry.parked.get? n = none)
    (hindexed : h'.engine.registry.Indexed) (hfaithful : s.provider.Faithful h'.engine.offers)
    {k₀ : CorrelationKey} (hs : Shows own h k₀ q) (load? : Option Load)
    (htaken : ∀ k, (h.taken popped? gone?).filter (Load.isFor own' k) =
      if k₀ = k then q.load?.toList else [])
    (hleft : ∀ k, (h.left posted extra).filter (Load.isFor own' k) =
      if k₀ = k then load?.toList else [])
    (hothers : ∀ k, k ≠ k₀ → h'.engine.store.get? k = h.engine.store.get? k ∧
      h'.engine.registry.records.get? k = h.engine.registry.records.get? k ∧ told k = [] ∧
      asked' k = asked k)
    (hcourse : OnCourse s own' issued' h.now due (asked' k₀) k₀
      { load?
        case? := h'.engine.store.get? k₀
        record? := h'.engine.registry.records.get? k₀
        outcomes := (told k₀).map (h.now, ·) ++ q.outcomes }) :
    Going s own' issued' due asked' h' := by
  refine hg.turn hd hcalm hservices hissued hagrees hparked hindexed hfaithful k₀
    (fun k hne => ?_) ⟨_, hs.after hd (hg.isFor_congr hagrees k₀) load? ?_ ?_, hcourse⟩
  · obtain ⟨hcase, hrecord, htold, hasked⟩ := hothers k hne
    exact ⟨hcase, hrecord, htold, (htaken k).trans (if_neg (Ne.symm hne)),
      (hleft k).trans (if_neg (Ne.symm hne)), hasked⟩
  · exact (htaken k₀).trans (if_pos rfl)
  · exact (hleft k₀).trans (if_pos rfl)

/-- A turn that nobody is concerned by. -/
theorem keeps (hg : Going s own issued due asked h)
    (hd : Host.Does h h' popped? gone? posted extra told) (hk : Host.Keeps h h')
    (hcalm : h'.Calm s.interval due) (htold : ∀ k, told k = [])
    (htaken : ∀ k, (h.taken popped? gone?).filter (Load.isFor own k) = [])
    (hleft : ∀ k, (h.left posted extra).filter (Load.isFor own k) = []) :
    Going s own issued due asked h' where
  calm := hcalm
  services := hk.services.trans hg.services
  ttl := hd.handles.ttl.trans hg.ttl
  parked := hk.registry ▸ hg.parked
  indexed := hk.registry ▸ hg.indexed
  faithful := hk.offers ▸ hg.faithful
  courses k := by
    refine hg.unconcerned hd (Nat.le_refl _) (fun _ _ => rfl) (hk.get? k) ?_ (htold k) (htaken k)
      (hleft k)
    rw [hk.registry]

/-- The message of a task is one of the loads. -/
theorem mem_loads_of_arriving (hold : h.engine.tasks.get? t = some (.arriving m)) :
    .mail m ∈ h.loads := by
  have hmail : m ∈ h.engine.mail := by
    unfold Engine.mail
    exact List.mem_append_right _ (List.mem_filterMap.mpr
      ⟨.arriving m, (Assoc.mem_values _ _).mpr ⟨t, hold⟩, rfl⟩)
  exact List.mem_append_left _ (List.mem_append_left _ (List.mem_map.mpr ⟨m, hmail, rfl⟩))

theorem taken_of_arriving (hold : h.engine.tasks.get? t = some (.arriving m)) :
    h.taken (some (.task t)) (some t) = [.mail m] := by
  simp [Host.taken, hold, Task.message?, Turn.load?]

/-- A record is that of a negotiation whose id was given out. -/
theorem record_known (hg : Going s own issued due asked h) {k : CorrelationKey}
    {record : PendingRecord} (hold : h.engine.registry.records.get? k = some record) :
    ∃ i ≤ issued, record.negotiation = negotiationId i := by
  obtain ⟨q, hs, hcourse⟩ := hg.courses k
  have hrecord := hs.record.symm.trans hold
  generalize asked k = asked? at hcourse
  cases hcourse with
  | unasked => cases hrecord
  | asked hcourse => exact hcourse.record_known hrecord

/-- The turn of a task leaves a calm host calm. -/
theorem calm_of_task (hg : Going s own issued due asked h)
    (hd : Host.Does h h' (some (.task t)) (some t) posted extra told)
    (hextra : ∀ turn ∈ extra, turn.isSweep = false) : h'.Calm s.interval due := by
  refine hg.calm.does hd (by simp) (by simp) (fun t' heq => .inl ?_) hextra
  rw [Turn.task.inj (Option.some.inj heq)]

section

variable (hg : Going s own issued due asked h) (hready : h.ready = .task t :: rest)

include hg hready

/-! ## Turns that concern nobody -/

/-- The turn of a task that is gone. -/
theorem absent (hgone : h.engine.tasks.get? t = none) :
    let h' := ({ h with ready := rest } : Host Loopback).runTask t
    Going s own issued due asked h' ∧ h.Proceeds h' := by
  intro h'
  obtain ⟨hd, hk⟩ := hg.calm.absent hready hgone
  have hcalm : h'.Calm s.interval due := by
    refine hg.calm.does hd (by simp) (by simp) (fun t' heq => .inr ?_) (by simp)
    rw [← Turn.task.inj (Option.some.inj heq)]
    exact hgone
  refine ⟨hg.keeps hd hk hcalm (fun _ => rfl) (fun _ => rfl) fun _ => rfl, ?_⟩
  refine hd.proceeds ?_
  rw [hk.cases]
  simp [Host.taken, Host.left, Turn.load?]

/-- The turn of bookkeeping. -/
theorem keepsBooks (hold : h.engine.tasks.get? t = some (.arriving m)) (hlight : m.isLight) :
    let h' := ({ h with ready := rest } : Host Loopback).runTask t
    Going s own issued due asked h' ∧ h.Proceeds h' := by
  intro h'
  obtain ⟨hd, hcases, hregistry, hoffers, hservices⟩ := hg.calm.keepsBooks hready hlight hold
  have hcalm := hg.calm_of_task hd (by simp)
  have hothers : ∀ k, k ≠ m.key → h'.engine.store.get? k = h.engine.store.get? k := by
    intro k hne
    unfold CaseStore.get?
    rcases hcases with hsame | ⟨c, c', -, -, hinsert⟩
    · rw [hsame]
    · rw [hinsert, Assoc.get?_insert, if_neg (Ne.symm hne)]
  have htaken : ∀ k, (h.taken (some (.task t)) (some t)).filter (Load.isFor own k) = [] := by
    intro k
    rw [taken_of_arriving hold]
    simp [Load.isFor, hlight]
  refine ⟨hg.turn hd hcalm (hservices.trans hg.services) (Nat.le_refl _) (fun _ _ => rfl)
    (hregistry ▸ hg.parked) (hregistry ▸ hg.indexed) (hoffers ▸ hg.faithful) m.key
    (fun k hne => ⟨hothers k hne, by rw [hregistry], rfl, htaken k, rfl, rfl⟩) ?_, ?_⟩
  · obtain ⟨q, hs, hcourse⟩ := hg.courses m.key
    have hloads : (h'.loads.filter (Load.isFor own m.key)).Perm q.load?.toList := by
      have hloads := hd.loads_filter (Load.isFor own m.key)
      rw [htaken] at hloads
      exact hloads.trans hs.loads
    have hrecord : h'.engine.registry.records.get? m.key = q.record? := by
      rw [hregistry]
      exact hs.record
    have houtcomes : h'.outcomes m.key = q.outcomes := (hd.outcomes m.key).trans hs.outcomes
    rcases hcases with hsame | ⟨c, c', hcase, hnudged, hinsert⟩
    · refine ⟨q, ⟨hloads, ?_, hrecord, houtcomes⟩, hcourse⟩
      have hcase := hs.case
      unfold CaseStore.get? at hcase ⊢
      rw [hsame]
      exact hcase
    · refine ⟨{ q with case? := some c' }, ⟨hloads, ?_, hrecord, houtcomes⟩, ?_⟩
      · unfold CaseStore.get?
        rw [hinsert, Assoc.get?_insert, if_pos rfl]
      · have hcase : q.case? = some c := hs.case.symm.trans hcase
        generalize asked m.key = asked? at hcourse ⊢
        generalize m.key = k at hcourse ⊢
        cases hcourse with
        | unasked => cases hcase
        | asked hcourse => exact .asked (hcourse.nudged hcase hnudged)
  · have hsize : h'.engine.store.cases.size = h.engine.store.cases.size := by
      rcases hcases with hsame | ⟨c, c', hcase, -, hinsert⟩
      · rw [hsame]
      · rw [hinsert]
        exact Assoc.size_insert_of_get?_eq_some hcase c'
    refine hd.proceeds ?_
    rw [taken_of_arriving hold, hsize]
    simp [Host.left]

/-! ## Turns that end a request -/

/-- The turn of an outcome on its way to the board. -/
theorem outcome {o : Outcome} (hold : h.engine.tasks.get? t = some (.arriving (o.message r.key)))
    (hasked : asked r.key = some (t₀, r))
    (hs : Shows own h r.key { load? := some (.mail (o.message r.key)) })
    (hgives : s.provider.Gives r o)
    (hnow : h.now = s.provider.endsAt s.ttl s.interval t₀ r.asset) :
    let h' := ({ h with ready := rest } : Host Loopback).runTask t
    Going s own issued due asked h' ∧ h.Proceeds h' := by
  intro h'
  obtain ⟨hd, hk⟩ := hg.calm.outcome hready hold
  have hcalm := hg.calm_of_task hd (by simp)
  refine ⟨hg.advance hd hcalm (hk.services.trans hg.services) (Nat.le_refl _) (fun _ _ => rfl)
    (hk.registry ▸ hg.parked) (hk.registry ▸ hg.indexed) (hk.offers ▸ hg.faithful) hs none
    (fun k => ?_) (fun k => (ite_self _).symm)
    (fun k hne => ⟨hk.get? k, by rw [hk.registry], if_neg (Ne.symm hne), rfl⟩) ?_, ?_⟩
  · rw [taken_of_arriving hold, filter_isFor_mail own (o.isLight_message _), o.key_message]
    rfl
  · rw [hasked, hk.get?, hs.case, hk.registry, hs.record, if_pos rfl, hnow]
    exact .asked (.ended o hgives)
  · refine hd.proceeds ?_
    rw [taken_of_arriving hold, hk.cases]
    simp [Host.left]

end

/-- A turn that takes the last message of a course and posts its outcome. -/
theorem ends (hg : Going s own issued due asked h) {o : Outcome}
    (hd : Host.Does h h' (some (.task t)) (some t) [o.message r.key] [] fun _ => [])
    (hold : h.engine.tasks.get? t = some (.arriving m)) (hkey : m.key = r.key)
    (hvital : m.isLight = false) (hweight : 2 ≤ m.weight) (hasked : asked r.key = some (t₀, r))
    (hs : Shows own h r.key q) (hload : q.load? = some (.mail m)) (hnone : q.outcomes = [])
    (hcases : h'.engine.store.cases = h.engine.store.cases ∧ q.case? = none ∨
      h'.engine.store.cases = h.engine.store.cases.erase r.key)
    (hregistry : h'.engine.registry = h.engine.registry ∧ q.record? = none ∨
      h'.engine.registry = (h.engine.registry.take h.now r.key).2)
    (hfaithful : s.provider.Faithful h'.engine.offers) (hservices : h'.services = h.services)
    (hgives : s.provider.Gives r o)
    (hnow : h.now = s.provider.endsAt s.ttl s.interval t₀ r.asset) :
    Going s own issued due asked h' ∧ h.Proceeds h' := by
  have hcase : ∀ k, h'.engine.store.get? k =
      if k = r.key then none else h.engine.store.get? k := by
    intro k
    unfold CaseStore.get?
    rcases hcases with ⟨hsame, hnone⟩ | herase
    · rw [hsame]
      split
      · rename_i hk
        rw [hk]
        exact hs.case.trans hnone
      · rfl
    · rw [herase, Assoc.get?_erase]
  have hrecord : ∀ k, h'.engine.registry.records.get? k =
      if k = r.key then none else h.engine.registry.records.get? k := by
    intro k
    rcases hregistry with ⟨hsame, hnone⟩ | htake
    · rw [hsame]
      split
      · rename_i hk
        rw [hk]
        exact hs.record.trans hnone
      · rfl
    · rw [htake, Registry.get?_records_take]
  have hkept : (∀ n, h'.engine.registry.parked.get? n = none) ∧ h'.engine.registry.Indexed := by
    rcases hregistry with ⟨hsame, -⟩ | htake
    · rw [hsame]
      exact ⟨hg.parked, hg.indexed⟩
    · rw [htake, Registry.parked_take]
      exact ⟨hg.parked, hg.indexed.take _ _⟩
  refine ⟨hg.advance hd (hg.calm_of_task hd (by simp)) (hservices.trans hg.services)
    (Nat.le_refl _) (fun _ _ => rfl) hkept.1 hkept.2 hfaithful hs
    (some (.mail (o.message r.key))) (fun k => ?_) (fun k => ?_)
    (fun k hne => ⟨(hcase k).trans (if_neg hne), (hrecord k).trans (if_neg hne), rfl, rfl⟩) ?_, ?_⟩
  · rw [taken_of_arriving hold, filter_isFor_mail own hvital, hkey, hload]
    rfl
  · have hfilter := filter_isFor_mail own (o.isLight_message r.key) k
    rw [o.key_message] at hfilter
    exact hfilter
  · rw [hasked, hcase, if_pos rfl, hrecord, if_pos rfl, hnone]
    exact .asked (.ending o hgives hnow)
  · refine hd.proceeds ?_
    have hsize : h'.engine.store.cases.size ≤ h.engine.store.cases.size := by
      rcases hcases with ⟨hsame, -⟩ | herase
      · exact Nat.le_of_eq (congrArg Assoc.size hsame)
      · have hcount := h.engine.store.cases.size_eq_erase r.key
        rw [herase]
        omega
    rw [taken_of_arriving hold]
    simp [Host.left, Load.weight]
    omega

section

variable (hg : Going s own issued due asked h) (hready : h.ready = .task t :: rest)
  (hasked : asked r.key = some (t₀, r))

include hg hready hasked

/-- The turn of a refusal. -/
theorem refuses {c : Case} {i : Nat}
    (hold : h.engine.tasks.get? t = some (.arriving ((Callback.negotiationFailed (negotiationId i)
      "provider declined the offer").message r.key)))
    (hs : Shows own h r.key
      { load? := some (.mail ((Callback.negotiationFailed (negotiationId i)
          "provider declined the offer").message r.key))
        case? := some c
        record? := some ⟨offerFor r, negotiationId i⟩ })
    (hn : Negotiating own issued t₀ r c i) (hverdict : s.provider.verdict r.asset = .declined)
    (hnow : h.now = t₀ + s.provider.latency) :
    let h' := ({ h with ready := rest } : Host Loopback).runTask t
    Going s own issued due asked h' ∧ h.Proceeds h' := by
  obtain ⟨hd, hcases, hregistry, hoffers, hservices⟩ := hg.calm.fails hready hold hs.case
    (by rcases hn.waits.stage with hstage | hstage <;> simp [hstage, Stage.isTerminal])
    hn.waits.negotiation
  exact hg.ends hd hold rfl rfl (Nat.le_refl 2) hasked hs rfl rfl (.inr hcases) (.inr hregistry)
    (hoffers ▸ hg.faithful) hservices (.declined hverdict)
    (by rw [endsAt, hverdict]; exact hnow)

/-- The turn of a data reference. -/
theorem completes {c : Case} {reference : DataReference}
    (hold : h.engine.tasks.get? t =
      some (.arriving ((Callback.dataReference r.key reference).message r.key)))
    (hs : Shows own h r.key
      { load? := some (.mail ((Callback.dataReference r.key reference).message r.key))
        case? := some c })
    (hc : c.Receives r.key t₀) (hgives : s.provider.Gives r (.success reference))
    (hnow : h.now = t₀ + 2 * s.provider.latency) :
    let h' := ({ h with ready := rest } : Host Loopback).runTask t
    Going s own issued due asked h' ∧ h.Proceeds h' := by
  obtain ⟨hd, hcases, hregistry, hoffers, hservices⟩ :=
    hg.calm.completes hready hold hs.case hc.stage
  have hverdict : s.provider.verdict r.asset = .granted := by
    cases hgives with
    | granted hverdict => exact hverdict
  exact hg.ends hd hold rfl rfl (Nat.le_refl 2) hasked hs rfl rfl (.inr hcases)
    (.inl ⟨hregistry, rfl⟩) (hoffers ▸ hg.faithful) hservices hgives
    (by rw [endsAt, hverdict]; exact hnow)

/-- The turn of a request for an asset that is not on offer. -/
theorem rejects (hold : h.engine.tasks.get? t = some (.arriving (.ofRequest r)))
    (hs : Shows own h r.key { load? := some (.mail (.ofRequest r)) })
    (hverdict : s.provider.verdict r.asset = .unavailable) (hnow : h.now = t₀) :
    let h' := ({ h with ready := rest } : Host Loopback).runTask t
    Going s own issued due asked h' ∧ h.Proceeds h' := by
  obtain ⟨hd, hcases, hregistry, hfaithful, hservices⟩ := hg.calm.rejects hready hold hs.case
    hg.services hg.faithful (not_offers_of_verdict hverdict)
  exact hg.ends hd hold rfl rfl (by simp [Message.weight, Message.ofRequest]) hasked hs rfl rfl
    (.inl ⟨hcases, rfl⟩) (.inl ⟨hregistry, rfl⟩) hfaithful hservices (.unavailable hverdict)
    (by rw [endsAt, hverdict]; exact hnow)

/-! ## Turns that take a course further -/

/-- The turn of a request for an asset on offer, if `load?` is what the provider promises. -/
theorem opens (hold : h.engine.tasks.get? t = some (.arriving (.ofRequest r)))
    (hs : Shows own h r.key { load? := some (.mail (.ofRequest r)) })
    (hverdict : s.provider.verdict r.asset ≠ .unavailable) (load? : Option Load)
    (hleft : h.left [] (((s.provider.attached issued).afterNegotiation (negotiationId (issued + 1))
      (issued + 1) (offerFor r)).map .aftermath) = load?.toList)
    (hagrees : Agrees issued own own')
    (hweight : ∀ load, load? = some load → load.weight ≤ 11)
    (hfor : ∀ load, load? = some load → ∀ k, load.isFor own' k = decide (r.key = k))
    (hcourse : Course s own' (issued + 1) t₀ r h.now due
      { load?
        case? := some (.ofRequest r (negotiationId (issued + 1)) h.now)
        record? := some ⟨offerFor r, negotiationId (issued + 1)⟩ }) :
    let h' := ({ h with ready := rest } : Host Loopback).runTask t
    Going s own' (issued + 1) due asked h' ∧ h.Proceeds h' := by
  intro h'
  obtain ⟨hd, hcases, hregistry, hfaithful, hservices⟩ := hg.calm.opens hready hold hs.case
    hg.services hg.faithful hs.record (hg.parked _) (offers_of_verdict hverdict)
  generalize hafters : ((s.provider.attached issued).afterNegotiation (negotiationId (issued + 1))
    (issued + 1) (offerFor r)) = afters at hd hleft
  have hcase : ∀ k, h'.engine.store.get? k =
      if r.key = k then some (.ofRequest r (negotiationId (issued + 1)) h.now)
      else h.engine.store.get? k := fun k => by
    unfold CaseStore.get?
    rw [hcases, Assoc.get?_insert]
  have hrecord : ∀ k, h'.engine.registry.records.get? k =
      if r.key = k then some ⟨offerFor r, negotiationId (issued + 1)⟩
      else h.engine.registry.records.get? k := fun k => by
    rw [hregistry]
    exact Assoc.get?_insert _ _ _ _
  refine ⟨hg.advance hd (hg.calm_of_task hd (by simp [Turn.isSweep])) hservices (Nat.le_succ _)
    hagrees (fun n => ?_) ?_ hfaithful hs load? (fun k => ?_) (fun k => ?_)
    (fun k hne => ⟨(hcase k).trans (if_neg (Ne.symm hne)),
      (hrecord k).trans (if_neg (Ne.symm hne)), rfl, rfl⟩) ?_, ?_⟩
  · rw [hregistry]
    have hnot := hg.parked n
    simp [Registry.file, hnot]
  · rw [hregistry]
    refine hg.indexed.file fun k record hold heq => ?_
    obtain ⟨i, hi, hknown⟩ := hg.record_known hold
    have hsame := negotiationId_inj (hknown.symm.trans heq)
    omega
  · rw [taken_of_arriving hold]
    exact filter_isFor_mail own' rfl k
  · rw [hleft]
    exact filter_isFor hfor k
  · rw [hasked, hcase, if_pos rfl, hrecord, if_pos rfl]
    exact .asked hcourse
  · refine hd.proceeds ?_
    have hsize : h'.engine.store.cases.size ≤ h.engine.store.cases.size + 1 := by
      have hcount := h.engine.store.cases.size_insert r.key
        (.ofRequest r (negotiationId (issued + 1)) h.now)
      rw [hcases]
      omega
    have hleft : ((h.left [] (afters.map .aftermath)).map Load.weight).sum +
        (afters.map Turn.aftermath).length ≤ 12 := by
      have hlength : afters.length = load?.toList.length := by
        rw [← hleft]
        simp [Host.left, Turn.load?, List.filterMap_map, Function.comp_def]
      rw [hleft, List.length_map, hlength]
      cases load? with
      | none => simp
      | some load =>
          have hone := hweight load rfl
          show load.weight + 0 + 1 ≤ 12
          omega
    have htaken : ((h.taken (some (.task t)) (some t)).map Load.weight).sum = 14 := by
      rw [taken_of_arriving hold]
      rfl
    show _ + _ + 2 * 0 + 2 * h'.engine.store.cases.size < _ + 1 + _
    omega

/-- The turn of a request. -/
theorem request (hold : h.engine.tasks.get? t = some (.arriving (.ofRequest r)))
    (hs : Shows own h r.key { load? := some (.mail (.ofRequest r)) }) (hnow : h.now = t₀) :
    let h' := ({ h with ready := rest } : Host Loopback).runTask t
    ∃ own' issued', Going s own' issued' due asked h' ∧ h.Proceeds h' := by
  subst hnow
  let own' (n : NegotiationId) : CorrelationKey :=
    if n = negotiationId (issued + 1) then r.key else own n
  have hagrees : Agrees issued own own' := fun i hi => if_neg fun heq => by
    have hsame := negotiationId_inj heq
    omega
  have hn : Negotiating own' (issued + 1) h.now r
      (.ofRequest r (negotiationId (issued + 1)) h.now) (issued + 1) :=
    ⟨⟨rfl, rfl, .inl rfl, rfl⟩, Nat.le_refl _, if_pos rfl⟩
  have hafters := afterNegotiation_of_verdict s.provider r issued (negotiationId (issued + 1))
    (issued + 1)
  cases hverdict : s.provider.verdict r.asset with
  | unavailable => exact ⟨own, issued, hg.rejects hready hasked hold hs hverdict rfl⟩
  | silent =>
      rw [hverdict] at hafters
      refine ⟨own', issued + 1, hg.opens hready hasked hold hs (by rw [hverdict]; simp)
        none (by rw [hafters]; rfl) hagrees (by simp) (by simp)
        (.silent _ _ hverdict hn ?_)⟩
      have hsoon := hg.calm.soon
      have hprompt := s.prompt
      omega
  | declined =>
      rw [hverdict] at hafters
      refine ⟨own', issued + 1, hg.opens hready hasked hold hs (by rw [hverdict]; simp)
        (some _) (by rw [hafters]; rfl) hagrees ?_ ?_ (.refusing _ _ _ hverdict hn Coming.errand)⟩
      · rintro load ⟨⟩
        simp [Load.weight, Callback.weight]
      · rintro load ⟨⟩ k
        simp [Load.isFor, Callback.owner, own']
  | granted =>
      rw [hverdict] at hafters
      refine ⟨own', issued + 1, hg.opens hready hasked hold hs (by rw [hverdict]; simp)
        (some _) (by rw [hafters]; rfl) hagrees ?_ ?_ (.agreeing _ _ _ _ hverdict hn Coming.errand)⟩
      · rintro load ⟨⟩
        simp [Load.weight, Callback.weight]
      · rintro load ⟨⟩ k
        simp [Load.isFor, Callback.owner, own']

/-- The turn of a confirmation. -/
theorem confirms {c : Case} {i : Nat} {contract : ContractId}
    (hold : h.engine.tasks.get? t =
      some (.arriving ((Callback.confirmed (negotiationId i) contract).message r.key)))
    (hs : Shows own h r.key
      { load? := some (.mail ((Callback.confirmed (negotiationId i) contract).message r.key))
        case? := some c
        record? := some ⟨offerFor r, negotiationId i⟩ })
    (hn : Negotiating own issued t₀ r c i) (hverdict : s.provider.verdict r.asset = .granted)
    (hnow : h.now = t₀ + s.provider.latency) :
    let h' := ({ h with ready := rest } : Host Loopback).runTask t
    Going s own (issued + 1) due asked h' ∧ h.Proceeds h' := by
  intro h'
  obtain ⟨hd, hcases, hregistry, hoffers, hservices⟩ := hg.calm.confirms hready hold hs.case
    hn.waits.stage hn.waits.negotiation hs.record hg.services
  generalize hreference : reference
    { contract
      asset := (offerFor r).asset
      provider := (offerFor r).provider
      destination := .correlated h.engine.destination r.key } r.key (issued + 1) = reference at hd
  generalize (⟨"tp-" ++ toString (issued + 1)⟩ : TransferProcessId) = transfer at hcases
  have htake := h.engine.registry.take_of_get?_eq_some r.key h.now hs.record
  have hcase : ∀ k, h'.engine.store.get? k =
      if r.key = k then some (c.confirm contract transfer) else h.engine.store.get? k := fun k => by
    unfold CaseStore.get?
    rw [hcases, Assoc.get?_insert]
  have hrecord : ∀ k, h'.engine.registry.records.get? k =
      if k = r.key then none else h.engine.registry.records.get? k := fun k => by
    rw [hregistry]
    exact Assoc.get?_erase _ _ _
  let load : Load := .errand (h.now + s.provider.latency)
    [.transferStarted r.key, .dataReference r.key reference]
  have hfor : ∀ load', some load = some load' →
      ∀ k, load'.isFor own k = decide (r.key = k) := by
    rintro load' ⟨⟩ k
    rfl
  have hleft : h.left [] [.aftermath { delay := s.provider.latency, callbacks :=
      [.transferStarted r.key, .dataReference r.key reference] }] = [load] := rfl
  refine ⟨hg.advance hd (hg.calm_of_task hd (by simp [Turn.isSweep])) hservices (Nat.le_succ _)
    (fun _ _ => rfl) (fun n => ?_) ?_ (hoffers ▸ hg.faithful) hs (some load) (fun k => ?_)
    (filter_isFor hfor) (fun k hne => ⟨(hcase k).trans (if_neg (Ne.symm hne)),
      (hrecord k).trans (if_neg hne), rfl, rfl⟩) ?_, ?_⟩
  · rw [hregistry]
    exact hg.parked n
  · have hindexed := hg.indexed.take h.now r.key
    rw [htake] at hindexed
    rw [hregistry]
    exact hindexed
  · rw [taken_of_arriving hold]
    exact filter_isFor_mail own rfl k
  · have hgives : s.provider.Gives r (.success reference) :=
      .granted hverdict reference (by rw [← hreference]; rfl) (by rw [← hreference]; rfl)
    have hcoming : Coming r.key h.now (t₀ + 2 * s.provider.latency) [.transferStarted r.key]
        (.dataReference r.key reference) load := by
      have hdue : h.now + s.provider.latency = t₀ + 2 * s.provider.latency := by omega
      simp only [load, hdue]
      exact .errand
    rw [hasked, hcase, if_pos rfl, hrecord, if_pos rfl]
    exact .asked (.delivering (c.confirm contract transfer) reference load
      ⟨hn.waits.key, hn.waits.createdAt, .inl rfl⟩ hgives hcoming)
  · refine hd.proceeds ?_
    have hsize : h'.engine.store.cases.size = h.engine.store.cases.size := by
      rw [hcases]
      exact Assoc.size_insert_of_get?_eq_some hs.case _
    rw [taken_of_arriving hold, hleft]
    show (6 + 0) + 1 + 2 * 0 + 2 * h'.engine.store.cases.size < (7 + 0) + 1 + _
    omega

end

/-- The turn of a task. -/
theorem task (hg : Going s own issued due asked h) (hready : h.ready = .task t :: rest) :
    let h' := ({ h with ready := rest } : Host Loopback).runTask t
    ∃ own' issued', Going s own' issued' due asked h' ∧ h.Proceeds h' := by
  cases hold : h.engine.tasks.get? t with
  | none => exact ⟨own, issued, hg.absent hready hold⟩
  | some task =>
      obtain ⟨⟨m, rfl⟩, -⟩ := hg.calm.tasks t task hold
      cases hlight : m.isLight with
      | true => exact ⟨own, issued, hg.keepsBooks hready hold hlight⟩
      | false =>
          -- the message is the load of its key, which says where its course stands
          obtain ⟨q, hs, hcourse⟩ := hg.courses m.key
          have hload := hs.load_eq (mem_loads_of_arriving hold) (by simp [Load.isFor, hlight])
          obtain ⟨t₀, r, hasked, hkey, hcourse⟩ := hcourse.of_load hload
          rw [← hkey] at hs hasked
          cases hcourse with
          | requested hnow =>
              obtain rfl := Load.mail.inj (Option.some.inj hload)
              exact hg.request hready hasked hold hs hnow
          | refusing c i load hverdict hn hcoming =>
              cases hcoming with
              | errand => cases hload
              | mail hnow =>
                  obtain rfl := Load.mail.inj (Option.some.inj hload)
                  exact ⟨own, issued, hg.refuses hready hasked hold hs hn hverdict hnow⟩
          | agreeing c i contract load hverdict hn hcoming =>
              cases hcoming with
              | errand => cases hload
              | mail hnow =>
                  obtain rfl := Load.mail.inj (Option.some.inj hload)
                  exact ⟨own, issued + 1, hg.confirms hready hasked hold hs hn hverdict hnow⟩
          | silent c i hverdict hn hdue => cases hload
          | delivering c reference load hc hgives hcoming =>
              cases hcoming with
              | errand => cases hload
              | mail hnow =>
                  obtain rfl := Load.mail.inj (Option.some.inj hload)
                  exact ⟨own, issued, hg.completes hready hasked hold hs hc hgives hnow⟩
          | ending o hgives hnow =>
              obtain rfl := Load.mail.inj (Option.some.inj hload)
              exact ⟨own, issued, hg.outcome hready hold hasked hs hgives hnow⟩
          | ended o hgives => cases hload

/-! ## Other turns -/

/-- A turn of callbacks. -/
theorem errand (hg : Going s own issued due asked h) {turn : Turn}
    (hready : h.ready = turn :: rest) {cs : List Callback}
    (hturn : turn.load? h.now = some (.errand h.now cs)) :
    let h' := Host.callBack cs { h with ready := rest }
    Going s own issued due asked h' ∧ h.Proceeds h' := by
  have hpopped : Host.Does h { h with ready := rest } (some turn) none [] [] fun _ => [] :=
    .refl hg.calm.undisturbed hg.calm.blank hready
  have htaken : h.taken (some turn) none = [.errand h.now cs] := by simp [Host.taken, hturn]
  have hcalm : ∀ {h' : Host Loopback} {posted told},
      Host.Does h h' (some turn) none posted [] told → h'.Calm s.interval due := by
    intro h' posted told hd
    refine hg.calm.does hd ?_ ?_ (fun t heq => ?_) (by simp) <;>
      cases turn <;> simp_all [Turn.load?]
  cases cs with
  | nil =>
      refine ⟨hg.keeps hpopped ⟨rfl, rfl, rfl, rfl⟩ (hcalm hpopped) (fun _ => rfl) (fun k => ?_)
        (fun _ => rfl), hpopped.proceeds ?_⟩
      · rw [htaken]
        rfl
      · rw [htaken]
        simp [Host.left, Load.weight]
  | cons c cs =>
      obtain ⟨q, hs, hcourse⟩ := hg.courses (c.owner own)
      have hmem : .errand h.now (c :: cs) ∈ h.loads := by
        refine List.mem_append_left _ (List.mem_append_right _ (List.mem_filterMap.mpr
          ⟨turn, ?_, hturn⟩))
        rw [hready]
        exact List.mem_cons_self
      have hload := hs.load_eq hmem (by simp [Load.isFor])
      obtain ⟨t₀, r, hasked, hkey, hcourse⟩ := hcourse.of_load hload
      rw [← hkey] at hs hasked
      obtain ⟨before, last, hcs, habout, hbefore, hlast, hnext⟩ := hcourse.errand hload
      obtain ⟨hd, hk⟩ := Host.callsBack (h := { h with ready := rest }) hg.calm.undisturbed
        hg.calm.blank hg.calm.ticker (k := r.key) (c :: cs) fun c' hmem =>
          (habout c' hmem).key _ fun record hrecord =>
            hg.indexed r.key record (hs.record.trans hrecord)
      have hd := hpopped.trans hd
      rw [List.nil_append, List.append_nil] at hd
      have hfor : ∀ load, q.load? = some load → ∀ k, load.isFor own k = decide (r.key = k) := by
        intro load heq k
        obtain rfl := Option.some.inj (hload.symm.trans heq)
        rw [hkey]
        rfl
      have hleft : ∀ k, (h.left ((c :: cs).map (·.message r.key)) []).filter (Load.isFor own k) =
          if r.key = k then [.mail (last.message r.key)] else [] := by
        intro k
        have hnone :
            ((before.map (·.message r.key)).map Load.mail).filter (Load.isFor own k) = [] := by
          refine List.filter_eq_nil_iff.mpr fun load hmem => ?_
          obtain ⟨m, hm, rfl⟩ := List.mem_map.mp hmem
          obtain ⟨c', hc', rfl⟩ := List.mem_map.mp hm
          simp [Load.isFor, hbefore c' hc']
        rw [hcs, Host.left, List.map_append, List.map_append, List.filterMap_nil, List.append_nil,
          List.filter_append, hnone, List.nil_append]
        exact (filter_isFor_mail own hlast k).trans (by rw [last.key_message])
      refine ⟨hg.advance hd (hcalm hd) (hk.services.trans hg.services) (Nat.le_refl _)
        (fun _ _ => rfl) (hk.registry ▸ hg.parked) (hk.registry ▸ hg.indexed)
        (hk.offers ▸ hg.faithful) hs (some (.mail (last.message r.key))) (fun k => ?_) hleft
        (fun k _ => ⟨hk.get? k, by rw [hk.registry], rfl, rfl⟩) ?_, ?_⟩
      · rw [htaken]
        exact (congrArg _ (by rw [hload]; rfl)).trans (filter_isFor hfor k)
      · rw [hasked, hk.get?, hs.case, hk.registry, hs.record]
        exact .asked (hnext rfl)
      · refine hd.proceeds ?_
        have hweight := sum_weight_message r.key (c :: cs)
        have hposted : ((h.left ((c :: cs).map (·.message r.key)) []).map Load.weight).sum =
            ((c :: cs).map fun c => (c.message r.key).weight).sum := by
          rw [Host.left, List.filterMap_nil, List.append_nil, List.map_map, List.map_map]
          rfl
        rw [htaken, hk.cases, hposted, List.length_map]
        show _ + 0 + 2 * (c :: cs).length + 2 * h.engine.store.cases.size <
          ((c :: cs).map Callback.weight).sum + 0 + 1 + 2 * h.engine.store.cases.size
        omega

/-- A turn that only moves loads. -/
theorem shuffles (hg : Going s own issued due asked h) (hcalm : h'.Calm s.interval due)
    (hshuffles : Host.Shuffles h h') :
    Going s own issued due asked h' ∧ h.Proceeds h' := by
  refine ⟨⟨hcalm, hshuffles.services.trans hg.services, ?_, ?_, ?_, ?_, fun k => ?_⟩,
    hshuffles.now, ?_⟩
  · rw [hshuffles.store]
    exact hg.ttl
  · rw [hshuffles.registry]
    exact hg.parked
  · rw [hshuffles.registry]
    exact hg.indexed
  · rw [hshuffles.offers]
    exact hg.faithful
  · obtain ⟨q, hs, hcourse⟩ := hg.courses k
    refine ⟨q, ⟨(hshuffles.loads.filter _).trans hs.loads, ?_, ?_, ?_⟩, ?_⟩
    · rw [hshuffles.store]
      exact hs.case
    · rw [hshuffles.registry]
      exact hs.record
    · rw [hshuffles.outcomes]
      exact hs.outcomes
    · rw [hshuffles.now]
      exact hcourse
  · have hloads := (hshuffles.loads.map Load.weight).sum_nat
    have hbacklog := hshuffles.backlog
    unfold Host.potential
    rw [hshuffles.store]
    omega

/-- Every case is filed under the key of its request. -/
theorem filed (hg : Going s own issued due asked h) : h.engine.store.Filed := by
  intro k c hold
  obtain ⟨q, hs, hcourse⟩ := hg.courses k
  have hcase := hs.case.symm.trans hold
  obtain ⟨t₀, r, -, hkey, hcourse⟩ := hcourse.of_case hcase
  exact (hcourse.case_key hcase).1.trans hkey

/-- What a sweep leaves of the registry. -/
theorem registry_of_swept (hg : Going s own issued due asked h) {keys : List CorrelationKey}
    (hswept : Engine.Swept h.engine h'.engine keys) :
    (∀ n, h'.engine.registry.parked.get? n = none) ∧ h'.engine.registry.Indexed ∧
      ∀ k, h'.engine.registry.records.get? k =
        if k ∈ keys then none else h.engine.registry.records.get? k := by
  obtain ⟨parkedTtl, hregistry⟩ := hswept.registry
  have hpurge : h'.engine.registry =
      (Engine.takeAll h.engine.now keys h.engine.registry).purge h.engine.now parkedTtl
        h.engine.store.ttl := hregistry
  have htaken : ∀ (keys : List CorrelationKey) (registry : Registry),
      (∀ n, registry.parked.get? n = none) → registry.Indexed →
      (∀ n, (Engine.takeAll h.engine.now keys registry).parked.get? n = none) ∧
        (Engine.takeAll h.engine.now keys registry).Indexed ∧
        ∀ k, (Engine.takeAll h.engine.now keys registry).records.get? k =
          if k ∈ keys then none else registry.records.get? k := by
    intro keys
    induction keys with
    | nil =>
        intro registry hparked hindexed
        exact ⟨hparked, hindexed, fun k => by simp [Engine.takeAll]⟩
    | cons key keys ih =>
        intro registry hparked hindexed
        obtain ⟨hparked', hindexed', hrecords⟩ := ih (registry.take h.engine.now key).2
          (by rw [Registry.parked_take]; exact hparked) (hindexed.take _ _)
        refine ⟨hparked', hindexed', fun k => (hrecords k).trans ?_⟩
        rw [Registry.get?_records_take]
        by_cases hk : k = key <;> simp [hk]
  obtain ⟨hparked, hindexed, hrecords⟩ := htaken keys _ hg.parked hg.indexed
  rw [hpurge]
  refine ⟨fun n => ?_, hindexed, hrecords⟩
  rw [Registry.get?_parked_purge, hparked]
  rfl

/-- A turn that begins a sweep. -/
theorem sweep (hg : Going s own issued due asked h) (hready : h.ready = .sweep :: rest) :
    let h' := ({ h with ready := rest } : Host Loopback).beginSweep { interval := s.interval, due }
    Going s own issued (due + s.interval) asked h' ∧ h.Proceeds h' := by
  have hnext : .sweep ∈ h.ready := by rw [hready]; exact List.mem_cons_self
  have hdue : due = h.now := hg.calm.onTime hnext
  have hsweeps := hg.calm.sweeps s.interval_pos hready hg.filed
  have httl : 0 < h.engine.store.ttl := by
    have hprompt := s.prompt
    rw [hg.ttl]
    omega
  have hmem : ∀ k, k ∈ (h.engine.store.expired h.now).map Prod.fst ↔
      ∃ c, h.engine.store.get? k = some c ∧ c.createdAt + s.ttl ≤ h.now := by
    intro k
    rw [List.mem_map]
    constructor
    · rintro ⟨⟨k, stage⟩, hx, rfl⟩
      obtain ⟨c, hcase, -, hexpired⟩ := hg.filed.mem_expired.mp hx
      exact ⟨c, hcase, hg.ttl ▸ (Engine.isExpired_iff c httl _).mp hexpired⟩
    · rintro ⟨c, hcase, hexpired⟩
      exact ⟨(k, c.stage), hg.filed.mem_expired.mpr
        ⟨c, hcase, rfl, (Engine.isExpired_iff c httl _).mpr (hg.ttl.symm ▸ hexpired)⟩, rfl⟩
  have honce := hg.filed.nodup_expired h.now
  generalize (h.engine.store.expired h.now).map Prod.fst = keys at hsweeps hmem honce
  generalize ({ h with ready := rest } : Host Loopback).beginSweep
    { interval := s.interval, due } = h' at hsweeps ⊢
  have hswept := hsweeps.swept
  have hloads := hsweeps.loads hready
  have hbacklog := hsweeps.backlog hready
  obtain ⟨hparked, hindexed, hrecords⟩ := hg.registry_of_swept hswept
  have hnow : h'.now = h.now := hswept.handles.now
  have hcases : ∀ k, h'.engine.store.get? k =
      if k ∈ keys then none else h.engine.store.get? k := fun k => by
    unfold CaseStore.get?
    rw [hswept.cases, Assoc.get?_foldl_erase]
  -- a key that is swept gets one timeout, and no other key does
  have htimeouts : ∀ k, (((Engine.timeouts keys).map Load.mail).filter (Load.isFor own k)) =
      if k ∈ keys then [.mail ((Outcome.error .timeout).message k)] else [] := by
    intro k
    have hfor : (Load.isFor own k ∘ Load.mail ∘ fun k' => Message.failed k' .timeout) =
        fun k' => decide (k' = k) := funext fun k' => by
      simp [Load.isFor, Message.failed, Message.isLight]
    rw [Engine.timeouts, List.map_map, List.filter_map, hfor, List.filter_eq]
    by_cases hk : k ∈ keys
    · rw [if_pos hk, honce.count, if_pos hk]
      rfl
    · rw [if_neg hk, List.count_eq_zero.mpr hk]
      rfl
  refine ⟨⟨hsweeps.calm hg.calm s.interval_pos hready, hsweeps.services.trans hg.services,
    hswept.handles.ttl.trans hg.ttl, hparked, hindexed, ?_, fun k => ?_⟩, hnow, ?_⟩
  · rw [hswept.offers]
    exact hg.faithful.purge _
  · obtain ⟨q, hs, hcourse⟩ := hg.courses k
    have hfilter := hloads.filter (Load.isFor own k)
    rw [List.filter_append, htimeouts] at hfilter
    rw [hnow]
    by_cases hk : k ∈ keys
    · -- the case waits for a provider that is silent, and this is the first sweep to find it so
      obtain ⟨c, hold, hexpired⟩ := (hmem k).mp hk
      have hcase : q.case? = some c := hs.case.symm.trans hold
      obtain ⟨t₀, r, hasked, hkey, hcourse⟩ := hcourse.of_case hcase
      obtain ⟨hverdict, hload, hnone, hsoon⟩ := hcourse.expired
        (fun d cs hload => (hg.calm.errand_due (hs.mem_loads hload)).1) hcase hexpired
      rw [if_pos hk] at hfilter
      refine ⟨{ load? := some (.mail ((Outcome.error .timeout).message k)) },
        ⟨?_, (hcases k).trans (if_pos hk), (hrecords k).trans (if_pos hk), ?_⟩, ?_⟩
      · have hrest := hs.loads
        rw [hload] at hrest
        exact hfilter.trans (hrest.append_left _)
      · rw [hsweeps.outcomes, hs.outcomes, hnone]
      · rw [hasked, ← hkey]
        refine .asked (.ending (.error .timeout) (.silent hverdict) ?_)
        rw [(hcourse.case_key hcase).2] at hexpired
        rw [endsAt, hverdict]
        exact (tickFrom_eq (hg.calm.dvd_now hnext) hexpired (hdue ▸ hsoon)).symm
    · rw [if_neg hk] at hfilter
      refine ⟨q, ⟨hfilter.trans hs.loads, ?_, ?_, (hsweeps.outcomes k).trans hs.outcomes⟩, ?_⟩
      · rw [hcases, if_neg hk, hs.case]
      · rw [hrecords, if_neg hk, hs.record]
      · generalize asked k = asked? at hcourse ⊢
        cases hcourse with
        | unasked => exact .unasked k
        | asked hcourse =>
            exact .asked (hcourse.swept hdue fun c hcase hexpired =>
              hk ((hmem _).mpr ⟨c, hs.case.trans hcase, hexpired⟩))
  · have hsize := Assoc.size_foldl_erase honce fun k hk => by
      obtain ⟨c, hcase, -⟩ := (hmem k).mp hk
      exact Option.isSome_iff_exists.mpr ⟨c, hcase⟩
    have hweight := (hloads.map Load.weight).sum_nat
    have hlight : ((Engine.timeouts keys).map Load.mail).map Load.weight =
        List.replicate keys.length 0 := by
      rw [Engine.timeouts, List.map_map, List.map_map, ← List.map_const']
      rfl
    rw [List.map_append, List.sum_append, hlight, List.sum_replicate_nat] at hweight
    unfold Host.potential
    rw [hswept.cases]
    omega

/-! ## Every turn -/

/-- Every turn keeps all requests on course, and less is left to happen. -/
theorem step {turn : Turn} (hg : Going s own issued due asked h) (hready : h.ready = turn :: rest) :
    ∃ own' issued' due', Going s own' issued' due' asked h.step ∧ h.Proceeds h.step := by
  unfold Host.step
  rw [hready]
  cases turn with
  | dispatch =>
      obtain ⟨hcalm, hshuffles⟩ := hg.calm.handOut hready
      exact ⟨own, issued, due, hg.shuffles hcalm hshuffles⟩
  | task t =>
      obtain ⟨own', issued', hnext⟩ := hg.task hready
      exact ⟨own', issued', due, hnext⟩
  | aftermath a =>
      dsimp only
      by_cases hdelay : a.delay = 0
      · rw [if_pos hdelay]
        exact ⟨own, issued, due, hg.errand hready (by simp [Turn.load?, hdelay])⟩
      · rw [if_neg hdelay]
        obtain ⟨hcalm, hshuffles⟩ := hg.calm.postpone hready hdelay
        exact ⟨own, issued, due, hg.shuffles hcalm hshuffles⟩
  | callbacks cs => exact ⟨own, issued, due, hg.errand hready rfl⟩
  | sweep =>
      dsimp only
      rw [hg.calm.ticker]
      exact ⟨own, issued, _, hg.sweep hready⟩

end Going

end Rendezvous
