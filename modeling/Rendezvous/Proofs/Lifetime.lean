import Rendezvous.Proofs.Conservation
import Rendezvous.Proofs.Eviction

/-!
# Bounded lifetime

A sweep ends an expired case unless the case moves on between the look of the sweep and its visit.
A case can move on three times at most, so it outlives at most three sweeps that begin after it has
expired.

* `SweptSince`: sweeps that run one after another along a schedule, whatever happens in between;
* `Faces`: a sweep has seen a key and has yet to visit it;
* `Sound.outlives_sweep`: a case that is there after a sweep has moved on meanwhile;
* `expired_case_ends`: the fourth sweep leaves no expired case, and a case that a sweep has ended
  has timed out once.
-/

namespace Rendezvous

namespace Engine

/-- Along the schedule `k` always has a case. -/
def Keeps (e : Engine) (k : CorrelationKey) (bs : List Action) : Prop :=
  ∀ n ≤ bs.length, ((e.after (bs.take n)).store.get? k).isSome

/-- Along the schedule at least `n` sweeps look around and end, one after another, each begun at
`due` or later.  Before, after and between their strides anything may happen. -/
inductive SweptSince (due : Nat) : Nat → Engine → List Action → Prop
  | none (e : Engine) (bs : List Action) : SweptSince due 0 e bs
  | sweep (n : Nat) (e : Engine) (before during since : List Action) (t : TaskId)
      (startedAt : Nat) (seen : List (CorrelationKey × Stage))
      (hold : (e.after before).tasks.get? t = some .sweeping)
      (hstart : startedAt ≤ (e.after before).now) (hdue : due ≤ startedAt)
      (hseen : seen.Perm ((e.after before).store.expired startedAt))
      (hended : (e.after (before ++ .look t startedAt seen :: during)).tasks.get? t = none)
      (hrest : SweptSince due n (e.after (before ++ .look t startedAt seen :: during)) since) :
      SweptSince due (n + 1) e (before ++ .look t startedAt seen :: during ++ since)

/-- The sweep `t`, which began at `startedAt`, saw the case of `k` in the stage `stage` and has yet
to visit it. -/
inductive Faces (e : Engine) (t : TaskId) (startedAt : Nat) (k : CorrelationKey) (stage : Stage) :
    Prop
  /-- Between two keys. -/
  | walking (sweep : Sweep) (hold : e.tasks.get? t = some (.walking sweep))
      (hstart : sweep.startedAt = startedAt) (hmem : (k, stage) ∈ sweep.rest)
  /-- At the key, or at one before it. -/
  | locking (sweep : Sweep) (key : CorrelationKey) (seen : Stage)
      (hold : e.tasks.get? t = some (.locking (.evict sweep key seen)))
      (hstart : sweep.startedAt = startedAt) (hmem : (k, stage) ∈ (key, seen) :: sweep.rest)

variable {e : Engine} {a : Action} {t : TaskId} {startedAt due : Nat} {k : CorrelationKey}
variable {stage : Stage} {c : Case}

/-! ## Keeping a case -/

theorem Keeps.append {as bs : List Action} (h : e.Keeps k (as ++ bs)) :
    e.Keeps k as ∧ (e.after as).Keeps k bs := by
  constructor
  · intro n hn
    have hprefix := h n (by rw [List.length_append]; omega)
    rwa [List.take_append_of_le_length hn] at hprefix
  · intro n hn
    have hprefix := h (as.length + n) (by rw [List.length_append]; omega)
    rwa [List.take_length_add_append, after_append] at hprefix

theorem Keeps.cons {bs : List Action} (h : e.Keeps k (a :: bs)) : (e.act a).Keeps k bs := by
  intro n hn
  exact h (n + 1) (by simpa using hn)

/-- A key that does not keep its case loses it by one of the actions. -/
theorem exists_loss (bs : List Action) (hcase : (e.store.get? k).isSome) (hnot : ¬ e.Keeps k bs) :
    ∃ before a since, bs = before ++ a :: since ∧ e.Keeps k before ∧
      ((e.after before).act a).store.get? k = none := by
  induction bs generalizing e with
  | nil =>
      refine absurd (fun n hn => ?_) hnot
      rw [List.take_nil]
      exact hcase
  | cons a bs ih =>
      have hnil : e.Keeps k [] := fun n hn => by
        rw [List.take_nil]
        exact hcase
      cases hnext : (e.act a).store.get? k with
      | none => exact ⟨[], a, bs, rfl, hnil, hnext⟩
      | some c =>
          have hrest : ¬ (e.act a).Keeps k bs := by
            refine mt (fun hkeeps n hn => ?_) hnot
            cases n with
            | zero => exact hcase
            | succ n => exact hkeeps n (by simpa using hn)
          obtain ⟨before, b, since, rfl, hbefore, hgone⟩ := ih (by simp [hnext]) hrest
          refine ⟨a :: before, b, since, rfl, fun n hn => ?_, hgone⟩
          cases n with
          | zero => exact hcase
          | succ n => exact hbefore n (by simpa using hn)

/-! ## A sweep and one case -/

/-- An action ends the case that a sweep faces, or the sweep still faces its key: only a visit of
the key takes the sweep past it, and finds the case as the sweep saw it. -/
theorem Faces.act (hf : e.Faces t startedAt k stage) (h : Sound e) (a : Action)
    (hcase : e.store.get? k = some c) (hstage : c.stage = stage)
    (hexpired : c.isExpired e.store.ttl startedAt) :
    (e.act a).store.get? k = none ∨ (e.act a).Faces t startedAt k stage := by
  cases ha : a.strides t with
  | false =>
      right
      cases hf with
      | walking sweep hold hstart hmem =>
          have hs : e.Sweeps t startedAt sweep.rest [] sweep.evicted :=
            .walking sweep hold hstart rfl rfl
          exact .walking sweep ((hs.get?_tasks_of_not_strides h ha).1.trans hold) hstart hmem
      | locking sweep key seen hold hstart hmem =>
          have hs : e.Sweeps t startedAt ((key, seen) :: sweep.rest) [] sweep.evicted :=
            .locking sweep key seen hold hstart rfl rfl
          exact .locking sweep key seen ((hs.get?_tasks_of_not_strides h ha).1.trans hold) hstart
            hmem
  | true =>
      obtain rfl : a = .stride t := by
        cases a <;> simp_all [Action.strides]
      cases hf with
      | walking sweep hold hstart hmem =>
          right
          obtain ⟨⟨key, seen⟩, rest, hrest⟩ := List.exists_cons_of_ne_nil (List.ne_nil_of_mem hmem)
          rw [act_stride_next hold hrest]
          rw [hrest] at hmem
          exact .locking { sweep with rest } key seen (by simp [queueUp]) hstart hmem
      | locking sweep key seen hold hstart hmem =>
          by_cases ho : e.owns t key
          · rw [act_stride_visit hold ho]
            by_cases hdue : e.Due sweep.startedAt key seen
            · rw [visit_of_due hdue]
              rcases List.mem_cons.mp hmem with heq | hlater
              · left
                obtain ⟨rfl, -⟩ := Prod.mk.inj heq
                exact (get?_expel e t k k).trans (if_pos rfl)
              · right
                exact .walking { sweep with evicted := sweep.evicted + 1 } (by simp) hstart hlater
            · rw [visit_of_not_due hdue]
              rcases List.mem_cons.mp hmem with heq | hlater
              · obtain ⟨rfl, rfl⟩ := Prod.mk.inj heq
                exact absurd ⟨c, hcase, hstage, hstart ▸ hexpired⟩ hdue
              · right
                exact .walking sweep (by simp) hstart hlater
          · rw [act_stride_wait hold ho]
            exact .inr (.locking sweep key seen hold hstart hmem)

/-- As long as its key keeps it, a case that a sweep faces stays as the sweep saw it, with the sweep
still to come, or moves on. -/
theorem Faces.after (hf : e.Faces t startedAt k c.stage) (h : Sound e) (bs : List Action)
    (hcase : e.store.get? k = some c) (hexpired : c.isExpired e.store.ttl startedAt)
    (hkeeps : e.Keeps k bs) :
    ∃ c', (e.after bs).store.get? k = some c' ∧ c.Follows c' ∧
      (c.stage.rank < c'.stage.rank ∨ (e.after bs).Faces t startedAt k c.stage) := by
  induction bs generalizing e with
  | nil => exact ⟨c, hcase, .refl c, .inr hf⟩
  | cons a bs ih =>
      have hnext := hkeeps.cons
      obtain ⟨c₁, hcase₁⟩ := Option.isSome_iff_exists.mp (hnext 0 (Nat.zero_le _))
      have hcase₁ : (e.act a).store.get? k = some c₁ := hcase₁
      have hfollows₁ : c.Follows c₁ := by
        rcases h.origin_act a hcase₁ with ⟨hnone, -⟩ | ⟨c₀, hcase₀, hfollows⟩
        · rw [hcase] at hnone
          cases hnone
        · rw [hcase] at hcase₀
          cases hcase₀
          exact hfollows
      rcases hfollows₁.stage with rfl | hless
      · rcases hf.act h a hcase rfl hexpired with hgone | hfaces
        · rw [hcase₁] at hgone
          cases hgone
        · refine ih hfaces (h.act a) hcase₁ ?_ hnext
          rwa [(act_leads h a).ttl]
      · -- the case has moved on, and it never goes back
        obtain ⟨c', hcase', hfollows⟩ := (h.act a).follows_after bs hcase₁ hnext
        refine ⟨c', hcase', hfollows₁.trans hfollows, .inl ?_⟩
        rcases hfollows.stage with rfl | hless'
        · exact hless
        · exact Nat.lt_trans hless hless'

/-- A sweep that looks around faces the key of every expired case. -/
theorem Sound.faces_look (h : Sound e) {seen : List (CorrelationKey × Stage)}
    (hold : e.tasks.get? t = some .sweeping) (hstart : startedAt ≤ e.now)
    (hseen : seen.Perm (e.store.expired startedAt)) (hcase : e.store.get? k = some c)
    (hexpired : c.isExpired e.store.ttl startedAt) :
    (e.act (.look t startedAt seen)).Faces t startedAt k c.stage := by
  have hact : e.act (.look t startedAt seen) =
      e.setTask t (.walking { startedAt, rest := seen }) := by
    simp [Engine.act, look, lookAround, hold, hstart, hseen]
  have hvalue : c ∈ e.store.cases.values := (Assoc.mem_values _ c).mpr ⟨k, hcase⟩
  have hmem : (k, c.stage) ∈ e.store.expired startedAt := by
    refine List.mem_map.mpr ⟨c, List.mem_filter.mpr ⟨hvalue, hexpired⟩, ?_⟩
    rw [(h.filed hcase).1.key]
  rw [hact]
  exact .walking { startedAt, rest := seen } (by simp) rfl (hseen.mem_iff.mpr hmem)

/-- A case that is there before a sweep which begins after it has expired, and still there at the
end of the sweep, has moved on. -/
theorem Sound.outlives_sweep (h : Sound e) {before during : List Action}
    {seen : List (CorrelationKey × Stage)} (hcase : e.store.get? k = some c)
    (hold : (e.after before).tasks.get? t = some .sweeping)
    (hstart : startedAt ≤ (e.after before).now) (hdue : c.createdAt + e.store.ttl ≤ startedAt)
    (hseen : seen.Perm ((e.after before).store.expired startedAt))
    (hended : (e.after (before ++ .look t startedAt seen :: during)).tasks.get? t = none)
    (hkeeps : e.Keeps k (before ++ .look t startedAt seen :: during)) :
    ∃ c', (e.after (before ++ .look t startedAt seen :: during)).store.get? k = some c' ∧
      c.Follows c' ∧ c.stage.rank < c'.stage.rank := by
  obtain ⟨hbefore, hduring⟩ := hkeeps.append
  obtain ⟨c₀, hcase₀, hfollows₀⟩ := h.follows_after before hcase hbefore
  have h₀ : Sound (e.after before) := h.after before
  have hexpired : c₀.isExpired (e.after before).store.ttl startedAt := by
    rw [h.ttl_after before]
    unfold Case.isExpired age
    rw [decide_eq_true_eq, hfollows₀.createdAt]
    omega
  have hfaces := h₀.faces_look hold hstart hseen hcase₀ hexpired
  have hcase₁ : ((e.after before).act (.look t startedAt seen)).store.get? k = some c₀ := by
    have hact : (e.after before).act (.look t startedAt seen) =
        (e.after before).lookAround t startedAt seen := by
      simp [Engine.act, look, hold, hstart, hseen]
    rw [hact]
    exact hcase₀
  have httl := (act_leads h₀ (.look t startedAt seen)).ttl
  obtain ⟨c', hcase', hfollows', hlater⟩ :=
    hfaces.after (h₀.act _) during hcase₁ (by rwa [httl]) hduring.cons
  rw [← after_cons, ← after_append] at hcase' hlater
  refine ⟨c', hcase', hfollows₀.trans hfollows', ?_⟩
  -- the sweep has ended, so it faces nothing any more
  have hless : c₀.stage.rank < c'.stage.rank := by
    rcases hlater with hless | hstill
    · exact hless
    · cases hstill with
      | walking _ hold' | locking _ _ _ hold' =>
          rw [hended] at hold'
          cases hold'
  rcases hfollows₀.stage with rfl | hless₀
  · exact hless
  · exact Nat.lt_trans hless₀ hless

/-- Every sweep that an expired case outlives has seen it move on. -/
theorem Sound.rank_after_sweeps {n : Nat} {bs : List Action} (h : Sound e)
    (hsweeps : SweptSince due n e bs) (hcase : e.store.get? k = some c)
    (hdue : c.createdAt + e.store.ttl ≤ due) (hkeeps : e.Keeps k bs) :
    ∃ c', (e.after bs).store.get? k = some c' ∧ c.stage.rank + n ≤ c'.stage.rank := by
  induction hsweeps generalizing c with
  | none e bs =>
      obtain ⟨c', hcase', hfollows⟩ := h.follows_after bs hcase hkeeps
      refine ⟨c', hcase', ?_⟩
      rcases hfollows.stage with rfl | hless
      · exact Nat.le_refl _
      · exact Nat.le_of_lt hless
  | sweep n e before during since t startedAt seen hold hstart hsince hseen hended _ ih =>
      obtain ⟨hfirst, hrest⟩ := hkeeps.append
      obtain ⟨c₁, hcase₁, hfollows₁, hless⟩ := h.outlives_sweep hcase hold hstart
        (Nat.le_trans hdue hsince) hseen hended hfirst
      have hdue₁ : c₁.createdAt +
          (e.after (before ++ .look t startedAt seen :: during)).store.ttl ≤ due := by
        rwa [hfollows₁.createdAt, h.ttl_after]
      obtain ⟨c', hcase', hrank⟩ := ih (h.after _) hcase₁ hdue₁ hrest
      refine ⟨c', by rw [after_append]; exact hcase', ?_⟩
      omega

/-- Whatever stage a stored case is in, three more may follow at most. -/
theorem Sound.rank_le (h : Sound e) (hcase : e.store.get? k = some c) : c.stage.rank ≤ 3 := by
  obtain ⟨-, hearly | hlate⟩ := h.filed hcase
  · rcases hearly.stage with hstage | hstage <;> rw [hstage] <;> decide
  · rcases hlate.stage with hstage | hstage <;> rw [hstage] <;> decide

/-! ## What is published for a case -/

/-- A row that keeps the case of its key publishes nothing that ends it. -/
theorem Move.terminals_of_kept {s s' : Standing} {cause : Cause} (h : e.Move k s cause s')
    (hs : s.Coherent k) (hcase : s.case?.isSome) (hcase' : s'.case?.isSome) :
    s'.terminals = s.terminals := by
  cases h with
  | noOffer r error hkey hcall =>
      rw [(hs.of_opens hcall (.inl rfl)).1] at hcase
      cases hcase
  | noNegotiation r offer error hkey hcall =>
      rw [(hs.of_opens hcall (.inr ⟨offer, rfl⟩)).1] at hcase
      cases hcase
  | accept | offer | register | negotiate | confirm | transfer | start => rfl
  | negotiationFailed | noTransfer | complete | transferFailed | evict => cases hcase'

/-- A row that ends the case of its key publishes one message, a timeout exactly if it is the visit
of a sweep; and it leaves no call open. -/
theorem Move.terminals_of_lost {s s' : Standing} {cause : Cause} (h : e.Move k s cause s')
    (hcase : s.case?.isSome) (hcase' : s'.case? = none) :
    s'.call? = none ∧ ∃ last, s'.terminals = last :: s.terminals ∧
      ((∃ sweep seen, cause = .visited sweep k seen) ↔ last = .failed k .timeout) := by
  cases h with
  | evict c sweep seen => exact ⟨rfl, _, rfl, by simp⟩
  | negotiationFailed | noTransfer | complete | transferFailed =>
      exact ⟨rfl, _, rfl, by simp [Message.failed]⟩
  | accept r call hkey hnone => rw [hnone] at hcase; cases hcase
  | register | negotiate | transfer | start => cases hcase'
  | offer | noOffer | noNegotiation | confirm => rw [hcase'] at hcase; cases hcase

theorem Move.terminals_suffix {s s' : Standing} {cause : Cause} (h : e.Move k s cause s') :
    s.terminals <:+ s'.terminals := by
  cases h with
  | accept | offer | register | negotiate | confirm | transfer | start => exact List.suffix_rfl
  | noOffer | noNegotiation | negotiationFailed | noTransfer | complete | transferFailed
  | evict => exact List.suffix_cons _ _

/-- While a key keeps its case, nothing is published that ends it. -/
theorem Sound.terminals_of_keeps (h : Sound e) (bs : List Action) (hkeeps : e.Keeps k bs) :
    (e.after bs).terminals k = e.terminals k := by
  induction bs generalizing e with
  | nil => rfl
  | cons a bs ih =>
      have hnext := hkeeps.cons
      rw [after_cons, ih (h.act a) hnext]
      rcases (act_leads h a).moves k with hsame | hmove
      · exact congrArg Standing.terminals hsame
      · exact hmove.terminals_of_kept (h.coherent k) (hkeeps 0 (Nat.zero_le _))
          (hnext 0 (Nat.zero_le _))

/-- From a key without a case and without an open call nothing more is published that ends a
request, until another request is accepted. -/
theorem terminals_of_vacant (h : Sound e) (hbalanced : (e.standing k).Balanced)
    (hcase : e.store.get? k = none) (hcall : e.callAt? k = none) (cs : List Action)
    (haccepted : (e.after cs).accepted k = e.accepted k) :
    (e.after cs).terminals k = e.terminals k := by
  have hbalanced' : ((e.after cs).standing k).Balanced :=
    h.standing_induction (P := Standing.Balanced) hbalanced
      (fun _ _ _ _ hmove hb => hmove.balanced hb) cs
  have hsuffix : e.terminals k <:+ (e.after cs).terminals k :=
    h.standing_induction (P := fun s => e.terminals k <:+ s.terminals) List.suffix_rfl
      (fun _ _ _ _ hmove hs => hs.trans hmove.terminals_suffix) cs
  -- the account says that there is no room for another one
  unfold Standing.Balanced at hbalanced hbalanced'
  have hlive : (e.standing k).live = 0 := Standing.live_of_none hcase
  have hopening : (e.standing k).opening = 0 := Standing.opening_of_none hcall
  have hlength : ((e.after cs).terminals k).length ≤ (e.terminals k).length := by
    have hbefore : e.accepted k = (e.terminals k).length + (e.standing k).live +
        (e.standing k).opening := hbalanced
    have hafter : (e.after cs).accepted k = ((e.after cs).terminals k).length +
        ((e.after cs).standing k).live + ((e.after cs).standing k).opening := hbalanced'
    omega
  exact (hsuffix.eq_of_length_le hlength).symm

/-! ## Four sweeps -/

/-- Let `k` have the case `c`, and let four sweeps run one after another, amid any schedule, each
begun when the case was expired.  Then the case ends: one of the actions finds what the case has
become and leaves `k` without a case.  Until then no message is published that ends the case, and
then exactly one, which is a timeout exactly if the action is the visit of a sweep; whatever else is
published later belongs to another request. -/
theorem expired_case_ends (s : Settings) (as bs : List Action) (k : CorrelationKey) (c : Case)
    (hcase : ((ofSettings s).after as).store.get? k = some c)
    (hsweeps : SweptSince (c.createdAt + s.caseTtl) 4 ((ofSettings s).after as) bs) :
    let e := (ofSettings s).after as
    ∃ before a since c' last,
      let e₁ := e.after before
      let e₂ := e₁.act a
      bs = before ++ a :: since ∧ e.Keeps k before ∧
      e₁.store.get? k = some c' ∧ c.Follows c' ∧ e₁.terminals k = e.terminals k ∧
      e₂.store.get? k = none ∧ e₂.terminals k = last :: e.terminals k ∧
      ((∃ sweep seen, e₁.cause a = .visited sweep k seen) ↔ last = .failed k .timeout) ∧
      ∀ cs, (e₂.after cs).accepted k = e₂.accepted k →
        (e₂.after cs).terminals k = e₂.terminals k := by
  intro e
  have h : Sound e := sound_after s as
  have httl : e.store.ttl = s.caseTtl := (sound_ofSettings s).ttl_after as
  have hnot : ¬ e.Keeps k bs := by
    intro hkeeps
    obtain ⟨c', hcase', hrank⟩ :=
      h.rank_after_sweeps hsweeps hcase (Nat.le_of_eq (by rw [httl])) hkeeps
    have hbound := (h.after bs).rank_le hcase'
    omega
  obtain ⟨before, a, since, hsplit, hkeeps, hgone⟩ := exists_loss bs (by simp [e, hcase]) hnot
  obtain ⟨c', hcase', hfollows⟩ := h.follows_after before hcase hkeeps
  have h₁ : Sound (e.after before) := h.after before
  have hterminals := h.terminals_of_keeps before hkeeps
  rcases (act_leads h₁ a).moves k with hsame | hmove
  · have hstill := congrArg Standing.case? hsame
    have hstill : ((e.after before).act a).store.get? k = (e.after before).store.get? k := hstill
    rw [hgone, hcase'] at hstill
    cases hstill
  · have hsome : ((e.after before).standing k).case?.isSome := by
      show ((e.after before).store.get? k).isSome
      simp [hcase']
    obtain ⟨hcall, last, hlast, htimeout⟩ := hmove.terminals_of_lost hsome hgone
    have hlast : ((e.after before).act a).terminals k = last :: (e.after before).terminals k :=
      hlast
    rw [hterminals] at hlast
    have hbalanced : (((e.after before).act a).standing k).Balanced := by
      have hreached : (e.after before).act a = (ofSettings s).after (as ++ before ++ [a]) := by
        rw [after_concat, after_append]
      rw [hreached]
      exact balanced_after s _ k
    exact ⟨before, a, since, c', last, hsplit, hkeeps, hcase', hfollows, hterminals, hgone, hlast,
      htimeout, fun cs => terminals_of_vacant (h₁.act a) hbalanced hgone hcall cs⟩

/-- A case that moves on between the look and the visit of three sweeps outlives these three, and
the fourth ends it. -/
theorem expired_case_ends_of_races :
    let r : DataRequest := { key := ⟨"k"⟩, asset := ⟨"a"⟩, provider := "p" }
    let offer : ContractOffer := { id := "o", asset := ⟨"a"⟩, provider := "p" }
    let as : List Action :=
      [.submit r, .dispatch, .stride 0, .stride 0, .reply 0 (.offer (.ok offer)),
        .reply 0 (.negotiation (.ok ⟨"n"⟩)), .pass 300000]
    let first : List Action := [.notify (.accepted ⟨"n"⟩), .dispatch, .stride 2, .stride 2,
      .stride 1, .stride 1, .stride 1]
    let second : List Action := [.notify (.confirmed ⟨"n"⟩ ⟨"c"⟩), .dispatch, .stride 4, .stride 4,
      .reply 4 (.transfer (.ok ⟨"t"⟩)), .stride 3, .stride 3, .stride 3]
    let third : List Action := [.notify (.transferStarted ⟨"k"⟩), .dispatch, .stride 6, .stride 6,
      .stride 5, .stride 5, .stride 5]
    let sweep (t : TaskId) (seen : Stage) (during : List Action) : List Action :=
      [.beginSweep] ++ .look t 300000 [(⟨"k"⟩, seen)] :: during
    let races := sweep 1 .started first ++ (sweep 3 .negotiating second ++ sweep 5 .confirmed third)
    let e := (ofSettings {}).after as
    let bs := races ++ sweep 7 .transferring [.stride 7, .stride 7, .stride 7]
    SweptSince 300000 4 e bs ∧ ((e.after races).store.get? ⟨"k"⟩).isSome ∧
      ∃ before a since, bs = before ++ a :: since ∧ e.Keeps ⟨"k"⟩ before ∧
        ((e.after before).act a).store.get? ⟨"k"⟩ = none := by
  intro r offer as first second third sweep races e bs
  let e₁ := e.after (sweep 1 .started first)
  let e₂ := e₁.after (sweep 3 .negotiating second)
  let e₃ := e₂.after (sweep 5 .confirmed third)
  have hfourth : SweptSince 300000 1 e₃ (sweep 7 .transferring [.stride 7, .stride 7, .stride 7]) :=
    .sweep 0 e₃ [.beginSweep] [.stride 7, .stride 7, .stride 7] [] 7 300000
      [(⟨"k"⟩, .transferring)] (by decide) (by decide) (by decide) (by decide) (by decide)
      (.none _ _)
  have hthird : SweptSince 300000 2 e₂ (sweep 5 .confirmed third ++ _) :=
    .sweep 1 e₂ [.beginSweep] third _ 5 300000 [(⟨"k"⟩, .confirmed)] (by decide) (by decide)
      (by decide) (by decide) (by decide) hfourth
  have hsecond : SweptSince 300000 3 e₁ (sweep 3 .negotiating second ++ _) :=
    .sweep 2 e₁ [.beginSweep] second _ 3 300000 [(⟨"k"⟩, .negotiating)] (by decide) (by decide)
      (by decide) (by decide) (by decide) hthird
  have hsweeps : SweptSince 300000 4 e bs :=
    .sweep 3 e [.beginSweep] first _ 1 300000 [(⟨"k"⟩, .started)] (by decide) (by decide)
      (by decide) (by decide) (by decide) hsecond
  have hdue : (Case.ofRequest r ⟨"n"⟩ 0).createdAt + ({} : Settings).caseTtl = 300000 := by decide
  obtain ⟨before, a, since, -, -, hsplit, hkeeps, -, -, -, hgone, -⟩ :=
    expired_case_ends {} as bs ⟨"k"⟩ (.ofRequest r ⟨"n"⟩ 0) (by decide) (by rwa [hdue])
  exact ⟨hsweeps, by decide, before, a, since, hsplit, hkeeps, hgone⟩

end Engine

end Rendezvous
