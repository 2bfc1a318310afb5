import Rendezvous.Proofs.Lifecycle
import Rendezvous.Proofs.Places

/-!
# What a sweep takes away

A sweep looks once which cases are expired and then visits their keys one by one, each under the
lock of the key.  Between the look and a visit anything may happen to a key: its case may advance,
end, or end and be followed by another one in the very same stage.

* `Engine.Sweeps`: where a sweep stands, which keys it has visited and how many cases it has ended;
* `Engine.Visit`: what one visit does;
* `sweep_takes_exactly`: a sweep visits what it saw, in order, and every visit, whatever has
  happened since the look, ends the case it finds exactly if that is the case which the sweep saw.
-/

namespace Rendezvous

/-- Whether the message tells a case of its negotiation, confirmation or transfer. -/
def Message.isStageEvent (m : Message) : Bool :=
  match m.channel with
  | .contractNegotiation | .contractConfirmation | .dataReference => true
  | _ => false

/-- Whether the action is a stride of task `t`. -/
def Action.strides (t : TaskId) : Action → Bool
  | .stride t' => t' = t
  | _ => false

namespace Engine

/-- How many keys lose their case by `a`. -/
def losses (e : Engine) (a : Action) : Nat :=
  (e.store.cases.keys.filter fun k => (e.act a).store.get? k = none).length

/-- How many cases the strides of task `t` remove along a schedule. -/
def removals (t : TaskId) : Engine → List Action → Nat
  | _, [] => 0
  | e, a :: as => (if a.strides t then e.losses a else 0) + removals t (e.act a) as

/-- The key and the stage seen, if the next stride of task `t` is a visit. -/
def visiting? (e : Engine) (t : TaskId) : Option (CorrelationKey × Stage) :=
  match e.tasks.get? t with
  | some (.locking (.evict _ key stage)) => if e.owns t key then some (key, stage) else none
  | _ => none

/-- What the strides of task `t` visit along a schedule. -/
def visits (t : TaskId) : Engine → List Action → List (CorrelationKey × Stage)
  | _, [] => []
  | e, a :: as => (if a.strides t then (e.visiting? t).toList else []) ++ visits t (e.act a) as

variable {e : Engine} {t : TaskId} {startedAt : Nat}
variable {seen visited : List (CorrelationKey × Stage)} {n : Nat}

theorem losses_eq_zero {a : Action} (h : ∀ k, (e.act a).store.get? k = e.store.get? k) :
    e.losses a = 0 := by
  unfold losses
  refine List.length_eq_zero_iff.mpr (List.filter_eq_nil_iff.mpr fun k hk hnone => ?_)
  rw [Assoc.mem_keys] at hk
  have hnone' : e.store.get? k = none := by simpa [h] using hnone
  rw [CaseStore.get?] at hnone'
  simp [hnone'] at hk

theorem losses_eq_one {a : Action} {key : CorrelationKey} (hcase : (e.store.get? key).isSome)
    (h : ∀ k, (e.act a).store.get? k = if k = key then none else e.store.get? k) :
    e.losses a = 1 := by
  have hlost : ∀ k ∈ e.store.cases.keys,
      decide ((e.act a).store.get? k = none) = decide (k = key) := by
    intro k hk
    rw [Assoc.mem_keys] at hk
    have hsome : e.store.get? k ≠ none := fun hnone => by
      rw [CaseStore.get?] at hnone
      simp [hnone] at hk
    by_cases hkey : k = key
    · simp [h, hkey]
    · simp [h, hkey, hsome]
  have hmem : key ∈ e.store.cases.keys := (Assoc.mem_keys _ _).mpr hcase
  -- `key` stands once among the keys
  unfold losses
  rw [List.filter_congr hlost, List.filter_eq, List.length_replicate, List.Nodup.count, if_pos hmem]
  exact e.store.cases.nodup

/-! ## Following a sweep -/

/-- Where the sweep `t` stands, which began at `startedAt`, saw `seen`, has visited `visited` and
has ended `n` cases. -/
inductive Sweeps (e : Engine) (t : TaskId) (startedAt : Nat)
    (seen visited : List (CorrelationKey × Stage)) (n : Nat) : Prop
  /-- Between two keys. -/
  | walking (sweep : Sweep) (hold : e.tasks.get? t = some (.walking sweep))
      (hstart : sweep.startedAt = startedAt) (hseen : seen = visited ++ sweep.rest)
      (hcount : sweep.evicted = n)
  /-- At one of the keys that it saw. -/
  | locking (sweep : Sweep) (key : CorrelationKey) (stage : Stage)
      (hold : e.tasks.get? t = some (.locking (.evict sweep key stage)))
      (hstart : sweep.startedAt = startedAt) (hseen : seen = visited ++ (key, stage) :: sweep.rest)
      (hcount : sweep.evicted = n)
  /-- At its end. -/
  | ended (hold : e.tasks.get? t = none) (hpast : t < e.nextTask)

namespace Sweeps

theorem past (hs : e.Sweeps t startedAt seen visited n) (h : Sound e) : t < e.nextTask := by
  have hfresh := h.orderly.fresh t
  cases hs with
  | walking _ hold | locking _ _ _ hold =>
      refine Nat.lt_of_not_le fun hle => ?_
      rw [hfresh hle] at hold
      cases hold
  | ended _ hpast => exact hpast

theorem stay {e' : Engine} (hs : e.Sweeps t startedAt seen visited n)
    (hold' : e'.tasks.get? t = e.tasks.get? t) (hnext : e.nextTask ≤ e'.nextTask) :
    e'.Sweeps t startedAt seen visited n := by
  cases hs with
  | walking sweep hold hstart hseen hcount =>
      exact .walking sweep (hold'.trans hold) hstart hseen hcount
  | locking sweep key stage hold hstart hseen hcount =>
      exact .locking sweep key stage (hold'.trans hold) hstart hseen hcount
  | ended hold hpast => exact .ended (hold'.trans hold) (Nat.lt_of_lt_of_le hpast hnext)

/-- Nothing but a stride moves a sweep. -/
theorem get?_tasks_of_not_strides (hs : e.Sweeps t startedAt seen visited n) (h : Sound e)
    {a : Action} (ha : a.strides t = false) :
    (e.act a).tasks.get? t = e.tasks.get? t ∧ e.nextTask ≤ (e.act a).nextTask := by
  by_cases htask : a.task? = some t
  · -- no position of a sweep but `sweeping`, which is past, fits an action other than a stride
    have hsame : e.act a = e := by
      cases a with
      | submit | notify | dispatch | beginSweep | beginWait | beginHold | take | pass =>
          cases htask
      | stride t' =>
          obtain rfl := Option.some.inj htask
          simp [Action.strides] at ha
      | look t' =>
          obtain rfl := Option.some.inj htask
          cases hs with
          | walking _ hold | locking _ _ _ hold | ended hold => simp [act, look, hold]
      | reply t' r =>
          obtain rfl := Option.some.inj htask
          cases hs with
          | walking _ hold | locking _ _ _ hold | ended hold => simp [act, reply, hold]
      | letGo t' =>
          obtain rfl := Option.some.inj htask
          cases hs with
          | walking _ hold | locking _ _ _ hold | ended hold => simp [act, letGo, hold]
      | cancel t' =>
          obtain rfl := Option.some.inj htask
          cases hs with
          | walking _ hold | locking _ _ _ hold | ended hold => simp [act, giveUp, hold]
    rw [hsame]
    exact ⟨rfl, Nat.le_refl _⟩
  · exact get?_tasks_act (hs.past h) htask

/-- Nothing but a stride takes a sweep on. -/
theorem act_of_not_strides (hs : e.Sweeps t startedAt seen visited n) (h : Sound e) {a : Action}
    (ha : a.strides t = false) : (e.act a).Sweeps t startedAt seen visited n := by
  obtain ⟨hold, hnext⟩ := hs.get?_tasks_of_not_strides h ha
  exact hs.stay hold hnext

end Sweeps

/-! ## The strides of a sweep -/

section

variable {sweep : Sweep} {key : CorrelationKey} {stage : Stage}

theorem act_stride_end (hold : e.tasks.get? t = some (.walking sweep)) (hrest : sweep.rest = []) :
    e.act (.stride t) = e.finishSweep t sweep.startedAt sweep.evicted := by
  simp [act, stride, hold, hrest]

theorem act_stride_next (hold : e.tasks.get? t = some (.walking sweep))
    {rest : List (CorrelationKey × Stage)} (hrest : sweep.rest = (key, stage) :: rest) :
    e.act (.stride t) = e.queueUp t (.evict { sweep with rest } key stage) := by
  simp [act, stride, hold, hrest]

theorem act_stride_visit (hold : e.tasks.get? t = some (.locking (.evict sweep key stage)))
    (ho : e.owns t key) : e.act (.stride t) = e.visit t sweep key stage := by
  simp [act, stride, hold, Section.key, ho, enter]

theorem act_stride_wait (hold : e.tasks.get? t = some (.locking (.evict sweep key stage)))
    (ho : ¬ e.owns t key) : e.act (.stride t) = e := by
  simp [act, stride, hold, Section.key, ho]

theorem get?_expel (e : Engine) (t : TaskId) (key k : CorrelationKey) :
    (e.expel t key).store.get? k = if k = key then none else e.store.get? k := by
  simp

end

/-- A stride takes a sweep on, and counts the case that it ends, if it ends one. -/
theorem Sweeps.act_stride (hs : e.Sweeps t startedAt seen visited n) (h : Sound e) :
    (e.act (.stride t)).Sweeps t startedAt seen (visited ++ (e.visiting? t).toList)
      (n + e.losses (.stride t)) := by
  have hpast := hs.past h
  cases hs with
  | walking sweep hold hstart hseen hcount =>
      have hnone : e.visiting? t = none := by simp [visiting?, hold]
      rw [hnone, Option.toList_none, List.append_nil]
      cases hnext : sweep.rest with
      | nil =>
          have hact := act_stride_end hold hnext
          rw [losses_eq_zero fun k => by rw [hact]; rfl, hact]
          refine .ended ?_ hpast
          show (e.tasks.erase t).get? t = none
          simp
      | cons p rest =>
          obtain ⟨key, stage⟩ := p
          have hact := act_stride_next hold hnext
          rw [losses_eq_zero fun k => by rw [hact]; rfl, hact]
          rw [hnext] at hseen
          exact .locking { sweep with rest } key stage (by simp [queueUp]) hstart hseen hcount
  | locking sweep key stage hold hstart hseen hcount =>
      by_cases ho : e.owns t key
      · have hact := act_stride_visit hold ho
        have hvisiting : e.visiting? t = some (key, stage) := by simp [visiting?, hold, ho]
        have hseen' : seen = (visited ++ [(key, stage)]) ++ sweep.rest := by
          rw [hseen, List.append_assoc, List.singleton_append]
        rw [hvisiting, Option.toList_some]
        by_cases hdue : e.Due sweep.startedAt key stage
        · rw [visit_of_due hdue] at hact
          have hsome : (e.store.get? key).isSome := by
            obtain ⟨c, hcase, -⟩ := hdue
            simp [hcase]
          rw [losses_eq_one hsome fun k => by rw [hact]; exact get?_expel e t key k, hact]
          exact .walking { sweep with evicted := sweep.evicted + 1 } (by simp) hstart hseen'
            (congrArg (· + 1) hcount)
        · rw [visit_of_not_due hdue] at hact
          rw [losses_eq_zero fun k => by rw [hact]; simp, hact]
          exact .walking sweep (by simp) hstart hseen' hcount
      · have hact := act_stride_wait hold ho
        have hnone : e.visiting? t = none := by simp [visiting?, hold, ho]
        rw [losses_eq_zero fun k => by rw [hact], hact, hnone, Option.toList_none, List.append_nil]
        exact .locking sweep key stage hold hstart hseen hcount
  | ended hold =>
      have hact : e.act (.stride t) = e := by simp [act, stride, hold]
      rw [losses_eq_zero fun k => by rw [hact], hact]
      exact .ended hold hpast

/-- Whatever the schedule, a sweep has visited what it saw in order and has counted what it
ended. -/
theorem Sweeps.after (hs : e.Sweeps t startedAt seen visited n) (h : Sound e) (bs : List Action) :
    (e.after bs).Sweeps t startedAt seen (visited ++ visits t e bs) (n + removals t e bs) := by
  induction bs generalizing e visited n with
  | nil =>
      rw [visits, List.append_nil]
      exact hs
  | cons a bs ih =>
      rw [removals, ← Nat.add_assoc, visits, ← List.append_assoc]
      refine ih ?_ (h.act a)
      cases ha : a.strides t with
      | false =>
          simp only [Bool.false_eq_true, if_false, List.append_nil]
          exact hs.act_of_not_strides h ha
      | true =>
          have hstride : a = .stride t := by
            cases a <;> simp_all [Action.strides]
          simp only [if_true]
          rw [hstride]
          exact hs.act_stride h

/-- A sweep that looks around begins with what it saw, has visited nothing and ended nothing. -/
theorem sweeps_look (hold : e.tasks.get? t = some .sweeping) (hstart : startedAt ≤ e.now)
    (hseen : seen.Perm (e.store.expired startedAt)) :
    (e.act (.look t startedAt seen)).Sweeps t startedAt seen [] 0 := by
  have hact : e.act (.look t startedAt seen) =
      e.setTask t (.walking { startedAt, rest := seen }) := by
    simp [act, look, lookAround, hold, hstart, hseen]
  rw [hact]
  exact .walking { startedAt, rest := seen } (by simp) rfl rfl rfl

/-! ## One visit -/

/-- With a positive time to live, expired means as old as that. -/
theorem isExpired_iff (c : Case) {ttl : Nat} (httl : 0 < ttl) (startedAt : Nat) :
    c.isExpired ttl startedAt ↔ c.createdAt + ttl ≤ startedAt := by
  unfold Case.isExpired age
  rw [decide_eq_true_eq]
  omega

theorem caseTtl_pos {s : Settings} (hs : s.objection? = none) : 0 < s.caseTtl := by
  unfold Settings.objection? at hs
  split at hs
  · cases hs
  · rename_i hfind
    have hpositive := List.find?_eq_none.mp hfind ("case_ttl_secs", s.caseTtlSecs)
      (by simp [Settings.positive])
    have hne : s.caseTtlSecs ≠ 0 := by simpa using hpositive
    unfold Settings.caseTtl seconds
    omega

/-- What a sweep saw of a key is the stage of its case. -/
theorem Sound.mem_expired (h : Sound e) {key : CorrelationKey} {stage : Stage}
    (hmem : (key, stage) ∈ e.store.expired startedAt) :
    ∃ c, e.store.get? key = some c ∧ c.stage = stage := by
  obtain ⟨c, hc, hpair⟩ := List.mem_map.mp hmem
  obtain ⟨k, hcase⟩ := (Assoc.mem_values _ c).mp (List.mem_filter.mp hc).1
  have hkey : c.key = k := (h.filed hcase).1.key
  obtain ⟨rfl, rfl⟩ := Prod.mk.inj hpair
  rw [← hkey] at hcase
  exact ⟨c, hcase, rfl⟩

theorem handle_of_vacant {m : Message} (hm : m.isStageEvent)
    (hcase : e.store.get? m.key = none) : e.handle m = (e, .done) := by
  have hlive := CaseStore.live?_eq_none _ _ hcase
  obtain ⟨key, channel, payload⟩ := m
  cases channel <;> cases payload <;>
    simp_all [Message.isStageEvent, handle, onAccepted, onNegotiationFailed, onConfirmed,
      onTransferStarted, onDataReference, onTransferFailed]

/-- What the visit of `key` by the sweep `t` does: it leads from `e` to `e'`, and the sweep saw the
key in the stage `stage` when it looked around in `e₀`. -/
structure Visit (e₀ e e' : Engine) (t : TaskId) (ttl startedAt : Nat) (key : CorrelationKey)
    (stage : Stage) : Prop where
  /-- The case is removed exactly if it is in the stage seen and was expired when the sweep
  began. -/
  removes : ((e.store.get? key).isSome ∧ e'.store.get? key = none) ↔
    ∃ c, e.store.get? key = some c ∧ c.stage = stage ∧ c.createdAt + ttl ≤ startedAt
  /-- What is removed is the very case that the sweep saw, as it was: it has not advanced since, and
  it was registered before the sweep began. -/
  same : e'.store.get? key = none → ∀ c, e.store.get? key = some c →
    e₀.store.get? key = some c ∧ c.createdAt < startedAt
  /-- With the case goes its record, and one timeout is published. -/
  removed : (e.store.get? key).isSome → e'.store.get? key = none →
    e'.registry.records.get? key = none ∧
      e'.bus.queue = e.bus.queue ++ [.failed key .timeout] ∧
      e'.terminals key = .failed key .timeout :: e.terminals key
  /-- A case that is not removed stays as it is, and nothing is published. -/
  kept : ¬ ((e.store.get? key).isSome ∧ e'.store.get? key = none) →
    e'.store.get? key = e.store.get? key ∧
      e'.registry.records.get? key = e.registry.records.get? key ∧ e'.bus = e.bus
  /-- After a removal, and until another case is registered, a stage event for the key finds nothing
  to do: its task gives the lock back and ends. -/
  discards : e'.store.get? key = none → ∀ cs t' m,
    m.key = key → m.isStageEvent → (e'.after cs).store.get? key = none →
    (e'.after cs).tasks.get? t' = some (.locking (.handle m)) → (e'.after cs).owns t' key →
      (e'.after cs).act (.stride t') = ((e'.after cs).leaveLock t' key).finish t' .handled

/-- A stage event for a key without a case ends its task and changes nothing else. -/
theorem act_stride_vacant {m : Message} (hm : m.isStageEvent)
    (hcase : e.store.get? m.key = none)
    (hold : e.tasks.get? t = some (.locking (.handle m))) (ho : e.owns t m.key) :
    e.act (.stride t) = (e.leaveLock t m.key).finish t .handled := by
  have hhandle := handle_of_vacant hm hcase
  simp only [act, stride, hold, Section.key, ho, if_true, enter, hhandle]
  rfl

/-- A case that was registered before `e` and is in the stage that its key showed in `e` is the case
of `e`, whatever the schedule since. -/
theorem Sound.unchanged (h : Sound e) (bs : List Action) {key : CorrelationKey} {c c₀ : Case}
    (hcase₀ : e.store.get? key = some c₀) (hcase : (e.after bs).store.get? key = some c)
    (hstage : c.stage = c₀.stage) (hbefore : c.createdAt < e.now) : c = c₀ := by
  rcases h.origin_after bs hcase with hlater | ⟨c₁, hcase₁, hfollows⟩
  · exact absurd hbefore (Nat.not_lt.mpr hlater)
  · rw [hcase₀] at hcase₁
    cases hcase₁
    exact hfollows.eq_of_stage hstage

/-- The visit of a key, as soon as what it would remove is known to be what the sweep saw. -/
theorem visit_spec {e₀ : Engine} {sweep : Sweep} {key : CorrelationKey} {stage : Stage}
    (h : Sound e) (httl : 0 < e.store.ttl)
    (hold : e.tasks.get? t = some (.locking (.evict sweep key stage))) (ho : e.owns t key)
    (hsaw : ∀ c, e.store.get? key = some c → c.stage = stage →
      c.createdAt + e.store.ttl ≤ sweep.startedAt → e₀.store.get? key = some c) :
    Visit e₀ e (e.act (.stride t)) t e.store.ttl sweep.startedAt key stage := by
  have hdue_iff : e.Due sweep.startedAt key stage ↔
      ∃ c, e.store.get? key = some c ∧ c.stage = stage ∧
        c.createdAt + e.store.ttl ≤ sweep.startedAt := by
    simp only [Due, isExpired_iff _ httl]
  -- the same for a visit that removes and for one that finds the key vacant
  have hdiscards : ∀ e' : Engine, e'.store.get? key = none → ∀ cs t' m, m.key = key →
      m.isStageEvent → (e'.after cs).store.get? key = none →
      (e'.after cs).tasks.get? t' = some (.locking (.handle m)) → (e'.after cs).owns t' key →
        (e'.after cs).act (.stride t') =
          ((e'.after cs).leaveLock t' key).finish t' .handled := by
    rintro e' - cs t' m rfl hm hcase hold' ho'
    exact act_stride_vacant hm hcase hold' ho'
  rw [act_stride_visit hold ho]
  by_cases hdue : e.Due sweep.startedAt key stage
  · rw [visit_of_due hdue]
    obtain ⟨c, hcase, hstage, hexpired⟩ := hdue_iff.mp hdue
    refine ⟨?_, fun _ c' hcase' => ?_, fun _ _ => ⟨?_, ?_, ?_⟩, fun hnot => ?_, hdiscards _⟩
    · simp [hcase, hstage, hexpired]
    · rw [hcase] at hcase'
      cases hcase'
      exact ⟨hsaw c hcase hstage hexpired, by omega⟩
    · simp
    · have hopen := h.regular.isOpen
      simp [Bus.publish, hopen]
    · have hterminals := terminals_expel (e := e) t key key h.regular.isOpen
      simpa using hterminals
    · simp [hcase] at hnot
  · rw [visit_of_not_due hdue]
    have hcases : ((e.leaveLock t key).setTask t (.walking sweep)).store.get? key =
        e.store.get? key := by simp
    have hkept : ¬ ((e.store.get? key).isSome ∧
        ((e.leaveLock t key).setTask t (.walking sweep)).store.get? key = none) := by
      rw [hcases]
      rintro ⟨hsome, hnone⟩
      simp [hnone] at hsome
    refine ⟨iff_of_false hkept (mt hdue_iff.mpr hdue), fun hnone c hcase => ?_,
      fun hsome hnone => absurd ⟨hsome, hnone⟩ hkept, fun _ => ⟨hcases, by simp, by simp⟩,
      hdiscards _⟩
    rw [hcases, hcase] at hnone
    cases hnone

theorem Move.key_of_visited {k key : CorrelationKey} {s s' : Standing} {sweep : Sweep}
    {stage : Stage} (h : e.Move k s (.visited sweep key stage) s') : key = k := by
  cases h
  rfl

/-- A stride of a sweep leaves every key alone but the one whose lock it owns or waits for. -/
theorem Sweeps.others (hs : e.Sweeps t startedAt seen visited n) (h : Sound e) {k : CorrelationKey}
    (hk : ∀ sweep stage, e.tasks.get? t ≠ some (.locking (.evict sweep k stage))) :
    (e.act (.stride t)).standing k = e.standing k := by
  rcases (act_leads h (.stride t)).moves k with hsame | hmove
  · exact hsame
  · dsimp only [Engine.cause] at hmove
    cases hs with
    | walking sweep hold =>
        rw [hold] at hmove
        cases hmove
    | locking sweep key stage hold =>
        rw [hold] at hmove
        dsimp only at hmove
        have hkey := hmove.key_of_visited
        exact absurd (hkey ▸ hold) (hk sweep stage)
    | ended hold =>
        rw [hold] at hmove
        cases hmove

/-- A sweep of an engine with valid settings looks around and goes on amid any schedule.  Each visit
does what `Visit` says, for a key and a stage that the sweep saw; no stride touches the case or the
record of another key; and at its end the sweep has visited all that it saw, once each, and reports
how many cases it has removed. -/
theorem sweep_takes_exactly (s : Settings) (hs : s.objection? = none) (as bs : List Action)
    (t : TaskId) (startedAt : Nat) (seen : List (CorrelationKey × Stage))
    (hsweep : ((ofSettings s).after as).tasks.get? t = some .sweeping)
    (hstart : startedAt ≤ ((ofSettings s).after as).now)
    (hseen : seen.Perm (((ofSettings s).after as).store.expired startedAt)) :
    let e₀ := (ofSettings s).after as
    let e₁ := e₀.act (.look t startedAt seen)
    let e := e₁.after bs
    let e' := e.act (.stride t)
    (∀ sweep key stage, e.tasks.get? t = some (.locking (.evict sweep key stage)) →
      e.owns t key →
        (key, stage) ∈ seen ∧ Visit e₀ e e' t s.caseTtl startedAt key stage) ∧
    (∀ k, (∀ sweep stage, e.tasks.get? t ≠ some (.locking (.evict sweep k stage))) →
      e'.store.get? k = e.store.get? k ∧
        e'.registry.records.get? k = e.registry.records.get? k) ∧
    (∀ sweep, e.tasks.get? t = some (.walking sweep) → sweep.rest = [] →
      visits t e₁ bs = seen ∧
        e'.history = .finished t (.swept (removals t e₁ bs)) :: e.history) := by
  intro e₀ e₁ e e'
  have h₀ : Sound e₀ := sound_after s as
  have h₁ : Sound e₁ := h₀.act _
  have h : Sound e := h₁.after bs
  have httl : e.store.ttl = s.caseTtl :=
    (h₁.ttl_after bs).trans ((act_leads h₀ _).ttl.trans ((sound_ofSettings s).ttl_after as))
  have hsweeps : e.Sweeps t startedAt seen ([] ++ visits t e₁ bs) (0 + removals t e₁ bs) :=
    (sweeps_look hsweep hstart hseen).after h₁ bs
  rw [List.nil_append, Nat.zero_add] at hsweeps
  refine ⟨fun sweep key stage hold ho => ?_, fun k hk => ?_, fun sweep hold hrest => ?_⟩
  · cases hsweeps with
    | walking _ hold' | ended hold' =>
        rw [hold] at hold'
        cases hold'
    | locking sweep' key' stage' hold' hstart' hsaw =>
        rw [hold] at hold'
        cases hold'
        have hmem : (key, stage) ∈ seen := by simp [hsaw]
        obtain ⟨c₀, hcase₀, hstage₀⟩ := h₀.mem_expired (hseen.mem_iff.mp hmem)
        refine ⟨hmem, ?_⟩
        -- a case that was expired when the sweep began is older than the look, and a case from then
        -- that is in the stage seen has not changed since
        rw [← httl, ← hstart']
        refine visit_spec h (httl ▸ caseTtl_pos hs) hold ho fun c hcase hstage hexpired => ?_
        have hpositive := caseTtl_pos hs
        have hstart₀ : startedAt ≤ e₀.now := hstart
        have hbefore : c.createdAt < e₀.now := by omega
        have hsame : c = c₀ := h₀.unchanged (.look t startedAt seen :: bs) hcase₀ hcase
          (hstage.trans hstage₀.symm) hbefore
        rw [hsame]
        exact hcase₀
  · have hsame := hsweeps.others h hk
    exact ⟨congrArg Standing.case? hsame, congrArg Standing.record? hsame⟩
  · cases hsweeps with
    | walking sweep' hold' _ hsaw hcount =>
        rw [hold] at hold'
        cases hold'
        rw [hrest, List.append_nil] at hsaw
        refine ⟨hsaw.symm, ?_⟩
        rw [← hcount]
        show (e.act (.stride t)).history = _
        rw [act_stride_end hold hrest]
        rfl
    | locking _ _ _ hold' | ended hold' =>
        rw [hold] at hold'
        cases hold'

/-- A case that nobody confirms in time is taken by a sweep. -/
theorem sweep_takes_exactly_of_silence :
    let r : DataRequest := { key := ⟨"k"⟩, asset := ⟨"a"⟩, provider := "p" }
    let offer : ContractOffer := { id := "o", asset := ⟨"a"⟩, provider := "p" }
    let as : List Action :=
      [.submit r, .dispatch, .stride 0, .stride 0, .reply 0 (.offer (.ok offer)),
        .reply 0 (.negotiation (.ok ⟨"n"⟩)), .pass 300000, .beginSweep]
    let e₀ := (ofSettings {}).after as
    let e := (e₀.act (.look 1 300000 [(⟨"k"⟩, .started)])).after [.stride 1]
    Visit e₀ e (e.act (.stride 1)) 1 300000 300000 ⟨"k"⟩ .started ∧
      (e.store.get? ⟨"k"⟩).isSome ∧ (e.act (.stride 1)).store.get? ⟨"k"⟩ = none := by
  intro r offer as e₀ e
  have hvisit := (sweep_takes_exactly {} (by decide) as [.stride 1] 1 300000
    [(⟨"k"⟩, .started)] (by decide) (by decide) (by decide)).1
    { startedAt := 300000, rest := [] } ⟨"k"⟩ .started (by decide) (by decide)
  exact ⟨hvisit.2, by decide, by decide⟩

end Engine

end Rendezvous
