import Rendezvous.Proofs.Lifetime
import Rendezvous.Proofs.Stamps
import Rendezvous.Proofs.Waiting

/-!
# Two sweeps after the last request

Once no request and no callback comes any more, and no handler of one is at work, an engine can only
forget: cases are no longer registered nor moved on, nothing is parked and no offer is looked up.
What is left is put away by sweeps.  The first one ends every case, and drops the parked
confirmations and the offers.  It leaves traces of its own: a case that it ends is remembered as a
closed negotiation, and its timeout becomes an outcome.  The second one drops these.

* `Dormant`: no handler is at work that takes a lock; `Lapsed`: no case is left either;
* `Dwindles`, `Recedes`: what cannot come any more in these states;
* `Round`: a sweep and all that follows from it;
* `Round.vacant`, `Round.swept`: what the first one takes away;
* `Round.cleared`: what the second one takes away;
* `Round.bare`: nothing is left after both.
-/

namespace Rendezvous

/-- Where every new value is an old one, there is none if there was none. -/
theorem eq_none_of_forall_some {α : Type} {old new : Option α}
    (h : ∀ x, new = some x → old = some x) (hold : old = none) : new = none :=
  Option.eq_none_iff_forall_ne_some.mpr fun x hx => by
    have hbefore := h x hx
    rw [hold] at hbefore
    cases hbefore

/-- Whether the action brings a request or a callback. -/
def Action.isInput : Action → Bool
  | .submit _ | .notify _ => true
  | _ => false

/-- The task is no handler, or that of a message which it has not begun to handle and of which `P`
holds. -/
def Task.Rests (P : Message → Prop) : Task → Prop
  | .arriving m => P m
  | .locking (.handle _) | .resolving .. | .negotiating .. | .transferring .. => False
  | _ => True

theorem Task.Rests.call? {P : Message → Prop} {task : Task} (h : task.Rests P) :
    task.call? = none := by
  cases task with
  | resolving | negotiating | transferring => exact h.elim
  | arriving | sweeping | walking | seeking | locking | claiming | holding | awaiting => rfl

/-- The message can be handled without the lock of its key. -/
abbrev Message.Lockless (m : Message) : Prop := m.needsLock = false

namespace Settings

/-- The longest of the times to live. -/
def longestTtl (s : Settings) : Nat :=
  max (max s.caseTtl s.resultTtl) (max s.offerCacheTtl s.parkedEventTtl)

theorem le_longestTtl (s : Settings) :
    s.caseTtl ≤ s.longestTtl ∧ s.resultTtl ≤ s.longestTtl ∧ s.offerCacheTtl ≤ s.longestTtl ∧
      s.parkedEventTtl ≤ s.longestTtl := by
  unfold longestTtl
  omega

end Settings

namespace Assoc

variable {κ α : Type} [DecidableEq κ]

theorem isEmpty_of_get? {m : Assoc κ α} (h : ∀ k, m.get? k = none) : m.isEmpty := by
  refine List.isEmpty_iff.mpr (List.eq_nil_iff_forall_not_mem.mpr fun ⟨k, v⟩ hmem => ?_)
  have hget := (m.mem_entries k v).mp hmem
  rw [h k] at hget
  cases hget

/-- Nothing is kept for being young if everything is old enough. -/
theorem get?_keep_of_old {m : Assoc κ α} (since : α → Nat) {now ttl latest : Nat}
    (hdates : ∀ k v, m.get? k = some v → since v ≤ latest) (hnow : latest + ttl ≤ now) (k : κ) :
    (m.keep fun _ v => age now (since v) < ttl).get? k = none := by
  refine Option.eq_none_iff_forall_ne_some.mpr fun v hv => ?_
  rw [get?_keep] at hv
  obtain ⟨hget, hyoung⟩ := Option.filter_eq_some_iff.mp hv
  have hage : age now (since v) < ttl := by simpa using hyoung
  have hdate := hdates k v hget
  unfold age at hage
  omega

end Assoc

namespace Engine

/-- No handler is at work that takes a lock, and none will be: `P` holds of every message that is
queued or about to be handled. -/
structure Dormant (P : Message → Prop) (e : Engine) : Prop where
  tasks : ∀ t task, e.tasks.get? t = some task → task.Rests P
  queue : ∀ m ∈ e.bus.queue, P m

/-- No handler is at work, no message is on its way, and no case is left. -/
structure Lapsed (e : Engine) : Prop where
  dormant : Dormant (fun _ => False) e
  vacant : ∀ k, e.store.get? k = none

/-- Nothing is left to do: no message is queued and no task is left. -/
def AtRest (e : Engine) : Prop := e.bus.queue = [] ∧ ∀ t, e.tasks.get? t = none

/-- From `e` comes `e'` by a sweep as of `t` and all that follows from it: neither requests nor
callbacks come, and in the end nothing is left to do.  Before the look of the sweep, and between its
visits, anything else may happen. -/
inductive Round (e : Engine) (t : Nat) : Engine → Prop
  | intro (before during : List Action) (sweeper : TaskId) (seen : List (CorrelationKey × Stage))
      (hinput : ∀ a ∈ before ++ .look sweeper t seen :: during, a.isInput = false)
      (hold : (e.after before).tasks.get? sweeper = some .sweeping)
      (hstart : t ≤ (e.after before).now)
      (hseen : seen.Perm ((e.after before).store.expired t))
      (hrest : (e.after (before ++ .look sweeper t seen :: during)).AtRest) :
      Round e t (e.after (before ++ .look sweeper t seen :: during))

/-- Nothing is kept: neither cases, locks, records, negotiations and parked confirmations nor
outcomes and offers. -/
structure Bare (e : Engine) : Prop where
  cases : e.store.cases.isEmpty
  locks : e.store.locks.isEmpty
  records : e.registry.records.isEmpty
  index : e.registry.index.isEmpty
  parked : e.registry.parked.isEmpty
  closed : e.registry.closed.isEmpty
  outcomes : e.board.outcomes.isEmpty
  offers : e.offers.isEmpty

/-- From `e` to `e'` no case has been registered or moved on, nothing has been parked, and no offer
has come. -/
structure Dwindles (e e' : Engine) : Prop where
  cases : ∀ k c, e'.store.get? k = some c → e.store.get? k = some c
  parked : ∀ n p, e'.registry.parked.get? n = some p → e.registry.parked.get? n = some p
  offers : ∀ i x, e'.offers.entries.get? i = some x → e.offers.entries.get? i = some x

/-- From `e` to `e'` no negotiation has been closed, and no outcome has come. -/
structure Recedes (e e' : Engine) : Prop where
  closed : ∀ n since, e'.registry.closed.get? n = some since → e.registry.closed.get? n = some since
  outcomes : ∀ k x, e'.board.outcomes.entries.get? k = some x →
    e.board.outcomes.entries.get? k = some x

variable {P : Message → Prop} {e e' e'' : Engine} {a : Action} {t : TaskId} {k : CorrelationKey}
variable {s : Settings}

theorem Dwindles.refl (e : Engine) : Dwindles e e :=
  ⟨fun _ _ h => h, fun _ _ h => h, fun _ _ h => h⟩

theorem Dwindles.trans (h : Dwindles e e') (h' : Dwindles e' e'') : Dwindles e e'' where
  cases k c hc := h.cases k c (h'.cases k c hc)
  parked n p hp := h.parked n p (h'.parked n p hp)
  offers i x hx := h.offers i x (h'.offers i x hx)

theorem Recedes.refl (e : Engine) : Recedes e e := ⟨fun _ _ h => h, fun _ _ h => h⟩

theorem Recedes.trans (h : Recedes e e') (h' : Recedes e' e'') : Recedes e e'' where
  closed n since hsince := h.closed n since (h'.closed n since hsince)
  outcomes k x hx := h.outcomes k x (h'.outcomes k x hx)

theorem AtRest.dormant (h : e.AtRest) (P : Message → Prop) : Dormant P e where
  tasks t task hold := by
    rw [h.2 t] at hold
    cases hold
  queue m hm := by
    rw [h.1] at hm
    cases hm

/-! ## Dormant engines -/

namespace Dormant

theorem congr (hd : Dormant P e) (htasks : e'.tasks = e.tasks) (hbus : e'.bus = e.bus) :
    Dormant P e' where
  tasks t task hold := hd.tasks t task (by rwa [htasks] at hold)
  queue m hm := hd.queue m (by rwa [hbus] at hm)

theorem insert (hd : Dormant P e) {t : TaskId} {task : Task}
    (htasks : e'.tasks = e.tasks.insert t task) (hrests : task.Rests P)
    (hqueue : ∀ m ∈ e'.bus.queue, P m) : Dormant P e' where
  tasks t' task' hold := by
    rw [htasks, Assoc.get?_insert] at hold
    split at hold
    · cases hold
      exact hrests
    · exact hd.tasks t' task' hold
  queue := hqueue

theorem erase (hd : Dormant P e) {t : TaskId} (htasks : e'.tasks = e.tasks.erase t)
    (hbus : e'.bus = e.bus) : Dormant P e' where
  tasks t' task' hold := by
    rw [htasks, Assoc.get?_erase] at hold
    split at hold
    · cases hold
    · exact hd.tasks t' task' hold
  queue m hm := hd.queue m (by rwa [hbus] at hm)

/-- Only messages that need no lock are about to be handled, so no handler joins a queue. -/
theorem joins (hd : Dormant P e) (hP : ∀ m, P m → m.needsLock = false) {old : Task} {part : Section}
    (hold : e.tasks.get? t = some old) (hjoins : old.Joins part) : (Task.locking part).Rests P := by
  cases hjoins with
  | handle m hlock =>
      have hfree := hP m (hd.tasks t _ hold)
      rw [hlock] at hfree
      cases hfree
  | evict | keep => trivial

theorem visit (hd : Dormant P e)
    (hends : ∀ k, (e.store.get? k).isSome → P (.failed k .timeout)) (t : TaskId) (sweep : Sweep)
    (key : CorrelationKey) (seen : Stage) : Dormant P (e.visit t sweep key seen) := by
  obtain ⟨next, htasks⟩ := tasks_visit e t sweep key seen
  refine hd.insert htasks trivial fun m hm => ?_
  by_cases hdue : e.Due sweep.startedAt key seen
  · rw [visit_of_due hdue] at hm
    simp only [setTask_frame, expel_frame] at hm
    rcases mem_queue_publish hm with hbefore | rfl
    · exact hd.queue m hbefore
    · obtain ⟨c, hcase, -⟩ := hdue
      exact hends key (by simp [hcase])
  · rw [visit_of_not_due hdue] at hm
    exact hd.queue m (by simpa using hm)

theorem step (hd : Dormant P e) (h : Sound e) (hP : ∀ m, P m → m.needsLock = false)
    (hends : ∀ k, (e.store.get? k).isSome → P (.failed k .timeout)) (ha : a.isInput = false)
    (hs : e.Step a e') : Dormant P e' := by
  cases hs with
  | idle => exact hd
  | take | pass => exact hd.congr rfl rfl
  | submit | forward | park => cases ha
  | dispatch m rest hqueue =>
      refine hd.insert rfl (hd.queue m (by simp [hqueue])) fun m' hm' => ?_
      exact hd.queue m' (hqueue ▸ List.mem_cons_of_mem m hm')
  | begin a task hbegins =>
      refine hd.insert rfl ?_ hd.queue
      cases a <;> cases hbegins <;> trivial
  | look t startedAt seen => exact hd.insert rfl trivial hd.queue
  | queueUp t old part hold hjoins =>
      exact hd.insert rfl (hd.joins hP hold hjoins) hd.queue
  | outcome t m hold hlock =>
      have hregular := h.regular.tasks t m (by simp [hold, Task.message?])
      obtain ⟨o, ho⟩ := eq_message_of_isRegular hregular hlock
      rw [ho, begin_message]
      exact hd.erase (t := t) (by simp) (by simp)
  | handle t m hold => exact (hd.tasks t _ hold).elim
  | visit t sweep key seen => exact hd.visit hends t sweep key seen
  | keep t key => exact hd.insert rfl trivial hd.queue
  | finishSweep t | neverMind t => exact hd.erase rfl rfl
  | listen t key deadline =>
      unfold lookForOutcome
      dsimp only
      split
      · exact hd.erase rfl rfl
      · exact hd.congr rfl rfl
  | offer t m asset provider answer hold | negotiation t m asset provider offer answer hold
  | transfer t m c request answer hold => exact (hd.tasks t _ hold).elim
  | letGo t | leaveQueue t => exact hd.erase (t := t) (by simp) (by simp)

theorem act (hd : Dormant Message.Lockless e) (h : Sound e) (ha : a.isInput = false) :
    Dormant Message.Lockless (e.act a) :=
  hd.step h (fun _ hm => hm) (fun _ _ => rfl) ha (e.act_step a)

/-- Nobody waits for an answer, so no call is open. -/
theorem callAt? (hd : Dormant P e) (k : CorrelationKey) : e.callAt? k = none := by
  refine Option.eq_none_iff_forall_ne_some.mpr fun task hcall => ?_
  obtain ⟨t, -, hfilter⟩ := Option.bind_eq_some_iff.mp hcall
  obtain ⟨hold, hsome⟩ := Option.filter_eq_some_iff.mp hfilter
  rw [(hd.tasks t task hold).call?] at hsome
  cases hsome

/-- A key without a case has no record either. -/
theorem record_of_vacant (hd : Dormant P e) (h : Sound e) (hcase : e.store.get? k = none) :
    e.registry.records.get? k = none :=
  (h.coherent k).of_no_case (hd.callAt? k) hcase

/-- No section of a handler is run, and no call is answered. -/
theorem cause_act (hd : Dormant P e) (a : Action) :
    (∀ m, e.cause a ≠ .handled m) ∧ ∀ call r, e.cause a = .answered call r → call.call? = none := by
  cases a with
  | stride t =>
      unfold Engine.cause
      dsimp only
      split
      · rename_i hold
        exact (hd.tasks t _ hold).elim
      · exact ⟨by simp, by simp⟩
      · exact ⟨by simp, by simp⟩
  | reply t r =>
      unfold Engine.cause
      dsimp only
      split
      · rename_i task hold
        refine ⟨by simp, fun call r' heq => ?_⟩
        cases heq
        exact (hd.tasks t task hold).call?
      · exact ⟨by simp, by simp⟩
  | submit | notify | dispatch | beginSweep | beginWait | beginHold | look | take | letGo | cancel
  | pass => exact ⟨by simp [Engine.cause], by simp [Engine.cause]⟩

/-- The only thing that still happens to a case is its end. -/
theorem cases_act (hd : Dormant P e) (h : Sound e) {c : Case}
    (hcase : (e.act a).store.get? k = some c) : e.store.get? k = some c := by
  obtain ⟨hidle, hcalls⟩ := hd.cause_act a
  rcases h.transition a k with hsame | ⟨published, hrow, -⟩
  · rwa [hsame] at hcase
  · generalize hcause : e.cause a = cause at hrow
    rw [hcase] at hrow
    generalize e.store.get? k = case? at hrow ⊢
    cases hrow with
    | register | confirm => exact absurd (hcalls _ _ hcause) (by simp [Task.call?])
    | negotiate | start => exact absurd hcause (hidle _)

/-- Nothing new is kept, but for closed negotiations and outcomes. -/
theorem dwindles_act (hd : Dormant P e) (h : Sound e) (ha : a.isInput = false) :
    Dwindles e (e.act a) where
  cases k c hcase := hd.cases_act h hcase
  parked n p hp := by
    generalize hregistry : (e.act a).registry = registry at hp
    have hfiles := hregistry ▸ act_files h a
    cases hfiles with
    | same | take => exact hp
    | park n' contract hnotify => simp [hnotify, Action.isInput] at ha
    | file t r offer n' hreply hold => exact (hd.tasks t _ hold).elim
    | purge sweep =>
        rw [Registry.get?_parked_purge] at hp
        exact (Option.filter_eq_some_iff.mp hp).1
  offers i x hx := by
    rcases (act_stocks h a).offers.entries i x hx with hbefore | ⟨⟨t, _, _, _, -, hold⟩, -⟩
    · exact hbefore
    · exact (hd.tasks t _ hold).elim

end Dormant

namespace Lapsed

theorem act (hs : Lapsed e) (h : Sound e) (ha : a.isInput = false) : Lapsed (e.act a) where
  dormant := hs.dormant.step h (fun _ hm => hm.elim) (fun k hsome => by simp [hs.vacant k] at hsome)
    ha (e.act_step a)
  vacant k := eq_none_of_forall_some (fun _ hcase => hs.dormant.cases_act h hcase) (hs.vacant k)

/-- Without cases, nor messages on their way, nothing new is kept at all. -/
theorem recedes_act (hs : Lapsed e) (h : Sound e) (a : Action) : Recedes e (e.act a) where
  closed n since hsince := by
    generalize hregistry : (e.act a).registry = registry at hsince
    have hfiles := hregistry ▸ act_files h a
    cases hfiles with
    | same | park => exact hsince
    | file t r offer n' hreply hold => exact (hs.dormant.tasks t _ hold).elim
    | take key record hrecord =>
        rw [hs.dormant.record_of_vacant h (hs.vacant key)] at hrecord
        cases hrecord
    | purge sweep =>
        rw [Registry.get?_closed_purge] at hsince
        exact (Option.filter_eq_some_iff.mp hsince).1
  outcomes k x hx := by
    rcases (act_stocks h a).outcomes.entries k x hx with hbefore | ⟨⟨t, m, -, hold⟩, -⟩
    · exact hbefore
    · exact (hs.dormant.tasks t _ hold).elim

end Lapsed

/-! ## Runs without input -/

/-- Whatever happens without requests and callbacks, a dormant engine stays dormant and dwindles. -/
theorem Dormant.after (hd : Dormant Message.Lockless e) (h : Sound e) {as : List Action}
    (hinput : ∀ a ∈ as, a.isInput = false) :
    Dormant Message.Lockless (e.after as) ∧ Dwindles e (e.after as) :=
  h.after_induction (P := fun e' => Dormant Message.Lockless e' ∧ Dwindles e e') ⟨hd, .refl e⟩
    (fun h hd ha => ⟨hd.1.act h ha, hd.2.trans (hd.1.dwindles_act h ha)⟩) hinput

/-- Without cases, nor messages on their way, an engine recedes, too. -/
theorem Lapsed.after (hs : Lapsed e) (h : Sound e) {as : List Action}
    (hinput : ∀ a ∈ as, a.isInput = false) : Lapsed (e.after as) ∧ Recedes e (e.after as) :=
  h.after_induction (P := fun e' => Lapsed e' ∧ Recedes e e') ⟨hs, .refl e⟩
    (fun h hs ha => ⟨hs.1.act h ha, hs.2.trans (hs.1.recedes_act h _)⟩) hinput

section

variable {startedAt n : Nat} {seen visited : List (CorrelationKey × Stage)}

/-- A sweep ends by the stride that it makes when no key is left. -/
theorem Sweeps.finishes (hs : e.Sweeps t startedAt seen visited n) (hlive : e.tasks.get? t ≠ none)
    (hgone : (e.act (.stride t)).tasks.get? t = none) :
    ∃ evicted, e.act (.stride t) = e.finishSweep t startedAt evicted := by
  cases hs with
  | walking sweep hold hstart =>
      cases hrest : sweep.rest with
      | nil => exact ⟨sweep.evicted, hstart ▸ act_stride_end hold hrest⟩
      | cons x rest =>
          rw [act_stride_next hold hrest] at hgone
          simp [queueUp] at hgone
  | locking sweep key stage hold =>
      by_cases ho : e.owns t key
      · obtain ⟨next, htasks⟩ := tasks_visit e t sweep key stage
        rw [act_stride_visit hold ho, htasks] at hgone
        simp at hgone
      · rw [act_stride_wait hold ho] at hgone
        exact absurd hgone hlive
  | ended hold => exact absurd hold hlive

/-- A sweep that has ended meanwhile has made its last stride. -/
theorem Sweeps.last_stride (hs : e.Sweeps t startedAt seen visited n) (h : Sound e)
    (hlive : e.tasks.get? t ≠ none) {bs : List Action} (hended : (e.after bs).tasks.get? t = none) :
    ∃ before since evicted, bs = before ++ .stride t :: since ∧
      (e.after before).act (.stride t) = (e.after before).finishSweep t startedAt evicted := by
  induction bs generalizing e visited n with
  | nil => exact absurd hended hlive
  | cons a bs ih =>
      by_cases hgone : (e.act a).tasks.get? t = none
      · cases ha : a.strides t with
        | false => exact absurd ((hs.get?_tasks_of_not_strides h ha).1.symm.trans hgone) hlive
        | true =>
            obtain rfl : a = .stride t := by
              cases a <;> simp_all [Action.strides]
            obtain ⟨evicted, hlast⟩ := hs.finishes hlive hgone
            exact ⟨[], bs, evicted, rfl, hlast⟩
      · obtain ⟨before, since, evicted, rfl, hlast⟩ := ih (hs.after h [a]) (h.act a) hgone hended
        exact ⟨a :: before, since, evicted, rfl, hlast⟩

end

/-! ## Rounds -/

namespace Round

/-- A round splits at the last stride of its sweep. -/
theorem last_stride (hr : Round e t e') (h : Sound e) :
    ∃ before since sweeper evicted,
      (∀ a ∈ before, a.isInput = false) ∧ (∀ a ∈ since, a.isInput = false) ∧
      t ≤ (e.after before).now ∧
      (e.after before).act (.stride sweeper) = (e.after before).finishSweep sweeper t evicted ∧
      e' = ((e.after before).act (.stride sweeper)).after since := by
  cases hr with
  | intro before during sweeper seen hinput hold hstart hseen hrest =>
      have hlook := sweeps_look hold hstart hseen
      have hlive : ((e.after before).act (.look sweeper t seen)).tasks.get? sweeper ≠ none := by
        simp [act, look, hold, hstart, hseen, lookAround]
      have hended := hrest.2 sweeper
      rw [after_append, after_cons] at hended
      obtain ⟨visits, since, evicted, rfl, hlast⟩ :=
        hlook.last_stride ((h.after before).act _) hlive hended
      have hvisits : e.after (before ++ .look sweeper t seen :: visits) =
          ((e.after before).act (.look sweeper t seen)).after visits := by
        rw [after_append, after_cons]
      refine ⟨before ++ .look sweeper t seen :: visits, since, sweeper, evicted, fun a ha => ?_,
        fun a ha => ?_, ?_, ?_, ?_⟩
      · refine hinput a ?_
        rw [← List.cons_append, ← List.append_assoc]
        exact List.mem_append_left _ ha
      · refine hinput a ?_
        rw [← List.cons_append, ← List.append_assoc]
        exact List.mem_append_right _ (List.mem_cons_of_mem _ ha)
      · rw [after_append]
        exact Nat.le_trans hstart ((h.after before).now_le_after _)
      · rw [hvisits, hlast]
      · rw [hvisits, ← after_cons, ← after_append, ← after_cons, ← after_append]

/-- A round leads to a state that can be reached. -/
theorem exists_after (hr : Round e t e') : ∃ as, e' = e.after as := by
  cases hr with
  | intro before during sweeper seen => exact ⟨_, rfl⟩

theorem atRest (hr : Round e t e') : e'.AtRest := by
  cases hr with
  | intro _ _ _ _ _ _ _ _ hrest => exact hrest

theorem dwindles (hr : Round e t e') (h : Sound e) (hd : Dormant Message.Lockless e) :
    Dwindles e e' := by
  cases hr with
  | intro before during sweeper seen hinput => exact (hd.after h hinput).2

/-- A round that begins when every case has expired ends every case. -/
theorem vacant (hr : Round e t e') (h : Sound e) (hd : Dormant Message.Lockless e)
    (hdates : ∀ k c, e.store.get? k = some c → c.createdAt ≤ e.now)
    (hdue : e.now + e.store.ttl ≤ t) (k : CorrelationKey) : e'.store.get? k = none := by
  refine Option.eq_none_iff_forall_ne_some.mpr fun c hcase => ?_
  cases hr with
  | intro before during sweeper seen hinput hold hstart hseen hrest =>
      generalize hall : before ++ .look sweeper t seen :: during = all at hinput hrest hcase
      -- a case that is there in the end was there all the time
      have hthere : ∀ n, (e.after (all.take n)).store.get? k = some c := fun n => by
        have hfirst : ∀ a ∈ all.take n, a.isInput = false := fun a ha =>
          hinput a (List.mem_of_mem_take ha)
        have hrest : ∀ a ∈ all.drop n, a.isInput = false := fun a ha =>
          hinput a (List.mem_of_mem_drop ha)
        obtain ⟨hthen, -⟩ := hd.after h hfirst
        obtain ⟨-, hlater⟩ := hthen.after (h.after _) hrest
        rw [← after_append, List.take_append_drop] at hlater
        exact hlater.cases k c hcase
      have hfirst : e.store.get? k = some c := hthere 0
      have hdate := hdates k c hfirst
      subst hall
      obtain ⟨c', hcase', -, hless⟩ := h.outlives_sweep hfirst hold hstart (by omega) hseen
        (hrest.2 sweeper) fun n _ => by simp [hthere n]
      rw [hcase] at hcase'
      cases hcase'
      exact absurd hless (Nat.lt_irrefl _)

/-- A round that begins when everything parked and every offer has expired drops them. -/
theorem swept (hr : Round e t e') (h : Sound e) (hd : Dormant Message.Lockless e)
    (hdated : e.Dated s) (hparked : e.now + s.parkedEventTtl ≤ t)
    (hoffers : e.now + s.offerCacheTtl ≤ t) :
    (∀ n, e'.registry.parked.get? n = none) ∧ ∀ i, e'.offers.entries.get? i = none := by
  obtain ⟨before, since, sweeper, evicted, hinput, hinput', hstart, hlast, rfl⟩ := hr.last_stride h
  obtain ⟨hthen, hbefore⟩ := hd.after h hinput
  have hsound := h.after before
  have hstill := hdated.after h before
  generalize e.after before = last at hstart hlast hthen hbefore hsound hstill ⊢
  have hend : Dormant Message.Lockless (last.act (.stride sweeper)) := hthen.act hsound rfl
  obtain ⟨-, hlater⟩ := hend.after (hsound.act _) hinput'
  rw [hlast] at hlater ⊢
  constructor
  · exact fun n => eq_none_of_forall_some (hlater.parked n) <|
      Assoc.get?_keep_of_old ParkedConfirmation.since
        (fun n p hp => hdated.parked n p (hbefore.parked n p hp)) (hstill.parkedTtl ▸ hparked) n
  · exact fun i => eq_none_of_forall_some (hlater.offers i) <|
      Assoc.get?_keep_of_old Prod.snd
        (fun i x hx => hdated.offers i x (hbefore.offers i x hx))
        (hstill.offerTtl ▸ Nat.le_trans hoffers hstart) i

/-- A round that begins without a case, and when every closed negotiation and every outcome has
expired, drops them. -/
theorem cleared (hr : Round e t e') (h : Sound e) (hs : Lapsed e) (hdated : e.Dated s)
    (hclosed : e.now + s.caseTtl ≤ t) (houtcomes : e.now + s.resultTtl ≤ t) :
    (∀ n, e'.registry.closed.get? n = none) ∧ ∀ k, e'.board.outcomes.entries.get? k = none := by
  obtain ⟨before, since, sweeper, evicted, hinput, hinput', hstart, hlast, rfl⟩ := hr.last_stride h
  obtain ⟨hthen, hbefore⟩ := hs.after h hinput
  have hsound := h.after before
  have hstill := hdated.after h before
  generalize e.after before = last at hstart hlast hthen hbefore hsound hstill ⊢
  have hend : Lapsed (last.act (.stride sweeper)) := hthen.act hsound rfl
  obtain ⟨-, hlater⟩ := hend.after (hsound.act _) hinput'
  rw [hlast] at hlater ⊢
  constructor
  · exact fun n => eq_none_of_forall_some (hlater.closed n) <|
      Assoc.get?_keep_of_old id
        (fun n since hsince => hdated.closed n since (hbefore.closed n since hsince))
        (hstill.caseTtl ▸ hclosed) n
  · exact fun k => eq_none_of_forall_some (hlater.outcomes k) <|
      Assoc.get?_keep_of_old Prod.snd
        (fun k x hx => hdated.outcomes k x (hbefore.outcomes k x hx))
        (hstill.resultTtl ▸ Nat.le_trans houtcomes hstart) k

/-- Two rounds, each after everything has expired that was there before it, leave nothing. -/
theorem bare {t₁ t₂ : Nat} {e₁ e₂ : Engine} (hr₁ : Round e t₁ e₁) (hr₂ : Round e₁ t₂ e₂)
    (h : Sound e) (hd : Dormant Message.Lockless e) (hdated : e.Dated s)
    (hbacked : e.registry.Backed) (hdue₁ : e.now + s.longestTtl ≤ t₁)
    (hdue₂ : e₁.now + s.longestTtl ≤ t₂) : Bare e₂ := by
  obtain ⟨as₁, heq₁⟩ := hr₁.exists_after
  obtain ⟨as₂, heq₂⟩ := hr₂.exists_after
  have h₁ : Sound e₁ := heq₁ ▸ h.after as₁
  have h₂ : Sound e₂ := heq₂ ▸ h₁.after as₂
  have hdated₁ : e₁.Dated s := heq₁ ▸ hdated.after h as₁
  have hbacked₂ : e₂.registry.Backed := by
    rw [heq₂, heq₁]
    exact (h.after as₁).backed_after (h.backed_after hbacked as₁) as₂
  have hlongest := s.le_longestTtl
  -- what the first round leaves
  have hvacant₁ := hr₁.vacant h hd hdated.cases (by rw [hdated.caseTtl]; omega)
  obtain ⟨hparked₁, hoffers₁⟩ := hr₁.swept h hd hdated (by omega) (by omega)
  have hlapsed₁ : Lapsed e₁ := ⟨hr₁.atRest.dormant _, hvacant₁⟩
  -- what the second round leaves of it
  have hdwindles := hr₂.dwindles h₁ (hr₁.atRest.dormant _)
  obtain ⟨hclosed, houtcomes⟩ := hr₂.cleared h₁ hlapsed₁ hdated₁ (by omega) (by omega)
  have hcases : ∀ k, e₂.store.get? k = none := fun k =>
    eq_none_of_forall_some (hdwindles.cases k) (hvacant₁ k)
  have hparked : ∀ n, e₂.registry.parked.get? n = none := fun n =>
    eq_none_of_forall_some (hdwindles.parked n) (hparked₁ n)
  have hoffers : ∀ i, e₂.offers.entries.get? i = none := fun i =>
    eq_none_of_forall_some (hdwindles.offers i) (hoffers₁ i)
  have hrecords : ∀ k, e₂.registry.records.get? k = none := fun k =>
    (hr₂.atRest.dormant Message.Lockless).record_of_vacant h₂ (hcases k)
  have hindex : ∀ n, e₂.registry.index.get? n = none := fun n =>
    Option.eq_none_iff_forall_ne_some.mpr fun k hn => by
      obtain ⟨record, hrecord, -⟩ := hbacked₂ n k hn
      rw [hrecords k] at hrecord
      cases hrecord
  have hqueues : ∀ k, e₂.store.locks.queue k = [] := fun k =>
    List.eq_nil_iff_forall_not_mem.mpr fun t' =>
      h₂.orderly.not_mem_queue (by rw [hr₂.atRest.2 t']; rfl) k
  exact
    { cases := Assoc.isEmpty_of_get? hcases
      locks := KeyLocks.isEmpty_of_queue hqueues
      records := Assoc.isEmpty_of_get? hrecords
      index := Assoc.isEmpty_of_get? hindex
      parked := Assoc.isEmpty_of_get? hparked
      closed := Assoc.isEmpty_of_get? hclosed
      outcomes := Assoc.isEmpty_of_get? houtcomes
      offers := Assoc.isEmpty_of_get? hoffers }

end Round

end Engine

end Rendezvous
