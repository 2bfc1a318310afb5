import Rendezvous.Proofs.Conservation
import Rendezvous.Proofs.Eviction
import Rendezvous.Proofs.Passages

/-!
# The mail of an engine

Whatever the state of its cases and records, an engine loses no message and handles none twice.
`Engine.mail` lists the messages on their way; an action takes from it the message whose handling
begins and adds the messages that it publishes.  `Posts` says so of two states, and `Deals` adds
what the action writes: one outcome for each message handled that tells one, and one published
message that tells an outcome for each handler that goes wrong and each case that ends.

None of this needs cases, records and calls to fit together.  It needs only that the books about
tasks and locks agree and that the bus is open: `Wired`.

* `Shift`: the three ways in which a task changes its position;
* `act_deals`: what an action does to the mail.
-/

namespace Rendezvous

/-- Whether handling the message records an outcome of `k`. -/
def Message.tells (k : CorrelationKey) (m : Message) : Bool :=
  m.key = k && match m.channel, m.payload with
    | .result, .completed _ => true
    | .dlq, _ => true
    | _, _ => false

/-- The message whose publication the event is. -/
def Event.message? : Event → Option Message
  | .published m => some m
  | _ => none

/-- Whether a handler of `k` goes wrong by the event. -/
def Event.isFaultOf (k : CorrelationKey) : Event → Bool
  | .faulted m _ => m.key = k
  | _ => false

/-- The messages that are published by the events. -/
def Event.posted (evs : List Event) : List Message := evs.filterMap Event.message?

@[simp] theorem Event.posted_nil : Event.posted [] = [] := rfl

@[simp] theorem Event.posted_cons (ev : Event) (evs : List Event) :
    Event.posted (ev :: evs) = ev.message?.toList ++ Event.posted evs := by
  cases h : ev.message? <;> simp [Event.posted, h]

@[simp] theorem Event.posted_append (evs evs' : List Event) :
    Event.posted (evs ++ evs') = Event.posted evs ++ Event.posted evs' :=
  List.filterMap_append

/-- What a handler of `m` publishes by leaving its section. -/
def Exit.posts (m : Message) : Exit → List Message
  | .publish next => [next]
  | .fault error => (Bus.faultOf m error).toList
  | .done | .record _ | .call _ => []

/-- Whether a handler records an outcome by leaving its section. -/
def Exit.isRecord : Exit → Bool
  | .record _ => true
  | .done | .publish _ | .fault _ | .call _ => false

/-- Whether a handler goes wrong by leaving its section. -/
def Exit.isFault : Exit → Bool
  | .fault _ => true
  | .done | .publish _ | .record _ | .call _ => false

/-- A position that a task can have: who waits for a lock to handle a message needs it, and who
opens a request has come with a message for the first stage. -/
def Task.Placed : Task → Prop
  | .locking (.handle m) => m.needsLock
  | .resolving m .. | .negotiating m .. => m.channel = .initial
  | _ => True

/-- An exit that the section of `m` can have in whatever state: what is published ends a request or
goes to a stage, who stays inside makes a call, and who handles a dead letter does not go wrong. -/
def Exit.Fair (m : Message) : Exit → Prop
  | .publish next => next.key = m.key ∧ (next.isTerminal ∨ next.isStageEvent)
  | .call task => task.key? = some m.key ∧ task.call?.isSome ∧ task.Placed
  | .fault _ => m.channel ≠ .dlq
  | .done | .record _ => True

namespace Engine

/-- The messages on their way: queued, or with a task that has not begun to handle them. -/
def mail (e : Engine) : List Message :=
  e.bus.queue ++ e.tasks.values.filterMap Task.message?

variable {e e' e'' : Engine} {a : Action} {t : TaskId} {k : CorrelationKey} {m : Message}

theorem mem_mail : m ∈ e.mail ↔ e.InMail m := by
  unfold mail InMail
  rw [List.mem_append, List.mem_filterMap]
  refine or_congr Iff.rfl ⟨?_, ?_⟩
  · rintro ⟨task, hmem, hmessage⟩
    obtain ⟨t, ht⟩ := (Assoc.mem_values _ _).mp hmem
    exact ⟨t, by simp [ht, hmessage]⟩
  · rintro ⟨t, ht⟩
    obtain ⟨task, htask, hmessage⟩ := Option.bind_eq_some_iff.mp ht
    exact ⟨task, (Assoc.mem_values _ _).mpr ⟨t, htask⟩, hmessage⟩

/-! ## What is handled and what is posted -/

/-- From `e` to `e'` the events `evs` are written, latest first, and the handling of the messages
`handled` begins; whatever else was on its way is still, and so is what the events publish. -/
structure Posts (e e' : Engine) (handled : List Message) (evs : List Event) : Prop where
  history : e'.history = evs ++ e.history
  mail : (handled ++ e'.mail).Perm (Event.posted evs ++ e.mail)

namespace Posts

variable {handled handled' : List Message} {evs evs' : List Event}

theorem refl (e : Engine) : Posts e e [] [] := ⟨rfl, .refl _⟩

theorem trans (h : Posts e e' handled evs) (h' : Posts e' e'' handled' evs') :
    Posts e e'' (handled' ++ handled) (evs' ++ evs) where
  history := by rw [h'.history, h.history, List.append_assoc]
  mail := by
    rw [Event.posted_append]
    have hfirst := List.perm_iff_count.mp h.mail
    have hsecond := List.perm_iff_count.mp h'.mail
    refine List.perm_iff_count.mpr fun m => ?_
    have hfirst := hfirst m
    have hsecond := hsecond m
    simp only [List.count_append] at hfirst hsecond ⊢
    omega

/-- Messages on their way after were posted, or on their way before. -/
theorem mem_mail (h : Posts e e' handled evs) (hmem : m ∈ e'.mail) :
    m ∈ Event.posted evs ∨ m ∈ e.mail :=
  List.mem_append.mp (h.mail.subset (List.mem_append_right _ hmem))

/-- Messages on their way before are handled, or still on their way. -/
theorem handled_or_mail (h : Posts e e' handled evs) (hmem : m ∈ e.mail) :
    m ∈ handled ∨ m ∈ e'.mail :=
  List.mem_append.mp (h.mail.symm.subset (List.mem_append_right _ hmem))

theorem posted_of_quiet (hquiet : ∀ ev ∈ evs, ev.message? = none) : Event.posted evs = [] :=
  List.filterMap_eq_nil_iff.mpr hquiet

/-- What changes neither bus nor tasks moves no message. -/
theorem of_eq (hhistory : e'.history = evs ++ e.history)
    (hquiet : ∀ ev ∈ evs, ev.message? = none) (hbus : e'.bus = e.bus)
    (htasks : e'.tasks = e.tasks) : Posts e e' [] evs where
  history := hhistory
  mail := by
    rw [posted_of_quiet hquiet]
    unfold Engine.mail
    rw [hbus, htasks]

theorem note (e : Engine) {ev : Event} (hquiet : ev.message? = none) :
    Posts e (e.note ev) [] [ev] :=
  of_eq rfl (by simpa using hquiet) rfl rfl

theorem leaveLock (e : Engine) (t : TaskId) (key : CorrelationKey) :
    Posts e (e.leaveLock t key) [] ((e.store.locks.heir? key t).toList.map Event.granted) :=
  of_eq (by simp) (by simp [Event.message?]) (by simp) (by simp)

theorem record (e : Engine) (key : CorrelationKey) (o : Outcome) :
    Posts e (e.record key o) []
      (e.board.listeners.reverse.map Event.notified ++ [.recorded key o]) :=
  of_eq (by simp) (by simp +contextual [or_imp, Event.message?]) (by simp) (by simp)

theorem publish (m : Message) (hopen : e.bus.isOpen) :
    Posts e (e.publish m) [] [.published m] where
  history := by simp [publish_of_isOpen e m hopen]
  mail := by
    have hmail : (e.publish m).mail =
        (e.bus.queue ++ [m]) ++ e.tasks.values.filterMap Task.message? := by
      simp [Engine.mail, Bus.publish, hopen]
    rw [List.nil_append, hmail, List.append_assoc]
    exact List.perm_middle

/-- The messages of the tasks that do not move. -/
theorem split_moved {position? : Option Task} (hm : Moved e e' t position?) :
    ∃ rest, (e.tasks.values.filterMap Task.message?).Perm
        (((e.tasks.get? t).bind Task.message?).toList ++ rest) ∧
      (e'.tasks.values.filterMap Task.message?).Perm
        ((position?.bind Task.message?).toList ++ rest) := by
  have hothers : ((e'.tasks.erase t).values.filterMap Task.message?).Perm
      ((e.tasks.erase t).values.filterMap Task.message?) := by
    refine (Assoc.values_perm fun t' => ?_).filterMap _
    by_cases ht : t' = t
    · simp [ht]
    · simp [ht, hm.others t' ht]
  have hsplit : ∀ task? : Option Task, task?.toList.filterMap Task.message? =
      (task?.bind Task.message?).toList := by
    intro task?
    cases task? with
    | none => rfl
    | some task => cases hmessage : task.message? <;> simp [hmessage]
  refine ⟨(e.tasks.erase t).values.filterMap Task.message?, ?_, ?_⟩
  · have hvalues := (e.tasks.values_perm_erase t).filterMap Task.message?
    rwa [List.filterMap_append, hsplit] at hvalues
  · have hvalues := (e'.tasks.values_perm_erase t).filterMap Task.message?
    rw [List.filterMap_append, hsplit, hm.self] at hvalues
    exact hvalues.trans (hothers.append_left _)

/-- A task that moves on has begun to handle its message, or still has it. -/
theorem moved {position? : Option Task} (hm : Moved e e' t position?)
    (hhistory : e'.history = evs ++ e.history) (hquiet : ∀ ev ∈ evs, ev.message? = none)
    (hbus : e'.bus = e.bus)
    (hmessage : ((e.tasks.get? t).bind Task.message?).toList =
      handled ++ (position?.bind Task.message?).toList) : Posts e e' handled evs where
  history := hhistory
  mail := by
    obtain ⟨rest, hbefore, hafter⟩ := split_moved hm
    rw [hmessage] at hbefore
    rw [posted_of_quiet hquiet]
    have hbefore := List.perm_iff_count.mp hbefore
    have hafter := List.perm_iff_count.mp hafter
    refine List.perm_iff_count.mpr fun m => ?_
    have hbefore := hbefore m
    have hafter := hafter m
    unfold Engine.mail
    rw [hbus]
    simp only [List.count_append, List.nil_append] at hbefore hafter ⊢
    omega

/-- A message handed to a task is still on its way. -/
theorem dispatch (hfresh : e.tasks.get? e.nextTask = none) {rest : List Message}
    (hqueue : e.bus.queue = m :: rest) :
    Posts e (({ e with bus := { e.bus with queue := rest } } : Engine).spawn (.arriving m)).2 []
      [.spawned e.nextTask] where
  history := rfl
  mail := by
    have hm : Moved e (({ e with bus := { e.bus with queue := rest } } : Engine).spawn
        (.arriving m)).2 e.nextTask (some (.arriving m)) := moved_insert (by simp)
    obtain ⟨others, hbefore, hafter⟩ := split_moved hm
    rw [hfresh] at hbefore
    have hbefore := List.perm_iff_count.mp hbefore
    have hafter := List.perm_iff_count.mp hafter
    refine List.perm_iff_count.mpr fun m' => ?_
    have hbefore := hbefore m'
    have hafter := hafter m'
    have hposted : Event.posted [.spawned e.nextTask] = [] := rfl
    unfold Engine.mail
    rw [hqueue, hposted]
    simp only [spawn_frame, List.count_append, List.count_cons, List.nil_append, Option.bind_none,
      Option.bind_some, Task.message?, Option.toList_none, Option.toList_some, List.count_nil]
      at hbefore hafter ⊢
    omega

end Posts

/-- Events that only tell that tasks come, go on and end say nothing about messages, outcomes and
faults. -/
theorem silent_of_routine {evs : List Event} (h : ∀ ev ∈ evs, ev.isRoutine) :
    Event.posted evs = [] ∧ (∀ k, evs.filterMap (Event.outcome? k) = []) ∧
      ∀ k, evs.countP (Event.isFaultOf k) = 0 := by
  refine ⟨List.filterMap_eq_nil_iff.mpr fun ev hmem => ?_,
    fun k => List.filterMap_eq_nil_iff.mpr fun ev hmem => ?_,
    fun k => List.countP_eq_zero.mpr fun ev hmem => ?_⟩ <;>
  · have hroutine := h ev hmem
    cases ev <;> simp_all [Event.isRoutine, Event.message?, Event.outcome?, Event.isFaultOf]

/-! ## Tasks and locks -/

/-- The three ways in which the task `t` goes from `old` to `position?`. -/
inductive Shift (e : Engine) (t : TaskId) (old : Task) (position? : Option Task) (e' : Engine) :
    Prop
  /-- It stays in its queue, or out of every queue. -/
  | stay (hlocks : e'.store.locks = e.store.locks) (hkey : position?.bind Task.key? = old.key?)
      (hin : ∀ k, position?.bind Task.inside? = some k → e.store.locks.owner? k = some t)
  /-- It goes to the end of a queue. -/
  | join (new : Task) (k : CorrelationKey) (hnew : position? = some new)
      (hlocks : e'.store.locks = e.store.locks.ask k t) (hout : old.key? = none)
      (hkey : new.key? = some k) (hin : new.inside? = none)
  /-- It leaves its queue. -/
  | quit (k : CorrelationKey) (hlocks : e'.store.locks = e.store.locks.leave k t)
      (hkey : old.key? = some k) (hout : position?.bind Task.key? = none)

theorem Shift.orderly {old : Task} {position? : Option Task} (hs : Shift e t old position? e')
    (h : Orderly e) (hm : Moved e e' t position?) (hold : e.tasks.get? t = some old)
    (hnext : e'.nextTask = e.nextTask) : Orderly e' := by
  cases hs with
  | stay hlocks hkey hin => exact h.move hm hlocks hnext hold hkey hin
  | join new k hnew hlocks hout hkey hin =>
      subst hnew
      exact h.join hm hlocks hnext hold hout hkey hin
  | quit k hlocks hkey hout => exact h.quit hm hlocks hnext hold hkey hout

/-- What holds of an engine whatever its cases and records are. -/
structure Wired (e : Engine) : Prop where
  orderly : e.Orderly
  isOpen : e.bus.isOpen
  placed : ∀ t task, e.tasks.get? t = some task → task.Placed

namespace Wired

theorem congr (h : e.Wired) (htasks : e'.tasks = e.tasks)
    (hlocks : e'.store.locks = e.store.locks) (hnext : e'.nextTask = e.nextTask)
    (hopen : e'.bus.isOpen) : e'.Wired where
  orderly := h.orderly.congr htasks hlocks hnext
  isOpen := hopen
  placed t task hold := h.placed t task (htasks ▸ hold)

theorem moved (h : e.Wired) {old : Task} {position? : Option Task} (hm : Moved e e' t position?)
    (hold : e.tasks.get? t = some old) (hs : Shift e t old position? e')
    (hnext : e'.nextTask = e.nextTask) (hopen : e'.bus.isOpen)
    (hplaced : ∀ task, position? = some task → task.Placed) : e'.Wired where
  orderly := hs.orderly h.orderly hm hold hnext
  isOpen := hopen
  placed t' task hold' := by
    by_cases ht : t' = t
    · subst ht
      rw [hm.self] at hold'
      exact hplaced task hold'
    · rw [hm.others t' ht] at hold'
      exact h.placed t' task hold'

theorem spawn (h : e.Wired) (bus : Bus) {task : Task} (hopen : bus.isOpen)
    (hkey : task.key? = none) : (({ e with bus } : Engine).spawn task).2.Wired := by
  have hm : Moved e (({ e with bus } : Engine).spawn task).2 e.nextTask (some task) :=
    moved_insert (by simp)
  refine ⟨h.orderly.begin hm rfl rfl hkey, hopen, fun t task' hold => ?_⟩
  by_cases ht : t = e.nextTask
  · subst ht
    rw [hm.self] at hold
    cases hold
    -- a task in no queue can be anywhere
    cases task with
    | locking | resolving | negotiating => cases hkey
    | arriving | sweeping | walking | seeking | claiming | transferring | holding | awaiting =>
        exact trivial
  · rw [hm.others t ht] at hold
    exact h.placed t task' hold

end Wired

/-! ## Leaving a section -/

/-- A task that ends after something that has not begun to handle a message. -/
theorem Posts.finish {evs : List Event} {old : Task} (h : Posts e e' [] evs)
    (hold : e'.tasks.get? t = some old) (f : Finish) :
    Posts e (e'.finish t f) old.message?.toList (.finished t f :: evs) := by
  have hend : Posts e' (e'.finish t f) old.message?.toList [.finished t f] :=
    .moved (moved_erase rfl) rfl (by simp [Event.message?]) rfl (by simp [hold])
  simpa using h.trans hend

theorem leave_record (e : Engine) (t : TaskId) (m : Message) (o : Outcome) :
    e.leave t m (.record o) = ((e.leaveLock t m.key).record m.key o).finish t .handled := rfl

/-- A handler that goes wrong sends its fault to the dead letters, unless it was handling one. -/
theorem leave_fault (e : Engine) (t : TaskId) (m : Message) (error : EngineError) :
    e.leave t m (.fault error) =
      (match Bus.faultOf m error with
        | some dead => ((e.leaveLock t m.key).note (.faulted m error)).publish dead
        | none => (e.leaveLock t m.key).note (.faulted m error)).finish t .handled := rfl

/-- What a handler of `m` writes when it leaves its section by `exit`. -/
structure Leaves (m : Message) (exit : Exit) (evs : List Event) : Prop where
  posted : Event.posted evs = exit.posts m
  outcomes : ∀ k, (evs.filterMap (Event.outcome? k)).length =
    if exit.isRecord ∧ m.key = k then 1 else 0
  faults : ∀ k, evs.countP (Event.isFaultOf k) =
    if exit.isFault ∧ m.key = k then 1 else 0

theorem routine_granted (heir? : Option TaskId) :
    ∀ ev ∈ heir?.toList.map Event.granted, ev.isRoutine := by
  intro ev hmem
  obtain ⟨t, -, rfl⟩ := List.mem_map.mp hmem
  rfl

theorem routine_notified (ts : List TaskId) : ∀ ev ∈ ts.map Event.notified, ev.isRoutine := by
  intro ev hmem
  obtain ⟨t, -, rfl⟩ := List.mem_map.mp hmem
  rfl

/-- What a handler writes about messages, outcomes and faults may stand among events that only tell
that tasks come, go on and end. -/
theorem Leaves.of_routine {exit : Exit} {own granted : List Event} (t : TaskId)
    (h : Leaves m exit own) (hgranted : ∀ ev ∈ granted, ev.isRoutine) :
    Leaves m exit (.finished t .handled :: (own ++ granted)) := by
  obtain ⟨hposted, houtcomes, hfaults⟩ := silent_of_routine hgranted
  refine ⟨?_, fun k => ?_, fun k => ?_⟩
  · rw [Event.posted_cons, Event.posted_append, hposted, h.posted]
    simp [Event.message?]
  · rw [← h.outcomes k]
    simp [Event.outcome?, List.filterMap_cons, List.filterMap_append, houtcomes k]
  · rw [← h.faults k]
    simp [Event.isFaultOf, List.countP_append, hfaults k]

theorem leaves_record (m : Message) (o : Outcome) (ts : List TaskId) :
    Leaves m (.record o) (ts.map Event.notified ++ [.recorded m.key o]) := by
  obtain ⟨hposted, houtcomes, hfaults⟩ := silent_of_routine (routine_notified ts)
  refine ⟨by rw [Event.posted_append, hposted]; rfl, fun k => ?_, fun k => ?_⟩
  · rw [List.filterMap_append, houtcomes k]
    by_cases hk : m.key = k <;> simp [Event.outcome?, Exit.isRecord, hk]
  · rw [List.countP_append, hfaults k]
    rfl

/-- A handler that leaves its section has begun its message, if it had not before, and writes what
its exit says. -/
theorem leave_posts (hopen : e.bus.isOpen) {old : Task} (hold : e.tasks.get? t = some old)
    {exit : Exit} (hfair : exit.Fair m) :
    ∃ evs, Posts e (e.leave t m exit) old.message?.toList evs ∧ Leaves m exit evs := by
  have hlock := Posts.leaveLock e t m.key
  have hgranted := routine_granted (e.store.locks.heir? m.key t)
  cases exit with
  | done =>
      have hown : Leaves m .done [] := ⟨rfl, fun k => rfl, fun k => rfl⟩
      exact ⟨_, hlock.finish (by simpa using hold) .handled, hown.of_routine t hgranted⟩
  | publish next =>
      have hown : Leaves m (.publish next) [.published next] := ⟨rfl, fun k => rfl, fun k => rfl⟩
      rw [leave_publish t m next hopen]
      have hpublish := hlock.trans (.publish next (by simpa using hopen))
      exact ⟨_, hpublish.finish (by simpa using hold) .handled, hown.of_routine t hgranted⟩
  | record o =>
      rw [leave_record]
      have hrecord := hlock.trans (.record _ m.key o)
      exact ⟨_, hrecord.finish (by simpa using hold) .handled,
        (leaves_record m o _).of_routine t hgranted⟩
  | fault error =>
      rw [leave_fault]
      have hnote := Posts.note (e.leaveLock t m.key)
        (show (Event.faulted m error).message? = none from rfl)
      have hdead : Bus.faultOf m error = some (.fault m.key error.message) := if_neg hfair
      have hown : Leaves m (.fault error)
          ([.published (.fault m.key error.message)] ++ [.faulted m error]) :=
        ⟨by simp [Event.message?, Exit.posts, hdead], fun k => rfl,
          fun k => by by_cases hk : m.key = k <;> simp [Event.isFaultOf, Exit.isFault, hk]⟩
      have hpublish := hnote.trans (.publish (.fault m.key error.message) (by simpa using hopen))
      rw [hdead]
      exact ⟨_, (hlock.trans hpublish).finish (by simpa using hold) .handled,
        hown.of_routine t hgranted⟩
  | call task =>
      obtain ⟨call, hcall⟩ := Option.isSome_iff_exists.mp hfair.2.1
      rw [leave_call e t m hcall]
      refine ⟨[.called call], .moved (moved_call e t task call) rfl (by simp [Event.message?]) rfl
        ?_, rfl, fun k => rfl, fun k => rfl⟩
      -- a task that makes a call has begun its message already
      have hnone : task.message? = none := by
        cases task <;> simp_all [Task.message?, Task.call?]
      simp [hold, hnone]

/-- Whatever its exit, who leaves a section leaves the books in order. -/
theorem Wired.leave (h : e.Wired) {old : Task} (hold : e.tasks.get? t = some old)
    (hkey : old.key? = some m.key) (ho : e.store.locks.owner? m.key = some t) {exit : Exit}
    (hfair : exit.Fair m) : (e.leave t m exit).Wired := by
  have hquit : ∀ e' : Engine, e'.tasks = e.tasks.erase t →
      e'.store.locks = e.store.locks.leave m.key t → e'.nextTask = e.nextTask →
      e'.bus.isOpen → e'.Wired := fun e' htasks hlocks hnext hopen =>
    h.moved (moved_erase htasks) hold (.quit m.key hlocks hkey rfl) hnext hopen (by simp)
  cases exit with
  | done =>
      rw [leave_done]
      exact hquit _ (by simp) (by simp) (by simp) (by simpa using h.isOpen)
  | publish next =>
      rw [leave_publish t m next h.isOpen]
      exact hquit _ (by simp) (by simp) (by simp) (by simpa [isOpen_publish] using h.isOpen)
  | record o =>
      rw [leave_record]
      exact hquit _ (by simp) (by simp) (by simp) (by simpa using h.isOpen)
  | fault error =>
      rw [leave_fault]
      cases Bus.faultOf m error with
      | none => exact hquit _ (by simp) (by simp) (by simp) (by simpa using h.isOpen)
      | some dead =>
          exact hquit _ (by simp) (by simp) (by simp) (by simpa [isOpen_publish] using h.isOpen)
  | call task =>
      obtain ⟨call, hcall⟩ := Option.isSome_iff_exists.mp hfair.2.1
      rw [leave_call e t m hcall]
      refine h.moved (moved_call e t task call) hold (.stay (by simp) ?_ fun k hin => ?_) (by simp)
        (by simpa using h.isOpen) (by simpa using hfair.2.2)
      · exact hfair.1.trans hkey.symm
      · rw [Option.bind_some, Task.inside?_eq_key? hfair.2.1, hfair.1] at hin
        exact Option.some.inj hin ▸ ho

/-! ## Sections -/

theorem fair_fail (e : Engine) (m : Message) (reason : FailureReason) :
    (e.fail m.key reason).2.Fair m := ⟨rfl, .inl rfl⟩

/-- Every section is left by a fair exit, whatever it finds. -/
theorem handle_fair (e : Engine) (m : Message) : (e.handle m).2.Fair m := by
  unfold handle
  split
  · rename_i hchannel _
    unfold onRequest
    split
    · exact trivial
    · dsimp only
      split <;> exact ⟨rfl, rfl, hchannel⟩
  · unfold onAccepted
    repeat' split
    all_goals exact trivial
  · unfold onNegotiationFailed
    repeat' split
    all_goals first | exact trivial | exact fair_fail e m _
  · rename_i hchannel _
    have hstage : m.channel ≠ .dlq := by simp [hchannel]
    unfold onConfirmed
    repeat' split
    all_goals first | exact trivial | exact hstage | exact ⟨rfl, rfl, trivial⟩
  · unfold onTransferStarted
    repeat' split
    all_goals exact trivial
  · unfold onDataReference
    repeat' split
    all_goals first | exact trivial | exact ⟨rfl, .inl rfl⟩
  · unfold onTransferFailed
    split
    · exact trivial
    · exact fair_fail e m _
  · exact trivial
  · exact trivial

theorem onOffer_fair (e : Engine) {m : Message} (hm : m.channel = .initial) (asset : AssetId)
    (provider : String) (answer : Except EngineError ContractOffer) :
    (e.onOffer m asset provider answer).2.Fair m := by
  cases answer with
  | error error => exact ⟨rfl, .inl rfl⟩
  | ok offer => exact ⟨rfl, rfl, hm⟩

theorem onNegotiation_fair (e : Engine) {m : Message} (hm : m.channel = .initial) (asset : AssetId)
    (provider : String) (offer : ContractOffer) (answer : Except EngineError NegotiationId) :
    (e.onNegotiation m asset provider offer answer).2.Fair m := by
  have hstage : m.channel ≠ .dlq := by simp [hm]
  cases answer with
  | error error => exact ⟨rfl, .inl rfl⟩
  | ok n =>
      unfold onNegotiation
      dsimp only
      repeat' split
      all_goals first | exact hstage | exact trivial | exact ⟨rfl, .inr rfl⟩

theorem onTransfer_fair (e : Engine) (m : Message) (c : Case) (contract : ContractId)
    (answer : Except EngineError TransferProcessId) :
    (e.onTransfer m c contract answer).2.Fair m := by
  cases answer with
  | error error => exact fair_fail e m _
  | ok id => exact trivial

/-- Only a fault is recorded under a lock. -/
theorem isRecord_handle (e : Engine) (m : Message) :
    (e.handle m).2.isRecord = (m.channel = .dlq && m.payload matches .fault _) := by
  unfold handle
  split
  · rename_i hchannel _
    rw [hchannel]
    unfold onRequest
    split
    · rfl
    · dsimp only
      split <;> rfl
  · rename_i hchannel _
    rw [hchannel]
    unfold onAccepted
    repeat' split
    all_goals rfl
  · rename_i hchannel _
    rw [hchannel]
    unfold onNegotiationFailed
    repeat' split
    all_goals rfl
  · rename_i hchannel _
    rw [hchannel]
    unfold onConfirmed
    repeat' split
    all_goals rfl
  · rename_i hchannel _
    rw [hchannel]
    unfold onTransferStarted
    repeat' split
    all_goals rfl
  · rename_i hchannel _
    rw [hchannel]
    unfold onDataReference
    repeat' split
    all_goals rfl
  · rename_i hchannel _
    rw [hchannel]
    unfold onTransferFailed
    split <;> rfl
  · rename_i hchannel hpayload
    rw [hchannel, hpayload]
    rfl
  · rename_i hnot
    cases hpayload : m.payload <;> simp_all [Exit.isRecord]

/-- A message whose handler takes a lock tells an outcome exactly if it is a fault. -/
theorem tells_of_needsLock {m : Message} (hlock : m.needsLock) (k : CorrelationKey) :
    m.tells k = (decide (m.key = k) && (m.channel = .dlq && m.payload matches .fault _)) := by
  obtain ⟨key, channel, payload⟩ := m
  cases channel <;> cases payload <;> simp_all [Message.needsLock, Message.tells]

theorem isRecord_onOffer (e : Engine) (m : Message) (asset : AssetId) (provider : String)
    (answer : Except EngineError ContractOffer) :
    (e.onOffer m asset provider answer).2.isRecord = false := by
  cases answer <;> rfl

theorem isRecord_onNegotiation (e : Engine) (m : Message) (asset : AssetId) (provider : String)
    (offer : ContractOffer) (answer : Except EngineError NegotiationId) :
    (e.onNegotiation m asset provider offer answer).2.isRecord = false := by
  cases answer with
  | error error => rfl
  | ok n =>
      unfold onNegotiation
      dsimp only
      repeat' split
      all_goals rfl

theorem isRecord_onTransfer (e : Engine) (m : Message) (c : Case) (contract : ContractId)
    (answer : Except EngineError TransferProcessId) :
    (e.onTransfer m c contract answer).2.isRecord = false := by
  cases answer <;> rfl

/-- A passage through a section, in whatever state. -/
structure Within (e : Engine) (a : Action) (p : Passage) : Prop where
  position : ∃ old, e.tasks.get? p.task = some old ∧ old.key? = some p.message.key ∧
    old.message?.toList = (e.handling? a).toList
  owner : e.store.locks.owner? p.message.key = some p.task
  contained : Contained e p.message.key p.result
  fair : p.result.2.Fair p.message
  /-- What is recorded is what the message tells whose handling begins. -/
  records : ∀ k, (if p.result.2.isRecord ∧ p.message.key = k then 1 else 0) =
    (e.handling? a).toList.countP (Message.tells k)
  act : e.act a = p.result.1.leave p.task p.message p.result.2

theorem Wired.within (h : e.Wired) {p : Passage} (hp : e.passage? a = some p) : e.Within a p := by
  have howner : ∀ {t task k}, e.tasks.get? t = some task → task.inside? = some k →
      e.store.locks.owner? k = some t := by
    intro t task k hold hin
    exact h.orderly.inside t k (by simp [hold, hin])
  unfold passage? at hp
  split at hp
  · rename_i t
    split at hp
    · rename_i m hold
      split at hp
      · rename_i howns
        cases hp
        have ho : e.store.locks.owner? m.key = some t := by simpa [owns] using howns
        have hhandling : e.handling? (.stride t) = some m := by simp [handling?, hold, howns]
        refine ⟨⟨_, hold, rfl, by rw [hhandling]; rfl⟩, ho, handle_contained e m, handle_fair e m,
          fun k => ?_, by simp [Engine.act, stride, hold, Section.key, howns, enter]⟩
        rw [hhandling, isRecord_handle]
        simp [List.countP_cons, tells_of_needsLock (h.placed t _ hold), and_comm]
      · cases hp
    · cases hp
  · rename_i t r
    split at hp
    · rename_i hold
      cases hp
      exact ⟨⟨_, hold, rfl, rfl⟩, howner hold rfl, onOffer_contained ..,
        onOffer_fair e (h.placed t _ hold) _ _ _,
        fun k => by simp [isRecord_onOffer, handling?], by simp [Engine.act, reply, hold]⟩
    · rename_i hold
      cases hp
      exact ⟨⟨_, hold, rfl, rfl⟩, howner hold rfl, onNegotiation_contained ..,
        onNegotiation_fair e (h.placed t _ hold) _ _ _ _,
        fun k => by simp [isRecord_onNegotiation, handling?],
        by simp [Engine.act, reply, hold]⟩
    · rename_i hold
      cases hp
      exact ⟨⟨_, hold, rfl, rfl⟩, howner hold rfl, onTransfer_contained .., onTransfer_fair ..,
        fun k => by simp [isRecord_onTransfer, handling?], by simp [Engine.act, reply, hold]⟩
    · cases hp
  · cases hp

/-! ## What an action does -/

/-- Where a change of cases and records comes from. -/
inductive Source (e : Engine) (a : Action) (e' : Engine) (handled : List Message)
    (evs : List Event) : Prop
  /-- No key changes, no call is made, and nothing that ends a request is published. -/
  | still (hcases : ∀ k, e'.store.get? k = e.store.get? k)
      (hrecords : ∀ k, e'.registry.records.get? k = e.registry.records.get? k)
      (hcalls : ∀ t task, e'.tasks.get? t = some task → task.call?.isSome →
        e.tasks.get? t = some task)
      (hends : ∀ m ∈ Event.posted evs, m.isTerminal = false)
      (hlock : ∀ m ∈ handled, m.needsLock = false)
  | passage (p : Passage) (hp : e.passage? a = some p) (hhandled : handled = (e.handling? a).toList)
      (hposted : Event.posted evs = p.result.2.posts p.message)
  /-- A sweep ends a case. -/
  | visit (t : TaskId) (sweep : Sweep) (key : CorrelationKey) (seen : Stage)
      (hold : e.tasks.get? t = some (.locking (.evict sweep key seen)))
      (ho : e.store.locks.owner? key = some t) (hdue : e.Due sweep.startedAt key seen)
      (hvisit : e' = e.visit t sweep key seen) (hhandled : handled = [])
      (hposted : Event.posted evs = [.failed key .timeout])

/-- What the action `a` makes of the mail on the way from `e` to `e'`. -/
structure Deals (e : Engine) (a : Action) (e' : Engine) (handled : List Message)
    (evs : List Event) : Prop extends Posts e e' handled evs where
  wired : e'.Wired
  /-- Every message handled that tells an outcome is recorded, and nothing else. -/
  outcomes : ∀ k, (evs.filterMap (Event.outcome? k)).length = handled.countP (Message.tells k)
  /-- What is published that tells an outcome is a fault or ends a request. -/
  endings : ∀ k, evs.countP (Event.isFaultOf k) + (Event.posted evs).countP (Message.ends k) =
    (Event.posted evs).countP (Message.tells k)
  /-- Only callers publish requests. -/
  requests : ∀ m ∈ Event.posted evs, m.isRequest → ∃ r, a = .submit r ∧ m = .ofRequest r
  source : e.Source a e' handled evs

variable {evs : List Event}

/-- What changes no key, makes no call and writes nothing but that tasks come, go on and end. -/
theorem deals_of_routine (hposts : Posts e e' [] evs) (hroutine : ∀ ev ∈ evs, ev.isRoutine)
    (hwired : e'.Wired) (hcases : ∀ k, e'.store.get? k = e.store.get? k)
    (hrecords : ∀ k, e'.registry.records.get? k = e.registry.records.get? k)
    (hcalls : ∀ t task, e'.tasks.get? t = some task → task.call?.isSome →
      e.tasks.get? t = some task) (a : Action) : e.Deals a e' [] evs := by
  obtain ⟨hposted, houtcomes, hfaults⟩ := silent_of_routine hroutine
  refine ⟨hposts, hwired, fun k => by rw [houtcomes k]; rfl,
    fun k => by rw [hposted, hfaults k]; rfl, by simp [hposted], ?_⟩
  exact .still hcases hrecords hcalls (by simp [hposted]) (by simp)

/-- A task that moves without making a call leaves open calls as they were. -/
theorem calls_of_moved {position? : Option Task} (hm : Moved e e' t position?)
    (hquiet : ∀ task, position? = some task → task.call? = none) (t' : TaskId) (task : Task)
    (hold : e'.tasks.get? t' = some task) (hcall : task.call?.isSome) :
    e.tasks.get? t' = some task := by
  by_cases ht : t' = t
  · subst ht
    rw [hm.self] at hold
    rw [hquiet task hold] at hcall
    cases hcall
  · rwa [hm.others t' ht] at hold

/-- A task moves on, and changes no key. -/
theorem deals_of_moved (h : e.Wired) {old : Task} {position? : Option Task}
    (hm : Moved e e' t position?) (hold : e.tasks.get? t = some old)
    (hs : Shift e t old position? e') (hnext : e'.nextTask = e.nextTask) (hbus : e'.bus = e.bus)
    (hplaced : ∀ task, position? = some task → task.Placed)
    (hhistory : e'.history = evs ++ e.history) (hroutine : ∀ ev ∈ evs, ev.isRoutine)
    (hmessage : old.message?.toList = (position?.bind Task.message?).toList)
    (hquiet : ∀ task, position? = some task → task.call? = none)
    (hcases : ∀ k, e'.store.get? k = e.store.get? k)
    (hrecords : ∀ k, e'.registry.records.get? k = e.registry.records.get? k) (a : Action) :
    e.Deals a e' [] evs := by
  have hposts : Posts e e' [] evs := by
    refine .moved hm hhistory (fun ev hmem => ?_) hbus (by simpa [hold] using hmessage)
    have hroutine := hroutine ev hmem
    cases ev <;> simp_all [Event.isRoutine, Event.message?]
  exact deals_of_routine hposts hroutine
    (h.moved hm hold hs hnext (hbus ▸ h.isOpen) hplaced) hcases hrecords
    (calls_of_moved hm hquiet) a

/-- A message that no case follows from is published. -/
theorem deals_publish (h : e.Wired) (hterminal : m.isTerminal = false)
    (htells : ∀ k, m.tells k = false)
    (hrequest : m.isRequest → ∃ r, a = .submit r ∧ m = .ofRequest r) :
    e.Deals a (e.publish m) [] [.published m] := by
  have hopen : (e.publish m).bus.isOpen := by simpa [isOpen_publish] using h.isOpen
  refine ⟨.publish m h.isOpen, h.congr (by simp) (by simp) (by simp) hopen, fun k => rfl,
    fun k => ?_, fun m' hmem => ?_, .still (by simp) (by simp) (by simp +contextual) ?_ (by simp)⟩
  · simp [Event.message?, Event.isFaultOf, htells, Message.ends, hterminal]
  · obtain rfl : m' = m := by simpa [Event.message?] using hmem
    exact hrequest
  · simpa [Event.message?] using hterminal

theorem deals_spawn (h : e.Wired) (a : Action) {task : Task} (hkey : task.key? = none)
    (hcall : task.call? = none) (hmessage : task.message? = none) :
    e.Deals a (e.spawn task).2 [] [.spawned e.nextTask] := by
  have hm : Moved e (e.spawn task).2 e.nextTask (some task) := moved_insert (by simp)
  have hfresh := h.orderly.fresh _ (Nat.le_refl e.nextTask)
  exact deals_of_routine
    (.moved hm rfl (by simp [Event.message?]) rfl (by simp [hfresh, hmessage]))
    (by simp [Event.isRoutine])
    (h.spawn e.bus h.isOpen hkey) (fun k => rfl) (fun k => rfl)
    (calls_of_moved hm (by simpa using hcall)) a

theorem deals_dispatch (h : e.Wired) {rest : List Message} (hqueue : e.bus.queue = m :: rest) :
    e.Deals .dispatch (({ e with bus := { e.bus with queue := rest } } : Engine).spawn
      (.arriving m)).2 [] [.spawned e.nextTask] := by
  have hm : Moved e (({ e with bus := { e.bus with queue := rest } } : Engine).spawn
    (.arriving m)).2 e.nextTask (some (.arriving m)) := moved_insert (by simp)
  have hfresh := h.orderly.fresh _ (Nat.le_refl e.nextTask)
  exact deals_of_routine (.dispatch hfresh hqueue) (by simp [Event.isRoutine])
    (h.spawn { e.bus with queue := rest } h.isOpen rfl) (fun k => rfl) (fun k => rfl)
    (calls_of_moved hm (by simp [Task.call?])) .dispatch

/-- A message that is no result and not among the dead letters tells nothing. -/
theorem tells_of_not_result {m : Message}
    (hresult : ∀ reference, m.channel = .result → m.payload = .completed reference → False)
    (hdlq : m.channel = .dlq → False) (k : CorrelationKey) : m.tells k = false := by
  obtain ⟨key, channel, payload⟩ := m
  cases channel with
  | dlq => exact absurd rfl hdlq
  | result =>
      cases payload with
      | completed reference => exact absurd rfl (hresult reference rfl)
      | _ => exact Bool.and_false _
  | initial | contractNegotiation | contractConfirmation | dataReference =>
      exact Bool.and_false _

/-- A message that needs no lock is handled: what it tells is recorded. -/
theorem deals_begin (h : e.Wired) (hold : e.tasks.get? t = some (.arriving m))
    (hlock : m.needsLock = false) : ∃ evs, e.Deals (.stride t) (e.begin t m) [m] evs := by
  -- whatever is recorded, a handler has ended that leaves by the exit `exit`
  have hended : ∀ (e' : Engine) (exit : Exit) (own : List Event), Posts e e' [] own →
      Leaves m exit own → (∀ k, (if exit.isRecord ∧ m.key = k then 1 else 0) =
        [m].countP (Message.tells k)) → exit.isFault = false → exit.posts m = [] →
      e'.tasks = e.tasks → e'.store = e.store → e'.registry = e.registry →
      e'.nextTask = e.nextTask → e'.bus = e.bus →
      ∃ evs, e.Deals (.stride t) (e'.finish t .handled) [m] evs := by
    intro e' exit own hposts hown hrecords hfault hnothing htasks hstore hregistry hnext hbus
    have hm : Moved e (e'.finish t .handled) t none := moved_erase (by simp [htasks])
    have hleaves := hown.of_routine t (show ∀ ev ∈ ([] : List Event), ev.isRoutine by simp)
    rw [List.append_nil] at hleaves
    refine ⟨_, hposts.finish (by rw [htasks]; exact hold) .handled, ?_, fun k => ?_, fun k => ?_,
      ?_, ?_⟩
    · exact h.moved hm hold (.stay (by simp [hstore]) rfl (by simp)) (by simp [hnext])
        (by simpa [hbus] using h.isOpen) (by simp)
    · rw [hleaves.outcomes k, hrecords k]
    · rw [hleaves.posted, hleaves.faults k, hnothing, hfault]
      simp
    · simp [hleaves.posted, hnothing]
    · exact .still (by simp [hstore]) (by simp [hregistry]) (calls_of_moved hm (by simp))
        (by simp [hleaves.posted, hnothing]) (by simpa using hlock)
  have hrecord : ∀ o, (∀ k, m.tells k = decide (m.key = k)) → ∃ evs,
      e.Deals (.stride t) ((e.record m.key o).finishHandler t m none) [m] evs := fun o htells =>
    hended _ (.record o) _ (.record e m.key o) (leaves_record m o _)
      (fun k => by simp [Exit.isRecord, List.countP_cons, htells]) rfl rfl (by simp) (by simp)
      (by simp) (by simp) (by simp)
  unfold begin
  split
  · exact hrecord _ (fun k => by simp [Message.tells, *])
  · exact hrecord _ (fun k => by simp [Message.tells, *])
  · exact hrecord _ (fun k => by simp [Message.tells, *])
  · rename_i hdlq hresult _
    refine hended e .done [] (.refl e) ⟨rfl, fun k => rfl, fun k => rfl⟩ (fun k => ?_) rfl rfl rfl
      rfl rfl rfl rfl
    simp [Exit.isRecord, tells_of_not_result hresult hdlq k]

/-- What ends a request tells its outcome, and no event for a stage does. -/
theorem tells_of_publish {next : Message} (hnext : next.isTerminal ∨ next.isStageEvent)
    (k : CorrelationKey) : next.tells k = next.ends k := by
  obtain ⟨key, channel, payload⟩ := next
  cases channel <;> cases payload <;>
    simp_all [Message.isTerminal, Message.isStageEvent, Message.tells, Message.ends]

/-- What a handler publishes is no request. -/
theorem not_isRequest_of_publish {next : Message} (hnext : next.isTerminal ∨ next.isStageEvent) :
    ¬ next.isRequest := by
  unfold Message.isRequest
  split
  · rename_i hchannel hpayload
    simp [Message.isTerminal, Message.isStageEvent, hchannel, hpayload] at hnext
  · exact Bool.false_ne_true

/-- A handler makes a passage through its section. -/
theorem deals_passage (h : e.Wired) {p : Passage} (hp : e.passage? a = some p) :
    ∃ evs, e.Deals a (e.act a) (e.handling? a).toList evs ∧
      Event.posted evs = p.result.2.posts p.message := by
  have hwithin := h.within hp
  obtain ⟨old, hold, hkey, hmessage⟩ := hwithin.position
  have hcontained := hwithin.contained
  obtain ⟨own, hown, haccepts⟩ := hcontained.news
  -- the section itself only notes what it accepts and registers
  have hsection : Posts e p.result.1 [] own := by
    refine .of_eq hown (fun ev hmem => ?_) hcontained.bus hcontained.tasks
    rcases haccepts ev hmem with rfl | rfl <;> rfl
  have hsilent : Event.posted own = [] ∧ (∀ k, own.filterMap (Event.outcome? k) = []) ∧
      ∀ k, own.countP (Event.isFaultOf k) = 0 := by
    refine ⟨List.filterMap_eq_nil_iff.mpr fun ev hmem => ?_,
      fun k => List.filterMap_eq_nil_iff.mpr fun ev hmem => ?_,
      fun k => List.countP_eq_zero.mpr fun ev hmem => ?_⟩ <;>
    · rcases haccepts ev hmem with rfl | rfl <;>
        simp [Event.message?, Event.outcome?, Event.isFaultOf]
  have hwired : p.result.1.Wired :=
    h.congr hcontained.tasks hcontained.locks hcontained.nextTask (hcontained.bus ▸ h.isOpen)
  have hold' : p.result.1.tasks.get? p.task = some old := hcontained.tasks ▸ hold
  have ho' : p.result.1.store.locks.owner? p.message.key = some p.task :=
    hcontained.locks ▸ hwithin.owner
  obtain ⟨evs, hposts, hleaves⟩ := leave_posts hwired.isOpen hold' hwithin.fair
  have hposted : Event.posted (evs ++ own) = p.result.2.posts p.message := by
    rw [Event.posted_append, hsilent.1, List.append_nil, hleaves.posted]
  rw [hwithin.act]
  refine ⟨evs ++ own, ⟨?_, hwired.leave hold' hkey ho' hwithin.fair, fun k => ?_, fun k => ?_,
    fun m hmem hrequest => ?_, .passage p hp rfl hposted⟩, hposted⟩
  · have hall := hsection.trans hposts
    rwa [List.append_nil, hmessage] at hall
  · rw [List.filterMap_append, hsilent.2.1 k, List.append_nil, hleaves.outcomes k,
      hwithin.records k]
  · rw [hposted, List.countP_append, hsilent.2.2 k, Nat.add_zero, hleaves.faults k]
    have hfair := hwithin.fair
    cases hexit : p.result.2 with
    | publish next =>
        rw [hexit] at hfair
        simp [Exit.posts, Exit.isFault, List.countP_cons, tells_of_publish hfair.2]
    | fault error =>
        rw [hexit] at hfair
        have hdead : Bus.faultOf p.message error = some (.fault p.message.key error.message) :=
          if_neg hfair
        simp [Exit.posts, Exit.isFault, hdead, List.countP_cons, Message.tells, Message.ends,
          Message.fault, Message.isTerminal]
    | done | record | call => simp [Exit.posts, Exit.isFault]
  · rw [hposted] at hmem
    have hfair := hwithin.fair
    cases hexit : p.result.2 with
    | publish next =>
        rw [hexit] at hmem hfair
        obtain rfl : m = next := by simpa [Exit.posts] using hmem
        exact absurd hrequest (not_isRequest_of_publish hfair.2)
    | fault error =>
        rw [hexit] at hmem hfair
        have hdead : Bus.faultOf p.message error = some (.fault p.message.key error.message) :=
          if_neg hfair
        obtain rfl : m = .fault p.message.key error.message := by
          simpa [Exit.posts, hdead] using hmem
        cases hrequest
    | done | record | call => simp [hexit, Exit.posts] at hmem

/-- A sweep that ends a case publishes one timeout. -/
theorem posts_visit_of_due (hopen : e.bus.isOpen) {sweep : Sweep} {key : CorrelationKey}
    {seen : Stage} (hold : e.tasks.get? t = some (.locking (.evict sweep key seen)))
    (hdue : e.Due sweep.startedAt key seen) :
    ∃ granted, (∀ ev ∈ granted, ev.isRoutine) ∧
      Posts e (e.visit t sweep key seen) []
        (.published (.failed key .timeout) :: .evicted key :: granted) := by
  rw [visit_of_due hdue]
  have hclose : Posts e (e.close key) [] [] := .of_eq rfl (by simp) rfl rfl
  have hlock := hclose.trans (.leaveLock _ t key)
  have hnote := hlock.trans (.note _ (show (Event.evicted key).message? = none from rfl))
  have hpublish : Posts e (e.expel t key) _ _ :=
    hnote.trans (.publish (.failed key .timeout) (by simpa using hopen))
  have htask : Posts (e.expel t key) ((e.expel t key).setTask t
      (.walking { sweep with evicted := sweep.evicted + 1 })) [] [] :=
    .moved (moved_insert rfl) rfl (by simp) rfl (by simp [hold, Task.message?])
  refine ⟨_, routine_granted ((e.close key).store.locks.heir? key t), ?_⟩
  simpa using hpublish.trans htask

theorem deals_visit (h : e.Wired) {sweep : Sweep} {key : CorrelationKey} {seen : Stage}
    (hold : e.tasks.get? t = some (.locking (.evict sweep key seen)))
    (ho : e.store.locks.owner? key = some t) :
    ∃ evs, e.Deals (.stride t) (e.visit t sweep key seen) [] evs := by
  by_cases hdue : e.Due sweep.startedAt key seen
  · have hvisit := visit_of_due hdue t
    have hm : Moved e (e.visit t sweep key seen) t
        (some (.walking { sweep with evicted := sweep.evicted + 1 })) := by
      rw [hvisit]
      exact moved_insert (by simp)
    have hwired : (e.visit t sweep key seen).Wired := by
      refine h.moved hm hold (.quit key ?_ rfl rfl) ?_ ?_ (by simp [Task.Placed])
      · simp [hvisit]
      · simp [hvisit]
      · simpa [hvisit, isOpen_publish] using h.isOpen
    obtain ⟨granted, hroutine, hposts⟩ := posts_visit_of_due h.isOpen hold hdue
    obtain ⟨hnone, houtcomes, hfaults⟩ := silent_of_routine hroutine
    have hposted : Event.posted (.published (.failed key .timeout) :: .evicted key :: granted) =
        [.failed key .timeout] := by
      simp [Event.message?, hnone]
    refine ⟨_, hposts, hwired, fun k => ?_, fun k => ?_, fun m hmem hrequest => ?_,
      .visit t sweep key seen hold ho hdue rfl rfl hposted⟩
    · exact congrArg List.length (houtcomes k)
    · rw [hposted]
      simp [Event.isFaultOf, hfaults k, List.countP_cons, Message.ends, Message.tells,
        Message.failed, Message.isTerminal]
    · rw [hposted] at hmem
      obtain rfl := List.mem_singleton.mp hmem
      cases hrequest
  · rw [visit_of_not_due hdue]
    have hm : Moved e ((e.leaveLock t key).setTask t (.walking sweep)) t (some (.walking sweep)) :=
      moved_insert (by simp)
    exact ⟨_, deals_of_moved h hm hold (.quit key (by simp) rfl rfl) (by simp) (by simp)
      (by simp [Task.Placed]) (by simp) (routine_granted (e.store.locks.heir? key t)) rfl
      (by simp [Task.call?]) (by simp) (by simp) _⟩

/-- A task that stands in no queue ends. -/
theorem deals_finish (h : e.Wired) {old : Task} (hold : e.tasks.get? t = some old)
    (hkey : old.key? = none) (hmessage : old.message? = none) (hhistory : e'.history = e.history)
    (hbus : e'.bus = e.bus) (htasks : e'.tasks = e.tasks) (hlocks : e'.store.locks = e.store.locks)
    (hnext : e'.nextTask = e.nextTask) (hcases : ∀ k, e'.store.get? k = e.store.get? k)
    (hrecords : ∀ k, e'.registry.records.get? k = e.registry.records.get? k) (f : Finish)
    (a : Action) : e.Deals a (e'.finish t f) [] [.finished t f] := by
  have hm : Moved e (e'.finish t f) t none := moved_erase (by simp [htasks])
  exact deals_of_moved h hm hold (.stay hlocks hkey.symm (by simp)) hnext hbus (by simp)
    (by simp [hhistory]) (by simp [Event.isRoutine]) (by simp [hmessage]) (by simp) hcases hrecords
    a

/-- A task that gives up its place in a queue, or at the head of it, ends. -/
theorem deals_drop (h : e.Wired) {old : Task} {key : CorrelationKey}
    (hold : e.tasks.get? t = some old) (hkey : old.key? = some key) (hmessage : old.message? = none)
    (f : Finish) (a : Action) : ∃ evs, e.Deals a ((e.leaveLock t key).finish t f) [] evs := by
  have hm : Moved e ((e.leaveLock t key).finish t f) t none := moved_erase (by simp)
  refine ⟨.finished t f :: (e.store.locks.heir? key t).toList.map Event.granted,
    deals_of_moved h hm hold (.quit key (by simp) hkey rfl) (by simp) (by simp)
      (by simp) (by simp) (fun ev hmem => ?_) (by simp [hmessage]) (by simp) (by simp) (by simp) a⟩
  rcases List.mem_cons.mp hmem with rfl | hmem
  · rfl
  · exact routine_granted _ ev hmem

/-- What changes neither tasks nor locks nor bus nor keys deals with no message. -/
theorem deals_of_eq (h : e.Wired) (hhistory : e'.history = e.history) (hbus : e'.bus = e.bus)
    (htasks : e'.tasks = e.tasks) (hlocks : e'.store.locks = e.store.locks)
    (hnext : e'.nextTask = e.nextTask) (hcases : ∀ k, e'.store.get? k = e.store.get? k)
    (hrecords : ∀ k, e'.registry.records.get? k = e.registry.records.get? k) (a : Action) :
    e.Deals a e' [] [] :=
  deals_of_routine (.of_eq hhistory (by simp) hbus htasks) (by simp)
    (h.congr htasks hlocks hnext (hbus ▸ h.isOpen)) hcases hrecords
    (fun t task hold _ => htasks ▸ hold) a

theorem Step.deals (h : e.Wired) (hs : e.Step a e') (hact : e' = e.act a) :
    ∃ handled evs, e.Deals a e' handled evs := by
  cases hs with
  | idle => exact ⟨_, _, deals_of_eq h rfl rfl rfl rfl rfl (fun _ => rfl) (fun _ => rfl) a⟩
  | submit r =>
      have hsilent : ∀ k, (Message.ofRequest r).tells k = false := by
        simp [Message.ofRequest, Message.tells]
      exact ⟨_, _, deals_publish h rfl hsilent fun _ => ⟨r, rfl, rfl⟩⟩
  | forward c key hkey =>
      have hsilent : ∀ k, (c.message key).tells k = false := by
        cases c <;> simp [Callback.message, Message.tells]
      have hnot : ¬ (c.message key).isRequest := by cases c <;> exact Bool.false_ne_true
      exact ⟨_, _, deals_publish h (isRegular_message c key).2 hsilent fun hrequest =>
        absurd hrequest hnot⟩
  | park n contract =>
      refine ⟨_, _, deals_of_eq h ?_ ?_ ?_ ?_ ?_ (fun _ => ?_) (fun _ => ?_) _⟩ <;> rfl
  | dispatch m rest hqueue => exact ⟨_, _, deals_dispatch h hqueue⟩
  | begin _ task hbegins =>
      obtain ⟨hkey, hcall, hmessage⟩ := Action.idle_of_begins? hbegins
      exact ⟨_, _, deals_spawn h a hkey hcall hmessage⟩
  | look t startedAt seen hold =>
      have hm : Moved e (e.lookAround t startedAt seen) t
        (some (.walking { startedAt, rest := seen })) := moved_insert rfl
      exact ⟨[], [], deals_of_moved h hm hold (.stay rfl rfl (by simp [Task.inside?])) rfl rfl
        (by simp [Task.Placed]) rfl (by simp) rfl (by simp [Task.call?]) (fun _ => rfl)
        (fun _ => rfl) _⟩
  | queueUp t old s hold hjoins =>
      have hm : Moved e (e.queueUp t s) t (some (.locking s)) := moved_insert rfl
      have hlocks : (e.queueUp t s).store.locks = e.store.locks.ask s.key t := rfl
      refine ⟨[], [], deals_of_moved h hm hold (.join _ s.key rfl hlocks hjoins.outside.1 rfl rfl)
        rfl rfl (fun task heq => ?_) rfl (by simp) ?_ (by simp [Task.call?]) (fun _ => rfl)
        (fun _ => rfl) _⟩
      · cases heq
        cases hjoins with
        | handle m hlock => exact hlock
        | evict | keep => exact trivial
      · cases hjoins <;> rfl
  | outcome t m hold hlock => exact ⟨_, deals_begin h hold hlock⟩
  | handle t m hold ho =>
      rw [hact]
      obtain ⟨evs, hdeals, -⟩ := deals_passage h (passage?_handle hold ho)
      exact ⟨_, evs, hdeals⟩
  | visit t sweep key seen hold ho => exact ⟨_, deals_visit h hold ho⟩
  | keep t key hold ho =>
      have hm : Moved e ((e.setTask t (.holding key)).note (.held t key)) t (some (.holding key)) :=
        moved_insert rfl
      refine ⟨[], [.held t key], deals_of_moved h hm hold (.stay rfl rfl fun k hin => ?_) rfl rfl
        (by simp [Task.Placed]) rfl (by simp [Event.isRoutine]) rfl (by simp [Task.call?])
        (fun _ => rfl) (fun _ => rfl) _⟩
      rw [← Option.some.inj hin]
      exact ho
  | finishSweep t sweep hold hrest =>
      refine ⟨_, _,
        deals_finish h hold rfl rfl ?_ ?_ ?_ ?_ ?_ (fun _ => ?_) (fun _ => ?_) _ _⟩ <;> rfl
  | listen t key deadline hold =>
      unfold lookForOutcome
      dsimp only
      split
      · refine ⟨_, _,
          deals_finish h hold rfl rfl ?_ ?_ ?_ ?_ ?_ (fun _ => ?_) (fun _ => ?_) _ _⟩ <;> rfl
      · refine ⟨_, _, deals_of_eq h ?_ ?_ ?_ ?_ ?_ (fun _ => ?_) (fun _ => ?_) _⟩ <;> rfl
  | offer t m asset provider answer hold =>
      rw [hact]
      obtain ⟨evs, hdeals, -⟩ := deals_passage h (passage?_offer hold answer)
      exact ⟨_, evs, hdeals⟩
  | negotiation t m asset provider offer answer hold =>
      rw [hact]
      obtain ⟨evs, hdeals, -⟩ := deals_passage h (passage?_negotiation hold answer)
      exact ⟨_, evs, hdeals⟩
  | transfer t m c request answer hold =>
      rw [hact]
      obtain ⟨evs, hdeals, -⟩ := deals_passage h (passage?_transfer hold answer)
      exact ⟨_, evs, hdeals⟩
  | take key =>
      refine ⟨_, _, deals_of_eq h ?_ ?_ ?_ ?_ ?_ (fun _ => ?_) (fun _ => ?_) _⟩ <;> rfl
  | letGo t key hold | leaveQueue t key hold => exact ⟨_, deals_drop h hold rfl rfl _ _⟩
  | neverMind t key hold =>
      exact ⟨_, _,
        deals_finish h hold rfl rfl rfl rfl rfl rfl rfl (fun _ => rfl) (fun _ => rfl) _ _⟩
  | pass span =>
      refine ⟨_, _, deals_of_eq h ?_ ?_ ?_ ?_ ?_ (fun _ => ?_) (fun _ => ?_) _⟩ <;> rfl

/-- What an action does to the mail of an engine whose tasks and locks are in order. -/
theorem act_deals (h : e.Wired) (a : Action) : ∃ handled evs, e.Deals a (e.act a) handled evs :=
  (e.act_step a).deals h rfl

end Engine

end Rendezvous
