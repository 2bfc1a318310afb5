import Rendezvous.Proofs.Passages
import Rendezvous.Proofs.Postings
import Rendezvous.Proofs.Turns

/-!
# Tasks that nobody is in the way of

A host lets one task run at a time, and lets it run as far as it can go.  Where no lock is in use a
task gets every lock that it asks for, and nobody waits for it: `Undisturbed`.  A handler then runs
from its beginning to its end, and what it leaves behind is an undisturbed engine again.

* `Handles`: what the turn of a handler comes to, as far as tasks, locks and messages go;
* `Inside`: the same for a handler that has not come to its end;
* `Inside.leave_done`, `Inside.leave_publish`, `Inside.leave_call`: how a section is left;
* `run_of_needsLock`, `run_of_outcome`: the turn of a handler.
-/

namespace Rendezvous

namespace KeyLocks

variable {κ : Type} [DecidableEq κ] {l : KeyLocks κ} {k k' : κ} {t : TaskId}

theorem queue_of_free (h : l.queues.entries = []) (k : κ) : l.queue k = [] := by
  simp [queue, Assoc.get?, h, Assoc.lookupIn]

theorem ask_of_free (h : l.queues.entries = []) (k : κ) (t : TaskId) :
    (l.ask k t).queues.entries = [(k, [t])] := by
  simp [ask, queue_of_free h, setQueue, Assoc.insert, h, Assoc.insertIn]

theorem queue_of_held (h : l.queues.entries = [(k, [t])]) : l.queue k = [t] := by
  simp [queue, Assoc.get?, h, Assoc.lookupIn]

theorem owner?_of_held (h : l.queues.entries = [(k, [t])]) : l.owner? k = some t := by
  simp [owner?, queue_of_held h]

/-- Who gives a lock back that nobody waits for leaves all locks free. -/
theorem leave_of_held (h : l.queues.entries = [(k, [t])]) : (l.leave k t).queues.entries = [] := by
  simp [leave, queue_of_held h, setQueue, Assoc.erase, Assoc.keep, h]

theorem heir?_of_held (h : l.queues.entries = [(k, [t])]) : l.heir? k t = none := by
  simp [heir?, owner?, queue_of_free (leave_of_held h)]

end KeyLocks

/-- What the events amount to: the messages posted, and the outcomes recorded for each key. -/
structure Tells (evs : List Event) (posted : List Message) (told : CorrelationKey → List Outcome) :
    Prop where
  published : ∀ m ∈ posted, .published m ∈ evs
  wakes : evs.countP Event.wakes = posted.length
  outcomes : ∀ k, evs.filterMap (Event.outcome? k) = told k

namespace Tells

variable {evs evs' : List Event} {posted posted' : List Message}
variable {told told' : CorrelationKey → List Outcome}

theorem nil : Tells [] [] fun _ => [] := ⟨by simp, rfl, fun _ => rfl⟩

theorem append (h : Tells evs posted told) (h' : Tells evs' posted' told') :
    Tells (evs' ++ evs) (posted ++ posted') fun k => told' k ++ told k where
  published m hmem := by
    rcases List.mem_append.mp hmem with hmem | hmem
    · exact List.mem_append_right _ (h.published m hmem)
    · exact List.mem_append_left _ (h'.published m hmem)
  wakes := by
    rw [List.countP_append, h.wakes, h'.wakes, List.length_append, Nat.add_comm]
  outcomes k := by rw [List.filterMap_append, h.outcomes, h'.outcomes]

/-- Events that tell nothing may come later. -/
theorem quiet (h : Tells evs posted told) {ev : Event} (hwakes : ev.wakes = false)
    (hquiet : ∀ k, ev.outcome? k = none) : Tells (ev :: evs) posted told where
  published m hmem := List.mem_cons_of_mem ev (h.published m hmem)
  wakes := by rw [List.countP_cons, h.wakes, hwakes]; rfl
  outcomes k := by rw [List.filterMap_cons, hquiet k, h.outcomes]

theorem publish (h : Tells evs posted told) (m : Message) :
    Tells (.published m :: evs) (posted ++ [m]) told where
  published m' hmem := by
    rcases List.mem_append.mp hmem with hmem | hmem
    · exact List.mem_cons_of_mem _ (h.published m' hmem)
    · rw [List.mem_singleton.mp hmem]
      exact List.mem_cons_self
  wakes := by
    rw [List.countP_cons, h.wakes, List.length_append]
    rfl
  outcomes k := h.outcomes k

end Tells

namespace Engine

/-- No lock is in use. -/
def Free (e : Engine) : Prop := e.store.locks.queues.entries = []

/-- Task `t` owns the lock of `k`, nobody waits for it, and no other lock is in use. -/
def HeldBy (e : Engine) (k : CorrelationKey) (t : TaskId) : Prop :=
  e.store.locks.queues.entries = [(k, [t])]

/-- Nobody is in the way of anybody: no lock is in use, nobody listens, the bus is open and the
names of tasks to come are free. -/
structure Undisturbed (e : Engine) : Prop where
  free : e.Free
  isOpen : e.bus.isOpen
  listeners : e.board.listeners = []
  fresh : ∀ t, e.nextTask ≤ t → e.tasks.get? t = none

/-- From `e` to `e'` the task `gone?` ends and the messages `posted` are queued; no other task
moves, and nobody is in anybody's way afterwards. -/
structure Handles (e e' : Engine) (gone? : Option TaskId) (posted : List Message) : Prop where
  undisturbed : e'.Undisturbed
  now : e'.now = e.now
  destination : e'.destination = e.destination
  ttl : e'.store.ttl = e.store.ttl
  tasks : ∀ t, e'.tasks.get? t = if gone? = some t then none else e.tasks.get? t
  nextTask : e.nextTask ≤ e'.nextTask
  queue : e'.bus.queue = e.bus.queue ++ posted

/-- From `e` to `e'` the task `t` goes to the position `task` inside the section of `k`. -/
structure Inside (e e' : Engine) (t : TaskId) (k : CorrelationKey) (task : Task) : Prop where
  held : e'.HeldBy k t
  isOpen : e'.bus.isOpen
  listeners : e'.board.listeners = []
  now : e'.now = e.now
  destination : e'.destination = e.destination
  ttl : e'.store.ttl = e.store.ttl
  moved : Moved e e' t (some task)
  nextTask : e'.nextTask = e.nextTask
  queue : e'.bus.queue = e.bus.queue

variable {e e₁ : Engine} {t : TaskId} {m : Message} {r : Engine × Exit}

/-- The messages on their way when a handler has ended: its own no longer, those it posted too. -/
theorem Handles.mail {gone? : Option TaskId} {posted : List Message}
    (h : Handles e e₁ gone? posted) :
    (((gone?.bind e.tasks.get?).bind Task.message?).toList ++ e₁.mail).Perm
      (posted ++ e.mail) := by
  have hvalues : (((gone?.bind e.tasks.get?).bind Task.message?).toList ++
      e₁.tasks.values.filterMap Task.message?).Perm (e.tasks.values.filterMap Task.message?) := by
    cases gone? with
    | none =>
        refine (Assoc.values_perm fun t => ?_).filterMap _
        simpa using h.tasks t
    | some t =>
        have hsplit : ∀ task? : Option Task, task?.toList.filterMap Task.message? =
            (task?.bind Task.message?).toList := by
          intro task?
          cases task? with
          | none => rfl
          | some task => cases hmessage : task.message? <;> simp [hmessage]
        have hbefore := (e.tasks.values_perm_erase t).filterMap Task.message?
        rw [List.filterMap_append, hsplit] at hbefore
        have hrest : e₁.tasks.values.Perm (e.tasks.erase t).values :=
          Assoc.values_perm fun t' => by simp [h.tasks t', eq_comm]
        exact ((hrest.filterMap _).append_left _).trans hbefore.symm
  have hvalues := List.perm_iff_count.mp hvalues
  refine List.perm_iff_count.mpr fun m => ?_
  have hvalues := hvalues m
  unfold Engine.mail
  rw [h.queue]
  simp only [List.count_append] at hvalues ⊢
  omega

/-- What is written is in nobody's way. -/
theorem Undisturbed.blank (h : e.Undisturbed) : ({ e with history := [] } : Engine).Undisturbed :=
  ⟨h.free, h.isOpen, h.listeners, h.fresh⟩

theorem Handles.blank {gone? : Option TaskId} {posted : List Message}
    (h : Handles e e₁ gone? posted) : Handles e { e₁ with history := [] } gone? posted :=
  ⟨h.undisturbed.blank, h.now, h.destination, h.ttl, h.tasks, h.nextTask, h.queue⟩

theorem Inside.blank {k : CorrelationKey} {task : Task} (h : Inside e e₁ t k task) :
    Inside e { e₁ with history := [] } t k task :=
  ⟨h.held, h.isOpen, h.listeners, h.now, h.destination, h.ttl, ⟨h.moved.self, h.moved.others⟩,
    h.nextTask, h.queue⟩

/-- A task that asks for a lock gets it. -/
theorem Undisturbed.inside_queueUp (h : e.Undisturbed) (t : TaskId) (s : Section) :
    Inside e (e.queueUp t s) t s.key (.locking s) where
  held := KeyLocks.ask_of_free h.free s.key t
  isOpen := h.isOpen
  listeners := h.listeners
  now := rfl
  destination := rfl
  ttl := rfl
  moved := moved_insert rfl
  nextTask := rfl
  queue := rfl

section

variable {old : Task} (h : e.Undisturbed) (hi : Inside e e₁ t m.key old)
  (hc : Contained e₁ m.key r)

include h hi hc

theorem Inside.fresh {e' : Engine} (htasks : e'.tasks = r.1.tasks.erase t)
    (hnext : e'.nextTask = r.1.nextTask) (t' : TaskId) (hle : e'.nextTask ≤ t') :
    e'.tasks.get? t' = none := by
  rw [hnext, hc.nextTask, hi.nextTask] at hle
  rw [htasks, hc.tasks, Assoc.get?_erase]
  by_cases ht : t' = t
  · rw [if_pos ht]
  · rw [if_neg ht, hi.moved.others t' ht]
    exact h.fresh t' hle

omit h in
theorem Inside.gone {e' : Engine} (htasks : e'.tasks = r.1.tasks.erase t) (t' : TaskId) :
    e'.tasks.get? t' = if some t = some t' then none else e.tasks.get? t' := by
  rw [htasks, hc.tasks, Assoc.get?_erase]
  by_cases ht : t' = t
  · simp [ht]
  · rw [if_neg ht, if_neg (by simpa using Ne.symm ht), hi.moved.others t' ht]

theorem Inside.leave_done : Handles e (r.1.leave t m .done) (some t) [] := by
  have hheld : r.1.HeldBy m.key t := by
    unfold HeldBy
    rw [hc.locks]
    exact hi.held
  have htasks : (r.1.leave t m .done).tasks = r.1.tasks.erase t := by
    simp [Engine.leave_done]
  have hnext : (r.1.leave t m .done).nextTask = r.1.nextTask := by simp [Engine.leave_done]
  refine ⟨⟨?_, ?_, ?_, hi.fresh h hc htasks hnext⟩, ?_, ?_, ?_, hi.gone hc htasks, ?_, ?_⟩
  · simpa [Engine.leave_done, Free] using KeyLocks.leave_of_held hheld
  · simp [Engine.leave_done, hc.bus, hi.isOpen]
  · simp [Engine.leave_done, hc.board, hi.listeners]
  · simp [Engine.leave_done, hc.now, hi.now]
  · simp [Engine.leave_done, hc.destination, hi.destination]
  · simp [Engine.leave_done, hc.ttl, hi.ttl]
  · exact Nat.le_of_eq (hnext.trans (hc.nextTask.trans hi.nextTask)).symm
  · simp [Engine.leave_done, hc.bus, hi.queue]

theorem Inside.leave_publish (next : Message) :
    Handles e (r.1.leave t m (.publish next)) (some t) [next] := by
  have hheld : r.1.HeldBy m.key t := by
    unfold HeldBy
    rw [hc.locks]
    exact hi.held
  have hopen : r.1.bus.isOpen := by rw [hc.bus]; exact hi.isOpen
  have hleave := Engine.leave_publish t m next hopen
  have htasks : (r.1.leave t m (.publish next)).tasks = r.1.tasks.erase t := by simp [hleave]
  have hnext : (r.1.leave t m (.publish next)).nextTask = r.1.nextTask := by simp [hleave]
  refine ⟨⟨?_, ?_, ?_, hi.fresh h hc htasks hnext⟩, ?_, ?_, ?_, hi.gone hc htasks, ?_, ?_⟩
  · simpa [hleave, Free] using KeyLocks.leave_of_held hheld
  · simp [hleave, isOpen_publish, hopen]
  · simp [hleave, hc.board, hi.listeners]
  · simp [hleave, hc.now, hi.now]
  · simp [hleave, hc.destination, hi.destination]
  · simp [hleave, hc.ttl, hi.ttl]
  · exact Nat.le_of_eq (hnext.trans (hc.nextTask.trans hi.nextTask)).symm
  · simp [hleave, Bus.publish, hc.bus, hi.isOpen, hi.queue]

omit h in
theorem Inside.leave_call {task : Task} {call : Call} (hcall : task.call? = some call) :
    Inside e (r.1.leave t m (.call task)) t m.key task := by
  rw [Engine.leave_call _ _ _ hcall]
  refine ⟨?_, ?_, ?_, ?_, ?_, ?_, ⟨by simp, fun t' ht => ?_⟩, ?_, ?_⟩
  · have hheld := hi.held
    unfold HeldBy at hheld ⊢
    simpa [hc.locks] using hheld
  · simp [hc.bus, hi.isOpen]
  · simp [hc.board, hi.listeners]
  · simp [hc.now, hi.now]
  · simp [hc.destination, hi.destination]
  · simp [hc.ttl, hi.ttl]
  · simp [Ne.symm ht, hc.tasks, hi.moved.others t' ht]
  · simp [hc.nextTask, hi.nextTask]
  · simp [hc.bus, hi.queue]

end

/-! ## What is written -/

section

variable {own : List Event} {told : CorrelationKey → List Outcome}

theorem tells_leave_done (h : e.HeldBy m.key t) (hown : Tells e.history [] told) :
    Tells (e.leave t m .done).history [] told := by
  have hhistory : (e.leave t m .done).history = .finished t .handled :: e.history := by
    simp [leave_done, KeyLocks.heir?_of_held h]
  rw [hhistory]
  exact hown.quiet rfl fun _ => rfl

theorem tells_leave_publish (h : e.HeldBy m.key t) (hopen : e.bus.isOpen) (next : Message)
    (hown : Tells e.history [] told) : Tells (e.leave t m (.publish next)).history [next] told := by
  have hhistory : (e.leave t m (.publish next)).history =
      .finished t .handled :: .published next :: e.history := by
    rw [leave_publish t m next hopen, publish_of_isOpen _ _ (by simpa using hopen)]
    simp [KeyLocks.heir?_of_held h]
  rw [hhistory]
  exact (hown.publish next).quiet rfl fun _ => rfl

theorem tells_leave_call (m : Message) {task : Task} {call : Call} (hcall : task.call? = some call)
    (hown : Tells e.history [] told) : Tells (e.leave t m (.call task)).history [] told := by
  rw [leave_call e t m hcall]
  exact hown.quiet rfl fun _ => rfl

/-- What a section itself writes tells nothing. -/
theorem Contained.tells {k : CorrelationKey} (hc : Contained e k r) (hblank : e.history = []) :
    Tells r.1.history [] fun _ => [] := by
  obtain ⟨evs, hnews, hown⟩ := hc.news
  rw [hblank, List.append_nil] at hnews
  rw [hnews]
  refine ⟨by simp, List.countP_eq_zero.mpr fun ev hmem => ?_,
    fun k' => List.filterMap_eq_nil_iff.mpr fun ev hmem => ?_⟩ <;>
  · rcases hown ev hmem with rfl | rfl <;> simp [Event.wakes, Event.outcome?]

end

/-! ## Turns of handlers -/

/-- A task that is handed a message runs through its section without a break. -/
theorem Undisturbed.run_of_needsLock (h : e.Undisturbed)
    (hold : e.tasks.get? t = some (.arriving m)) (hlock : m.needsLock) :
    e.run t = ((e.queueUp t (.handle m)).handle m).1.leave t m
      ((e.queueUp t (.handle m)).handle m).2 := by
  have hi := h.inside_queueUp t (.handle m)
  have hfirst : e.stride t = e.queueUp t (.handle m) := by simp [stride, hold, hlock]
  have howns : (e.queueUp t (.handle m)).owns t m.key := by
    exact decide_eq_true (KeyLocks.owner?_of_held hi.held)
  have hsecond : (e.queueUp t (.handle m)).stride t =
      ((e.queueUp t (.handle m)).handle m).1.leave t m ((e.queueUp t (.handle m)).handle m).2 := by
    simp [stride, hi.moved.self, Section.key, howns, enter]
  have hgo : e.run t = (e.stride t).stride t := by
    simp [run, goOn, hold, Task.reach, Nat.repeat]
  rw [hgo, hfirst, hsecond]

/-- An outcome comes to the board. -/
theorem run_of_outcome {key : CorrelationKey} {o : Outcome}
    (hold : e.tasks.get? t = some (.arriving (o.message key))) :
    e.run t = (e.record key o).finish t .handled := by
  have hlock : (o.message key).needsLock = false := by cases o <;> rfl
  have hfirst : e.stride t = (e.record key o).finish t .handled := by
    simp [stride, hold, hlock, begin_message]
  have hsecond : ((e.record key o).finish t .handled).stride t =
      (e.record key o).finish t .handled := by simp [stride]
  have hgo : e.run t = (e.stride t).stride t := by
    simp [run, goOn, hold, Task.reach, Nat.repeat]
  rw [hgo, hfirst, hsecond]

theorem Undisturbed.handles_outcome (h : e.Undisturbed) {key : CorrelationKey} {o : Outcome}
    (hold : e.tasks.get? t = some (.arriving (o.message key))) :
    Handles e (e.run t) (some t) [] := by
  rw [run_of_outcome hold]
  refine ⟨⟨?_, ?_, ?_, fun t' hle => ?_⟩, ?_, ?_, ?_, fun t' => ?_, ?_, ?_⟩
  · simpa [Free] using h.free
  · simpa using h.isOpen
  · simp [OutcomeBoard.record]
  · have hfresh := h.fresh t' (by simpa using hle)
    simp [hfresh]
  · simp
  · simp
  · simp
  · simp [eq_comm]
  · simp
  · simp

theorem Undisturbed.tells_outcome (h : e.Undisturbed) (hblank : e.history = [])
    {key : CorrelationKey} {o : Outcome}
    (hold : e.tasks.get? t = some (.arriving (o.message key))) :
    Tells (e.run t).history [] fun k => if key = k then [o] else [] := by
  have hhistory : (e.run t).history = [.finished t .handled, .recorded key o] := by
    rw [run_of_outcome hold]
    simp [h.listeners, hblank]
  rw [hhistory]
  refine ⟨by simp, rfl, fun k => ?_⟩
  by_cases hk : key = k <;> simp [Event.outcome?, List.filterMap_cons, hk]

/-- A task that is gone has nothing to do. -/
theorem run_of_gone (hgone : e.tasks.get? t = none) : e.run t = e := by
  simp [run, goOn, hgone]

/-- A published message waits in the queue. -/
theorem Undisturbed.handles_publish (h : e.Undisturbed) (m : Message) :
    Handles e (e.publish m) none [m] := by
  refine ⟨⟨?_, ?_, ?_, fun t' hle => ?_⟩, ?_, ?_, ?_, fun t' => ?_, ?_, ?_⟩
  · simpa [Free] using h.free
  · simpa [isOpen_publish] using h.isOpen
  · simpa using h.listeners
  · have hfresh := h.fresh t' (by simpa using hle)
    simp [hfresh]
  · simp
  · simp
  · simp
  · simp
  · simp
  · simp [Bus.publish, h.isOpen]

theorem tells_publish (hopen : e.bus.isOpen) (hblank : e.history = []) (m : Message) :
    Tells (e.publish m).history [m] fun _ => [] := by
  rw [publish_of_isOpen e m hopen]
  simpa [hblank] using Tells.nil.publish m

end Engine

end Rendezvous
