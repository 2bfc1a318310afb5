import Rendezvous.Proofs.Frames

/-!
# Tasks and the queues they stand in

The tasks of an engine and the queues of its locks are two books about the same thing.  `Orderly`
says that they agree: a task stands in the queue of a key exactly when its position says so, once
only, and whoever is inside the critical section of a key is at the head of its queue.

A task changes its position in one of three ways, and each keeps the books in order:

* `Orderly.move`: it stays in its queue, or out of every queue;
* `Orderly.join`: it goes to the end of a queue;
* `Orderly.quit`: it leaves its queue.

`Engine.callAt?` is the service call that is open under the lock of a key; each of the three lemmas
comes with one that says what becomes of it.
-/

namespace Rendezvous

/-- The key whose critical section a task has entered and not left. -/
def Task.inside? : Task → Option CorrelationKey
  | .resolving m .. | .negotiating m .. | .transferring m .. => some m.key
  | .holding key => some key
  | _ => none

theorem Task.key?_of_inside? {task : Task} {k : CorrelationKey} (h : task.inside? = some k) :
    task.key? = some k := by
  cases task <;> simp_all [Task.inside?, Task.key?]

/-- A call is made from inside. -/
theorem Task.inside?_eq_key? {task : Task} (h : task.call?.isSome) : task.inside? = task.key? := by
  cases task <;> simp_all [Task.call?, Task.inside?, Task.key?]

namespace KeyLocks

variable {κ : Type} [DecidableEq κ] (l : KeyLocks κ) (k k' : κ) (t : TaskId)

theorem owner?_ask :
    (l.ask k t).owner? k' = if k' = k then (l.owner? k).or (some t) else l.owner? k' := by
  by_cases h : k' = k
  · cases hq : l.queue k <;> simp [owner?, queue_ask, h, hq]
  · simp [owner?, queue_ask, h]

theorem owner?_leave_of_ne (h : k' ≠ k) : (l.leave k t).owner? k' = l.owner? k' := by
  simp [owner?, queue_leave, h]

/-- The owner stays when somebody behind it leaves. -/
theorem owner?_leave_of_not_owner (h : l.owner? k ≠ some t) :
    (l.leave k t).owner? k = l.owner? k := by
  cases hq : l.queue k with
  | nil => simp [owner?, queue_leave, hq]
  | cons head rest =>
      have hne : ¬ head = t := by simpa [owner?, hq] using h
      simp [owner?, queue_leave, hq, hne]

theorem mem_queue_of_owner? (h : l.owner? k = some t) : t ∈ l.queue k :=
  List.mem_of_mem_head? h

end KeyLocks

namespace Engine

/-- The books about tasks and the books about locks agree. -/
structure Orderly (e : Engine) : Prop where
  /-- The names of tasks to come are free. -/
  fresh : ∀ t, e.nextTask ≤ t → e.tasks.get? t = none
  /-- A task stands in the queue of a key exactly when its position says so. -/
  queued : ∀ t k, t ∈ e.store.locks.queue k ↔ (e.tasks.get? t).bind Task.key? = some k
  /-- Nobody stands twice in a queue. -/
  once : ∀ k, (e.store.locks.queue k).Nodup
  /-- Whoever is inside a critical section owns its lock. -/
  inside : ∀ t k, (e.tasks.get? t).bind Task.inside? = some k → e.store.locks.owner? k = some t

/-- The call that is open under the lock of `k`. -/
def callAt? (e : Engine) (k : CorrelationKey) : Option Task :=
  (e.store.locks.owner? k).bind fun t => (e.tasks.get? t).filter fun task => task.call?.isSome

/-- Task `t` is now at `position?`, and no other task has moved. -/
structure Moved (e e' : Engine) (t : TaskId) (position? : Option Task) : Prop where
  self : e'.tasks.get? t = position?
  others : ∀ t', t' ≠ t → e'.tasks.get? t' = e.tasks.get? t'

theorem moved_insert {e e' : Engine} {t : TaskId} {task : Task}
    (h : e'.tasks = e.tasks.insert t task) : Moved e e' t (some task) where
  self := by simp [h]
  others t' hne := by simp [h, Ne.symm hne]

theorem moved_erase {e e' : Engine} {t : TaskId} (h : e'.tasks = e.tasks.erase t) :
    Moved e e' t none where
  self := by simp [h]
  others t' hne := by simp [h, hne]

theorem callAt?_congr {e e' : Engine} (htasks : e'.tasks = e.tasks)
    (hlocks : e'.store.locks = e.store.locks) (k : CorrelationKey) :
    e'.callAt? k = e.callAt? k := by
  simp [callAt?, htasks, hlocks]

/-- A task that moves without owning the lock, before or after, does not touch its call. -/
theorem callAt?_of_not_owner {e e' : Engine} {t : TaskId} {position? : Option Task}
    (hm : Moved e e' t position?) {k : CorrelationKey}
    (howner : e'.store.locks.owner? k = e.store.locks.owner? k)
    (hne : e.store.locks.owner? k ≠ some t) : e'.callAt? k = e.callAt? k := by
  unfold callAt?
  rw [howner]
  cases ho : e.store.locks.owner? k with
  | none => rfl
  | some t' =>
      have ht : t' ≠ t := by
        rintro rfl
        exact hne ho
      simp [hm.others t' ht]

namespace Orderly

variable {e e' : Engine} {t : TaskId} {k : CorrelationKey}

theorem congr (h : Orderly e) (htasks : e'.tasks = e.tasks)
    (hlocks : e'.store.locks = e.store.locks) (hnext : e'.nextTask = e.nextTask) : Orderly e' where
  fresh t ht := by
    rw [htasks]
    exact h.fresh t (hnext ▸ ht)
  queued t k := by rw [htasks, hlocks, h.queued]
  once k := by rw [hlocks]; exact h.once k
  inside t k hin := by
    rw [htasks] at hin
    rw [hlocks]
    exact h.inside t k hin

/-- A task that has a position is not among those to come, so they stay free when it moves. -/
theorem fresh_moved (h : Orderly e) {position? : Option Task} (hm : Moved e e' t position?)
    (hnext : e'.nextTask = e.nextTask) {old : Task} (hold : e.tasks.get? t = some old)
    {t' : TaskId} (ht' : e'.nextTask ≤ t') : e'.tasks.get? t' = none := by
  rw [hnext] at ht'
  have hfree := h.fresh t' ht'
  have hne : t' ≠ t := by
    rintro rfl
    rw [hold] at hfree
    cases hfree
  rw [hm.others t' hne]
  exact hfree

theorem owner_position (h : Orderly e) (ho : e.store.locks.owner? k = some t) :
    ∃ task, e.tasks.get? t = some task ∧ task.key? = some k := by
  have hmem := (h.queued t k).mp (KeyLocks.mem_queue_of_owner? _ _ _ ho)
  exact Option.bind_eq_some_iff.mp hmem

theorem key?_of_owner (h : Orderly e) {task : Task} (ht : e.tasks.get? t = some task)
    (ho : e.store.locks.owner? k = some t) : task.key? = some k := by
  obtain ⟨task', ht', hkey⟩ := h.owner_position ho
  rw [ht] at ht'
  cases ht'
  exact hkey

theorem not_owner (h : Orderly e) {task : Task} (ht : e.tasks.get? t = some task)
    (hkey : task.key? ≠ some k) : e.store.locks.owner? k ≠ some t :=
  fun ho => hkey (h.key?_of_owner ht ho)

/-- Whoever owns the lock of its key owns no other. -/
theorem owner?_iff (h : Orderly e) {task : Task} (ht : e.tasks.get? t = some task)
    (hkey : task.key? = some k) (ho : e.store.locks.owner? k = some t) (k' : CorrelationKey) :
    e.store.locks.owner? k' = some t ↔ k' = k := by
  refine ⟨fun ho' => ?_, fun hk => hk ▸ ho⟩
  have hkey' := h.key?_of_owner ht ho'
  rw [hkey] at hkey'
  exact (Option.some.inj hkey').symm

theorem callAt?_eq_some (h : Orderly e) {task : Task} (ht : e.tasks.get? t = some task)
    (hcall : task.call?.isSome) (hkey : task.key? = some k) :
    e.store.locks.owner? k = some t ∧ e.callAt? k = some task := by
  have hin : (e.tasks.get? t).bind Task.inside? = some k := by
    rw [ht, Option.bind_some, Task.inside?_eq_key? hcall, hkey]
  have ho := h.inside t k hin
  exact ⟨ho, by simp [callAt?, ho, ht, Option.filter, hcall]⟩

/-- Whoever stands in a queue behind the owner makes no call. -/
theorem quiet_behind (h : Orderly e) (ho : e.store.locks.owner? k = some t) {t' : TaskId}
    (hmem : t' ∈ e.store.locks.queue k) (hne : t' ≠ t) :
    ((e.tasks.get? t').filter fun task => task.call?.isSome) = none := by
  obtain ⟨task, ht, hkey⟩ := Option.bind_eq_some_iff.mp ((h.queued t' k).mp hmem)
  rw [ht]
  refine Option.filter_eq_none_iff.mpr fun task' htask hcall => hne ?_
  cases htask
  have ho' := (h.callAt?_eq_some ht hcall hkey).1
  rw [ho] at ho'
  exact (Option.some.inj ho').symm

theorem callAt?_eq_none {task : Task} (ho : e.store.locks.owner? k = some t)
    (ht : e.tasks.get? t = some task) (hcall : task.call? = none) : e.callAt? k = none := by
  simp [callAt?, ho, ht, Option.filter, hcall]

/-! ## A task stays in its queue -/

theorem move (h : Orderly e) {position? : Option Task} (hm : Moved e e' t position?)
    (hlocks : e'.store.locks = e.store.locks) (hnext : e'.nextTask = e.nextTask)
    {old : Task} (hold : e.tasks.get? t = some old) (hkey : position?.bind Task.key? = old.key?)
    (hin : ∀ k, position?.bind Task.inside? = some k → e.store.locks.owner? k = some t) :
    Orderly e' where
  fresh t' ht' := h.fresh_moved hm hnext hold ht'
  queued t' k' := by
    rw [hlocks, h.queued]
    by_cases ht : t' = t
    · subst ht
      rw [hm.self, hold, hkey, Option.bind_some]
    · rw [hm.others t' ht]
  once k' := by rw [hlocks]; exact h.once k'
  inside t' k' hin' := by
    rw [hlocks]
    by_cases ht : t' = t
    · subst ht
      rw [hm.self] at hin'
      exact hin k' hin'
    · rw [hm.others t' ht] at hin'
      exact h.inside t' k' hin'

theorem callAt?_move {position? : Option Task} (hm : Moved e e' t position?)
    (hlocks : e'.store.locks = e.store.locks) (k : CorrelationKey) :
    e'.callAt? k =
      if e.store.locks.owner? k = some t then
        position?.filter fun task => task.call?.isSome
      else e.callAt? k := by
  by_cases ho : e.store.locks.owner? k = some t
  · simp [callAt?, hlocks, ho, hm.self]
  · rw [if_neg ho]
    exact callAt?_of_not_owner hm (by rw [hlocks]) ho

/-! ## A task joins a queue -/

theorem join (h : Orderly e) {new : Task} (hm : Moved e e' t (some new))
    (hlocks : e'.store.locks = e.store.locks.ask k t) (hnext : e'.nextTask = e.nextTask)
    {old : Task} (hold : e.tasks.get? t = some old) (hout : old.key? = none)
    (hkey : new.key? = some k) (hin : new.inside? = none) : Orderly e' where
  fresh t' ht' := h.fresh_moved hm hnext hold ht'
  queued t' k' := by
    rw [hlocks, KeyLocks.queue_ask]
    by_cases ht : t' = t
    · subst ht
      -- it stood in no queue, so the end of this one is its only place
      have hnot : ∀ k', t' ∉ e.store.locks.queue k' := by
        intro k' hmem
        rw [h.queued, hold, Option.bind_some, hout] at hmem
        exact absurd hmem (by simp)
      rw [hm.self, Option.bind_some, hkey]
      by_cases hk : k' = k
      · simp [hk]
      · simp [hk, hnot, Ne.symm hk]
    · rw [hm.others t' ht, ← h.queued]
      by_cases hk : k' = k
      · simp [hk, ht]
      · simp [hk]
  once k' := by
    rw [hlocks, KeyLocks.queue_ask]
    by_cases hk : k' = k
    · subst hk
      have hnot : t ∉ e.store.locks.queue k' := by
        rw [h.queued, hold, Option.bind_some, hout]
        simp
      simp only [if_true]
      exact List.nodup_append.mpr ⟨h.once k', by simp, by
        rintro a ha b hb rfl
        exact hnot (by simpa [List.mem_singleton.mp hb] using ha)⟩
    · simpa [hk] using h.once k'
  inside t' k' hin' := by
    by_cases ht : t' = t
    · subst ht
      rw [hm.self, Option.bind_some, hin] at hin'
      exact absurd hin' (by simp)
    · rw [hm.others t' ht] at hin'
      rw [hlocks, KeyLocks.owner?_ask]
      have ho := h.inside t' k' hin'
      by_cases hk : k' = k
      · subst hk
        simp [ho]
      · simpa [hk] using ho

theorem callAt?_join (h : Orderly e) {new : Task} (hm : Moved e e' t (some new))
    (hlocks : e'.store.locks = e.store.locks.ask k t)
    {old : Task} (hold : e.tasks.get? t = some old) (hout : old.key? = none)
    (hcall : new.call? = none) (k' : CorrelationKey) : e'.callAt? k' = e.callAt? k' := by
  have hstranger : e.store.locks.owner? k' ≠ some t := h.not_owner hold (by simp [hout])
  by_cases hfree : k' = k ∧ e.store.locks.owner? k = none
  · -- the lock was free: `t` owns it now, but only waits to enter
    obtain ⟨rfl, hnone⟩ := hfree
    simp [callAt?, hlocks, KeyLocks.owner?_ask, hnone, hm.self, Option.filter, hcall]
  · refine callAt?_of_not_owner hm ?_ hstranger
    rw [hlocks, KeyLocks.owner?_ask]
    by_cases hk : k' = k
    · subst hk
      cases ho : e.store.locks.owner? k' with
      | none => exact absurd ⟨rfl, ho⟩ hfree
      | some t' => simp
    · rw [if_neg hk]

/-! ## A task leaves its queue -/

theorem quit (h : Orderly e) {position? : Option Task} (hm : Moved e e' t position?)
    (hlocks : e'.store.locks = e.store.locks.leave k t) (hnext : e'.nextTask = e.nextTask)
    {old : Task} (hold : e.tasks.get? t = some old) (hkey : old.key? = some k)
    (hout : position?.bind Task.key? = none) : Orderly e' where
  fresh t' ht' := h.fresh_moved hm hnext hold ht'
  queued t' k' := by
    rw [hlocks, KeyLocks.queue_leave]
    by_cases ht : t' = t
    · subst ht
      rw [hm.self, hout]
      by_cases hk : k' = k
      · subst hk
        simp [(h.once k').mem_erase_iff]
      · have hnot : t' ∉ e.store.locks.queue k' := by
          rw [h.queued, hold, Option.bind_some, hkey]
          simpa using Ne.symm hk
        simp [hk, hnot]
    · rw [hm.others t' ht, ← h.queued]
      by_cases hk : k' = k
      · simp [hk, ht]
      · simp [hk]
  once k' := by
    rw [hlocks, KeyLocks.queue_leave]
    by_cases hk : k' = k
    · simpa [hk] using (h.once k).erase t
    · simpa [hk] using h.once k'
  inside t' k' hin' := by
    -- `t` is inside nothing any more, so it is somebody else who owns its lock
    have ht : t' ≠ t := by
      rintro rfl
      obtain ⟨task, hpos, hin⟩ := Option.bind_eq_some_iff.mp (hm.self ▸ hin')
      rw [hpos, Option.bind_some, Task.key?_of_inside? hin] at hout
      exact absurd hout (by simp)
    rw [hm.others t' ht] at hin'
    have ho := h.inside t' k' hin'
    rw [hlocks]
    by_cases hk : k' = k
    · subst hk
      rw [KeyLocks.owner?_leave_of_not_owner _ _ _ (by rw [ho]; simpa using ht), ho]
    · rw [KeyLocks.owner?_leave_of_ne _ _ _ _ hk, ho]

theorem callAt?_quit (h : Orderly e) {position? : Option Task} (hm : Moved e e' t position?)
    (hlocks : e'.store.locks = e.store.locks.leave k t)
    {old : Task} (hold : e.tasks.get? t = some old) (hkey : old.key? = some k)
    (k' : CorrelationKey) :
    e'.callAt? k' =
      if e.store.locks.owner? k' = some t then none else e.callAt? k' := by
  by_cases ho : e.store.locks.owner? k' = some t
  · obtain rfl : k = k' := by
      have hkey' := h.key?_of_owner hold ho
      rw [hkey] at hkey'
      exact Option.some.inj hkey'
    rw [if_pos ho]
    unfold callAt?
    cases hnext : e'.store.locks.owner? k with
    | none => rfl
    | some t' =>
        have hmem := KeyLocks.mem_queue_of_owner? _ _ _ hnext
        rw [hlocks, KeyLocks.queue_leave, if_pos rfl, (h.once k).mem_erase_iff] at hmem
        rw [Option.bind_some, hm.others t' hmem.1]
        exact h.quiet_behind ho hmem.2 hmem.1
  · rw [if_neg ho]
    refine callAt?_of_not_owner hm ?_ ho
    rw [hlocks]
    by_cases hk : k' = k
    · subst hk
      exact KeyLocks.owner?_leave_of_not_owner _ _ _ ho
    · exact KeyLocks.owner?_leave_of_ne _ _ _ _ hk

/-! ## A task begins -/

theorem begin (h : Orderly e) {new : Task} (hm : Moved e e' e.nextTask (some new))
    (hlocks : e'.store.locks = e.store.locks) (hnext : e'.nextTask = e.nextTask + 1)
    (hout : new.key? = none) : Orderly e' where
  fresh t' ht' := by
    rw [hnext] at ht'
    rw [hm.others t' (Nat.ne_of_gt ht')]
    exact h.fresh t' (Nat.le_of_lt ht')
  queued t' k' := by
    rw [hlocks, h.queued]
    by_cases ht : t' = e.nextTask
    · subst ht
      rw [hm.self, h.fresh _ (Nat.le_refl _), Option.bind_some, hout]
      simp
    · rw [hm.others t' ht]
  once k' := by rw [hlocks]; exact h.once k'
  inside t' k' hin' := by
    rw [hlocks]
    by_cases ht : t' = e.nextTask
    · subst ht
      rw [hm.self, Option.bind_some] at hin'
      rw [Task.key?_of_inside? hin'] at hout
      exact absurd hout (by simp)
    · rw [hm.others t' ht] at hin'
      exact h.inside t' k' hin'

theorem callAt?_begin (h : Orderly e) {new : Task} (hm : Moved e e' e.nextTask (some new))
    (hlocks : e'.store.locks = e.store.locks) (k : CorrelationKey) :
    e'.callAt? k = e.callAt? k := by
  rw [callAt?_move hm hlocks, if_neg]
  intro ho
  obtain ⟨task, ht, _⟩ := h.owner_position ho
  rw [h.fresh _ (Nat.le_refl _)] at ht
  exact absurd ht (by simp)

end Orderly

end Engine

end Rendezvous
