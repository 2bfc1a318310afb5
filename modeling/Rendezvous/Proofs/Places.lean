import Rendezvous.Proofs.Handlers

/-!
# Where tasks stay

An action moves one task, or begins one.  `get?_tasks_act` says that every other task stays where it
is, whatever the action, so that the progress of one task can be followed through a schedule.
-/

namespace Rendezvous

/-- The task that an action lets go on. -/
def Action.task? : Action → Option TaskId
  | .look t .. | .stride t | .reply t _ | .letGo t | .cancel t => some t
  | _ => none

namespace Engine

variable {e : Engine} {t : TaskId}

/-- From `e` to `e'` no task but `t` has moved, and none has begun. -/
structure Alone (e e' : Engine) (t : TaskId) : Prop where
  others : ∀ t', t' ≠ t → e'.tasks.get? t' = e.tasks.get? t'
  nextTask : e'.nextTask = e.nextTask

namespace Alone

variable {e' e'' : Engine}

theorem refl (e : Engine) (t : TaskId) : Alone e e t := ⟨fun _ _ => rfl, rfl⟩

theorem same (h : Alone e e' t) (htasks : e''.tasks = e'.tasks)
    (hnext : e''.nextTask = e'.nextTask) : Alone e e'' t :=
  ⟨fun t' ht => by rw [htasks, h.others t' ht], hnext.trans h.nextTask⟩

theorem finish (h : Alone e e' t) (f : Finish) : Alone e (e'.finish t f) t :=
  ⟨fun t' ht => by simp [ht, h.others t' ht], h.nextTask⟩

theorem setTask (h : Alone e e' t) (task : Task) : Alone e (e'.setTask t task) t :=
  ⟨fun t' ht => by simp [Ne.symm ht, h.others t' ht], h.nextTask⟩

theorem finishHandler (h : Alone e e' t) (m : Message) (error? : Option EngineError) :
    Alone e (e'.finishHandler t m error?) t := by
  cases error? with
  | none => exact h.finish _
  | some error =>
      unfold Engine.finishHandler
      dsimp only
      cases Bus.faultOf m error with
      | none => exact (h.same (by simp) (by simp)).finish _
      | some dead => exact (h.same (by simp) (by simp)).finish _

theorem leave (h : Alone e e' t) (m : Message) (exit : Exit) :
    Alone e (e'.leave t m exit) t := by
  have hlock : Alone e (e'.leaveLock t m.key) t := h.same (by simp) (by simp)
  cases exit with
  | done => exact hlock.finishHandler m none
  | publish next =>
      have hnext : Alone e ((e'.leaveLock t m.key).publish next) t := hlock.same (by simp) (by simp)
      exact hnext.finishHandler m _
  | record o =>
      have hrecord : Alone e ((e'.leaveLock t m.key).record m.key o) t :=
        hlock.same (by simp) (by simp)
      exact hrecord.finishHandler m none
  | fault error => exact hlock.finishHandler m (some error)
  | call task =>
      unfold Engine.leave
      dsimp only
      cases task.call? with
      | none => exact h.setTask task
      | some call => exact (h.setTask task).same rfl rfl

theorem contained {k : CorrelationKey} {r : Engine × Exit} (h : Contained e k r) (t : TaskId) :
    Alone e r.1 t :=
  (refl e t).same h.tasks h.nextTask

end Alone

theorem alone_begin (e : Engine) (t : TaskId) (m : Message) : Alone e (e.begin t m) t := by
  have hrecord : ∀ o, Alone e (e.record m.key o) t := fun o =>
    (Alone.refl e t).same (by simp) (by simp)
  unfold begin
  split
  · exact (hrecord _).finishHandler m none
  · exact (hrecord _).finishHandler m none
  · exact (hrecord _).finishHandler m none
  · exact (Alone.refl e t).finishHandler m none

theorem alone_visit (e : Engine) (t : TaskId) (sweep : Sweep) (key : CorrelationKey)
    (seen : Stage) : Alone e (e.visit t sweep key seen) t := by
  have hevict : Alone e (e.evict t sweep.startedAt key seen).2 t := by
    unfold evict
    cases e.store.get? key with
    | none => exact (Alone.refl e t).same (by simp) (by simp)
    | some c =>
        dsimp only
        split
        · exact (Alone.refl e t).same (by simp) (by simp)
        · exact (Alone.refl e t).same (by simp) (by simp)
  unfold visit
  exact hevict.setTask _

theorem alone_lookForOutcome (e : Engine) (t : TaskId) (key : CorrelationKey) (deadline : Nat) :
    Alone e (e.lookForOutcome t key deadline) t := by
  unfold lookForOutcome
  dsimp only
  split
  · refine Alone.finish ((Alone.refl e t).same ?_ ?_) _ <;> rfl
  · exact (Alone.refl e t).same rfl rfl

theorem alone_finishSweep (e : Engine) (t : TaskId) (startedAt evicted : Nat) :
    Alone e (e.finishSweep t startedAt evicted) t := by
  unfold finishSweep
  refine Alone.finish ((Alone.refl e t).same ?_ ?_) _ <;> rfl

theorem alone_queueUp (e : Engine) (t : TaskId) (s : Section) : Alone e (e.queueUp t s) t := by
  have hask : Alone e (e.askLock t s.key) t := (Alone.refl e t).same rfl rfl
  exact hask.setTask _

theorem alone_drop (e : Engine) (t : TaskId) (key : CorrelationKey) (f : Finish) :
    Alone e ((e.leaveLock t key).finish t f) t := by
  have hlock : Alone e (e.leaveLock t key) t := (Alone.refl e t).same (by simp) (by simp)
  exact hlock.finish f

/-- A step of a task moves no other task, and a step of nobody moves none; at most one begins. -/
theorem Step.alone {e' : Engine} {a : Action} (hs : e.Step a e') :
    (∃ t, a.task? = some t ∧ Alone e e' t) ∨
      (e'.tasks = e.tasks ∧ e'.nextTask = e.nextTask) ∨
      ∃ task, e'.tasks = e.tasks.insert e.nextTask task ∧ e'.nextTask = e.nextTask + 1 := by
  cases hs with
  | idle | take | pass | park => exact .inr (.inl ⟨rfl, rfl⟩)
  | submit | forward => exact .inr (.inl ⟨by simp, by simp⟩)
  | dispatch | begin => exact .inr (.inr ⟨_, rfl, rfl⟩)
  | look t startedAt seen => exact .inl ⟨t, rfl, (Alone.refl e t).setTask _⟩
  | queueUp t old s => exact .inl ⟨t, rfl, alone_queueUp e t s⟩
  | outcome t m => exact .inl ⟨t, rfl, alone_begin e t m⟩
  | handle t m => exact .inl ⟨t, rfl, (Alone.contained (handle_contained e m) t).leave m _⟩
  | visit t sweep key seen => exact .inl ⟨t, rfl, alone_visit e t sweep key seen⟩
  | keep t key => exact .inl ⟨t, rfl, ((Alone.refl e t).setTask _).same rfl rfl⟩
  | finishSweep t sweep => exact .inl ⟨t, rfl, alone_finishSweep e t _ _⟩
  | listen t key deadline => exact .inl ⟨t, rfl, alone_lookForOutcome e t key deadline⟩
  | offer t m =>
      exact .inl ⟨t, rfl, (Alone.contained (onOffer_contained e m _ _ _) t).leave m _⟩
  | negotiation t m =>
      exact .inl ⟨t, rfl, (Alone.contained (onNegotiation_contained e m _ _ _ _) t).leave m _⟩
  | transfer t m =>
      exact .inl ⟨t, rfl, (Alone.contained (onTransfer_contained e m _ _ _) t).leave m _⟩
  | letGo t key | leaveQueue t key => exact .inl ⟨t, rfl, alone_drop e t key _⟩
  | neverMind t key => exact .inl ⟨t, rfl, (Alone.refl e t).finish _⟩

/-- A task stays where it is unless the action is its own. -/
theorem get?_tasks_act (ht : t < e.nextTask) {a : Action} (ha : a.task? ≠ some t) :
    (e.act a).tasks.get? t = e.tasks.get? t ∧ e.nextTask ≤ (e.act a).nextTask := by
  rcases (e.act_step a).alone with ⟨t', htask, halone⟩ | ⟨htasks, hnext⟩ | ⟨task, htasks, hnext⟩
  · have hne : t ≠ t' := fun heq => ha (heq ▸ htask)
    exact ⟨halone.others t hne, Nat.le_of_eq halone.nextTask.symm⟩
  · exact ⟨by rw [htasks], Nat.le_of_eq hnext.symm⟩
  · -- a task that begins takes a name that no task has had
    have hne : e.nextTask ≠ t := Nat.ne_of_gt ht
    exact ⟨by simp [htasks, hne], by simp [hnext]⟩

end Engine

end Rendezvous
