import Rendezvous.Engine.Run

/-!
# Schedules

A host lets its tasks run one after the other, each as far as it can go.  Nothing promises a task
that much: between two of its strides anything may happen to the rest of the engine.  An `Action` is
one stride of a task, or something that comes from outside: a request, a callback, a service's
answer, a reader, a holder of a lock, the passing of time.  A schedule is a list of actions, and
`Engine.after` plays it.  Nothing restricts schedules, so what holds after every schedule holds
whatever the order in which tasks run.  An action that does not fit the state does nothing.

`run_eq_after` and `dispatch_eq_after` say that what a host does is a schedule, too.
-/

namespace Rendezvous

/-- One stride of a task, or something from outside. -/
inductive Action
  /-- A caller submits a request. -/
  | submit (r : DataRequest)
  /-- A service gives a notice by itself. -/
  | notify (c : Callback)
  /-- The bus hands its first message to a task of its own. -/
  | dispatch
  /-- A sweep is due. -/
  | beginSweep
  /-- A caller begins to wait for an outcome. -/
  | beginWait (key : CorrelationKey) (deadline : Nat)
  /-- Somebody outside wants the lock of a key. -/
  | beginHold (key : CorrelationKey)
  /-- The sweep `t`, begun at `startedAt`, looks which cases are expired; the store lists them in an
  order of its own, `seen`. -/
  | look (t : TaskId) (startedAt : Nat) (seen : List (CorrelationKey × Stage))
  /-- Task `t` goes on to the next point where it can be held up. -/
  | stride (t : TaskId)
  /-- A service answers the call of task `t`. -/
  | reply (t : TaskId) (r : Reply)
  /-- A caller reads and consumes an outcome. -/
  | take (key : CorrelationKey)
  /-- An outside holder gives its lock back. -/
  | letGo (t : TaskId)
  /-- Somebody outside no longer wants a lock. -/
  | cancel (t : TaskId)
  /-- Time passes. -/
  | pass (span : Nat)

namespace Engine

/-- The sweep `t`, which has not begun, began at `startedAt` and looks around. -/
def look (e : Engine) (t : TaskId) (startedAt : Nat) (seen : List (CorrelationKey × Stage)) :
    Engine :=
  match e.tasks.get? t with
  | some .sweeping =>
      if startedAt ≤ e.now ∧ seen.Perm (e.store.expired startedAt) then
        e.lookAround t startedAt seen
      else e
  | _ => e

/-- Drops a task that wants a lock for somebody outside. -/
def giveUp (e : Engine) (t : TaskId) : Engine :=
  match e.tasks.get? t with
  | some (.seeking _) | some (.locking (.keep _)) => e.cancel t
  | _ => e

/-- What an action does. -/
def act (e : Engine) : Action → Engine
  | .submit r => e.publish (.ofRequest r)
  | .notify c => (e.deliver c).1
  | .dispatch => e.dispatchNext
  | .beginSweep => (e.spawn .sweeping).2
  | .beginWait key deadline => (e.spawn (.awaiting key deadline)).2
  | .beginHold key => (e.spawn (.seeking key)).2
  | .look t startedAt seen => e.look t startedAt seen
  | .stride t => e.stride t
  | .reply t r => e.reply t r
  | .take key => (e.takeOutcome key).2
  | .letGo t => e.letGo t
  | .cancel t => e.giveUp t
  | .pass span => { e with now := e.now + span }

/-- The state after a schedule. -/
def after (e : Engine) (as : List Action) : Engine := as.foldl act e

@[simp] theorem after_nil (e : Engine) : e.after [] = e := rfl

@[simp] theorem after_cons (e : Engine) (a : Action) (as : List Action) :
    e.after (a :: as) = (e.act a).after as := rfl

theorem after_append (e : Engine) (as bs : List Action) :
    e.after (as ++ bs) = (e.after as).after bs := List.foldl_append

theorem after_concat (e : Engine) (as : List Action) (a : Action) :
    e.after (as ++ [a]) = (e.after as).act a := by
  rw [after_append, after_cons, after_nil]

/-! ## What a host does -/

/-- Doing an action again and again is a schedule. -/
theorem repeat_eq_after (a : Action) (n : Nat) (e : Engine) :
    Nat.repeat (act · a) n e = e.after (List.replicate n a) := by
  induction n with
  | zero => rfl
  | succ n ih =>
      rw [List.replicate_succ', after_append, ← ih]
      rfl

/-- The schedule of a task that goes on until it has to wait. -/
theorem goOn_eq_after (e : Engine) (t : TaskId) :
    ∃ n, e.goOn t = e.after (List.replicate n (.stride t)) := by
  unfold goOn
  cases e.tasks.get? t with
  | none => exact ⟨0, rfl⟩
  | some task => exact ⟨task.reach, repeat_eq_after (.stride t) task.reach e⟩

/-- Taking a task as far as it can go is a schedule: a look, if it is a sweep that has not begun,
and strides of the task. -/
theorem run_eq_after (e : Engine) (t : TaskId) :
    ∃ looks n, e.run t = e.after (looks ++ List.replicate n (.stride t)) ∧
      (looks = [] ∨ looks = [.look t e.now (e.store.expired e.now)]) := by
  unfold run
  split
  · rename_i hold
    obtain ⟨n, hn⟩ := goOn_eq_after (e.lookAround t e.now (e.store.expired e.now)) t
    have hlook : e.act (.look t e.now (e.store.expired e.now)) =
        e.lookAround t e.now (e.store.expired e.now) := by
      simp [act, look, hold]
    refine ⟨[.look t e.now (e.store.expired e.now)], n, ?_, .inr rfl⟩
    rw [hn, after_append, after_cons, after_nil, hlook]
  · obtain ⟨n, hn⟩ := goOn_eq_after e t
    exact ⟨[], n, hn, .inl rfl⟩

/-- Handing all queued messages out is a schedule. -/
theorem dispatch_eq_after (e : Engine) :
    e.dispatch = e.after (List.replicate e.bus.queue.length .dispatch) :=
  repeat_eq_after .dispatch e.bus.queue.length e

end Engine

end Rendezvous
