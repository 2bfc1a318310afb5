import Rendezvous.Proofs.Lobby
import Rendezvous.Proofs.Mail

/-!
# The lobby of an engine

The tasks of an engine that wait for outcomes are waits in a lobby: whatever the engine does, its
board and its waiting tasks are those of a lobby after some schedule.  So what holds of every lobby
holds of them.

* `Engine.Aside`: an action that is not about a waiting task changes none and gives them nothing;
* `Lobby.Serves`: a lobby has the board and the waits of an engine;
* `Lobby.exists_serves`: every reachable engine has such a lobby;
* `Lobby.delivers_each_outcome_once`: what becomes of the outcomes on the board.
-/

namespace Rendezvous

/-- The key and the deadline of a task that waits for an outcome. -/
def Task.wait? : Task → Option (CorrelationKey × Nat)
  | .awaiting key deadline => some (key, deadline)
  | _ => none

/-- The task that ended with what it has found on the board. -/
def Event.given? : Event → Option (TaskId × Option Outcome)
  | .finished t (.outcome o?) => some (t, o?)
  | _ => none

namespace Engine

variable {e e' : Engine} {t : TaskId}

/-- The wait of the task `t`. -/
def waitAt? (e : Engine) (t : TaskId) : Option (CorrelationKey × Nat) :=
  (e.tasks.get? t).bind Task.wait?

/-- What the tasks that waited have found, latest first. -/
def given (e : Engine) : List (TaskId × Option Outcome) := e.history.filterMap Event.given?

@[simp] theorem given_note (e : Engine) (ev : Event) :
    (e.note ev).given = ev.given?.toList ++ e.given :=
  view_of_cons rfl

@[simp] theorem given_finish (e : Engine) (t : TaskId) (f : Finish) :
    (e.finish t f).given = (Event.finished t f).given?.toList ++ e.given :=
  given_note _ _

@[simp] theorem given_publish (e : Engine) (m : Message) : (e.publish m).given = e.given := by
  unfold publish
  split
  · exact given_note _ _
  · rfl

@[simp] theorem given_leaveLock (e : Engine) (t : TaskId) (key : CorrelationKey) :
    (e.leaveLock t key).given = e.given :=
  view_of_silent (by simp [Event.given?]) (history_leaveLock e t key)

@[simp] theorem given_setTask (e : Engine) (t : TaskId) (task : Task) :
    (e.setTask t task).given = e.given := rfl

@[simp] theorem given_spawn (e : Engine) (task : Task) : (e.spawn task).2.given = e.given :=
  given_note _ _

@[simp] theorem given_record (e : Engine) (key : CorrelationKey) (o : Outcome) :
    (e.record key o).given = e.given := by
  have hhistory : (e.record key o).history =
      (e.board.listeners.reverse.map Event.notified ++ [.recorded key o]) ++ e.history := by simp
  refine view_of_silent (fun ev hmem => ?_) hhistory
  rcases List.mem_append.mp hmem with hwoken | hrecorded
  · obtain ⟨t, -, rfl⟩ := List.mem_map.mp hwoken
    rfl
  · rw [List.mem_singleton.mp hrecorded]
    rfl

/-! ## Actions that are not about waiting tasks -/

/-- From `e` to `e'` no wait has begun or ended. -/
structure Aside (e e' : Engine) : Prop where
  waits : ∀ t, e'.waitAt? t = e.waitAt? t
  given : e'.given = e.given
  nextTask : e.nextTask ≤ e'.nextTask

theorem aside_of_eq (htasks : e'.tasks = e.tasks) (hgiven : e'.given = e.given)
    (hnext : e'.nextTask = e.nextTask) : Aside e e' :=
  ⟨fun t => by rw [waitAt?, waitAt?, htasks], hgiven, Nat.le_of_eq hnext.symm⟩

/-- A task that does not wait moves, and does not wait then. -/
theorem aside_of_moved {old : Task} {position? : Option Task} (hold : e.tasks.get? t = some old)
    (hm : Moved e e' t position?) (hbefore : old.wait? = none)
    (hafter : position?.bind Task.wait? = none) (hgiven : e'.given = e.given)
    (hnext : e'.nextTask = e.nextTask) : Aside e e' := by
  refine ⟨fun t' => ?_, hgiven, Nat.le_of_eq hnext.symm⟩
  unfold waitAt?
  by_cases ht : t' = t
  · rw [ht, hm.self, hold, hafter, Option.bind_some, hbefore]
  · rw [hm.others t' ht]

/-- A task begins that does not wait. -/
theorem aside_spawn (h : Orderly e) (bus : Bus) {task : Task} (htask : task.wait? = none) :
    Aside e (({ e with bus } : Engine).spawn task).2 := by
  refine ⟨fun t => ?_, given_spawn _ _, Nat.le_succ _⟩
  unfold waitAt?
  simp only [spawn_frame, Assoc.get?_insert]
  split
  · rename_i ht
    rw [Option.bind_some, htask, ← ht, h.fresh _ (Nat.le_refl _)]
    rfl
  · rfl

/-- Who owns a lock does not wait for an outcome. -/
theorem wait?_eq_none_of_key? {task : Task} {key : CorrelationKey} (h : task.key? = some key) :
    task.wait? = none := by
  cases task <;> first | rfl | cases h

theorem aside_leave {cause : Cause} {m : Message} {r : Engine × Exit} (h : Sound e)
    (hr : Leaving e t cause m r) : Aside e (r.1.leave t m r.2) := by
  obtain ⟨old, hold, hkey, -⟩ := hr.position
  have hcontained := hr.contained
  have hbefore := wait?_eq_none_of_key? hkey
  have hgiven : r.1.given = e.given := by
    obtain ⟨evs, hhistory, hevs⟩ := hcontained.news
    refine view_of_silent (fun ev hmem => ?_) hhistory
    rcases hevs ev hmem with rfl | rfl <;> rfl
  have hopen : r.1.bus.isOpen := by
    rw [hcontained.bus]
    exact h.regular.isOpen
  have hproper := hr.proper
  cases hexit : r.2 with
  | done =>
      rw [leave_done]
      refine aside_of_moved hold (moved_erase ?_) hbefore rfl ?_ ?_
      · simp [hcontained.tasks]
      · simp [Event.given?, hgiven]
      · simp [hcontained.nextTask]
  | publish next =>
      rw [leave_publish t m next hopen]
      refine aside_of_moved hold (moved_erase ?_) hbefore rfl ?_ ?_
      · simp [hcontained.tasks]
      · simp [Event.given?, hgiven]
      · simp [hcontained.nextTask]
  | call task =>
      rw [hexit] at hproper
      obtain ⟨call, hcall⟩ := Option.isSome_iff_exists.mp hproper.2
      rw [leave_call _ t m hcall]
      refine aside_of_moved hold (moved_insert ?_) hbefore (wait?_eq_none_of_key? hproper.1) ?_ ?_
      · simp [hcontained.tasks]
      · simp [Event.given?, hgiven]
      · simp [hcontained.nextTask]
  | record o =>
      rw [hexit] at hproper
      exact hproper.elim
  | fault error =>
      rw [hexit] at hproper
      exact hproper.elim

theorem aside_visit {sweep : Sweep} {key : CorrelationKey} {seen : Stage}
    (hold : e.tasks.get? t = some (.locking (.evict sweep key seen))) :
    Aside e (e.visit t sweep key seen) := by
  by_cases hdue : e.Due sweep.startedAt key seen
  · rw [visit_of_due hdue]
    have hm : Moved e ((e.expel t key).setTask t
        (.walking { sweep with evicted := sweep.evicted + 1 })) t
        (some (.walking { sweep with evicted := sweep.evicted + 1 })) :=
      moved_insert (by simp)
    refine aside_of_moved hold hm rfl rfl ?_ ?_
    · have hclosed : (e.close key).given = e.given := rfl
      simp [expel, Event.given?, hclosed]
    · simp
  · rw [visit_of_not_due hdue]
    have hm : Moved e ((e.leaveLock t key).setTask t (.walking sweep)) t
        (some (.walking sweep)) := moved_insert (by simp)
    exact aside_of_moved hold hm rfl rfl (by simp) (by simp)

/-- What an action does to the board, and to the tasks that wait for outcomes. -/
inductive Boards (e : Engine) : Engine → Prop
  | same {e' : Engine} (haside : Aside e e') (hboard : e'.board = e.board)
      (hnow : e'.now = e.now) : Boards e e'
  | recorded {e' : Engine} (key : CorrelationKey) (o : Outcome) (haside : Aside e e')
      (hboard : e'.board = e.board.record e.now key o) (hnow : e'.now = e.now) : Boards e e'
  | taken {e' : Engine} (key : CorrelationKey) (haside : Aside e e')
      (hboard : e'.board = (e.board.take e.now key).2) (hnow : e'.now = e.now) : Boards e e'
  | purged {e' : Engine} (haside : Aside e e') (hboard : e'.board = (e.board.purge e.now).2)
      (hnow : e'.now = e.now) : Boards e e'
  | passed {e' : Engine} (span : Nat) (haside : Aside e e') (hboard : e'.board = e.board)
      (hnow : e'.now = e.now + span) : Boards e e'
  /-- A task begins to wait. -/
  | began (key : CorrelationKey) (deadline : Nat) :
      Boards e (e.spawn (.awaiting key deadline)).2
  /-- A task that waits looks for its outcome. -/
  | looked (t : TaskId) (key : CorrelationKey) (deadline : Nat)
      (hold : e.tasks.get? t = some (.awaiting key deadline)) :
      Boards e (e.lookForOutcome t key deadline)

theorem boards_leave {cause : Cause} {m : Message} {r : Engine × Exit} (h : Sound e)
    (hr : Leaving e t cause m r) : Boards e (r.1.leave t m r.2) :=
  .same (aside_leave h hr) (hr.board h) hr.now

theorem Step.boards {a : Action} (h : Sound e) (hs : e.Step a e') : Boards e e' := by
  cases hs with
  | idle => exact .same (aside_of_eq rfl rfl rfl) rfl rfl
  | submit | forward =>
      exact .same (aside_of_eq (by simp) (by simp) (by simp)) (by simp) (by simp)
  | park => exact .same (aside_of_eq rfl rfl rfl) rfl rfl
  | dispatch m rest => exact .same (aside_spawn h.orderly _ rfl) rfl rfl
  | begin _ task hbegins =>
      cases a with
      | beginWait key deadline =>
          cases hbegins
          exact .began key deadline
      | beginSweep | beginHold =>
          cases hbegins
          exact .same (aside_spawn h.orderly e.bus rfl) rfl rfl
      | _ => cases hbegins
  | look t startedAt seen hold =>
      have hm : Moved e (e.lookAround t startedAt seen) t (some (.walking _)) := moved_insert rfl
      exact .same (aside_of_moved hold hm rfl rfl rfl rfl) rfl rfl
  | queueUp t old s hold hjoins =>
      have hm : Moved e (e.queueUp t s) t (some (.locking s)) := moved_insert rfl
      have hbefore : old.wait? = none := by cases hjoins <;> rfl
      exact .same (aside_of_moved hold hm hbefore rfl rfl rfl) rfl rfl
  | outcome t m hold hlock =>
      have hregular := h.regular.tasks t m (by simp [hold, Task.message?])
      obtain ⟨o, ho⟩ := eq_message_of_isRegular hregular hlock
      rw [ho, begin_message]
      refine .recorded m.key o (aside_of_moved hold (moved_erase ?_) rfl rfl ?_ ?_) ?_ ?_
      · simp
      · simp [Event.given?]
      · simp
      · simp
      · simp
  | handle t m hold ho => exact boards_leave h (h.leaving_handle hold ho)
  | visit t sweep key seen hold =>
      refine .same (aside_visit hold) ?_ ?_
      · by_cases hdue : e.Due sweep.startedAt key seen
        · simp [visit_of_due hdue, expel]
        · simp [visit_of_not_due hdue]
      · by_cases hdue : e.Due sweep.startedAt key seen
        · simp [visit_of_due hdue]
        · simp [visit_of_not_due hdue]
  | keep t key hold =>
      have hm : Moved e ((e.setTask t (.holding key)).note (.held t key)) t
          (some (.holding key)) := moved_insert rfl
      exact .same (aside_of_moved hold hm rfl rfl (by simp [Event.given?]) rfl) rfl rfl
  | finishSweep t sweep hold =>
      exact .purged (aside_of_moved hold (moved_erase rfl) rfl rfl rfl rfl) rfl rfl
  | listen t key deadline hold => exact .looked t key deadline hold
  | offer t m asset provider answer hold => exact boards_leave h (h.leaving_offer hold answer)
  | negotiation t m asset provider offer answer hold =>
      exact boards_leave h (h.leaving_negotiation hold answer)
  | transfer t m c request answer hold => exact boards_leave h (h.leaving_transfer hold answer)
  | take key => exact .taken key (aside_of_eq rfl rfl rfl) rfl rfl
  | letGo t key hold | leaveQueue t key hold =>
      refine .same (aside_of_moved hold (moved_erase ?_) rfl rfl ?_ ?_) ?_ ?_
      · simp
      · simp [Event.given?]
      · simp
      · simp
      · simp
  | neverMind t key hold =>
      exact .same (aside_of_moved hold (moved_erase rfl) rfl rfl rfl rfl) rfl rfl
  | pass span => exact .passed span (aside_of_eq rfl rfl rfl) rfl rfl

end Engine

/-- The wait that ended, with what it has found. -/
def LobbyEvent.given? : LobbyEvent → Option (TaskId × Option Outcome)
  | .ended t _ _ o? => some (t, o?)
  | .posted .. | .taken .. | .began .. | .gaveUp _ => none

namespace Lobby

variable {l l' : Lobby} {e e' : Engine} {t : TaskId} {key : CorrelationKey} {deadline : Nat}

/-- What the waits have found, oldest first. -/
def given (l : Lobby) : List (TaskId × Option Outcome) := l.log.filterMap fun x => x.2.given?

/-- The lobby has the board and the waits of an engine, in which every step of a wait is made up to
the point where the wait begins, sleeps or is woken. -/
structure Serves (l : Lobby) (e : Engine) : Prop where
  now : l.now = e.now
  outcomes : l.board.outcomes = e.board.outcomes
  announced : l.unannounced = []
  nextWait : l.nextWait ≤ e.nextTask
  waits : ∀ t, e.waitAt? t = (l.waits.get? t).map fun w => (w.key, w.deadline)
  stages : ∀ t w, l.waits.get? t = some w → w.stage = .entering ∨
    (w.stage = .asleep ∧ (t ∈ l.board.listeners ↔ t ∈ e.board.listeners))
  given : l.given.reverse = e.given

theorem serves_empty (s : Settings) : Serves (.empty s.resultTtl) (.ofSettings s) where
  now := rfl
  outcomes := rfl
  announced := rfl
  nextWait := Nat.le_refl _
  waits t := rfl
  stages t w hw := by cases hw
  given := rfl

/-- Nothing has happened to the waits. -/
theorem Serves.aside (h : Serves l e) (haside : Engine.Aside e e') (hnow : l'.now = e'.now)
    (houtcomes : l'.board.outcomes = e'.board.outcomes) (hannounced : l'.unannounced = [])
    (hwaits : l'.waits = l.waits) (hnext : l'.nextWait = l.nextWait) (hgiven : l'.given = l.given)
    (hlisteners : ∀ t w, l.waits.get? t = some w → w.stage = .asleep →
      (t ∈ l.board.listeners ↔ t ∈ e.board.listeners) →
      (t ∈ l'.board.listeners ↔ t ∈ e'.board.listeners)) : Serves l' e' where
  now := hnow
  outcomes := houtcomes
  announced := hannounced
  nextWait := by
    rw [hnext]
    exact Nat.le_trans h.nextWait haside.nextTask
  waits t := by rw [haside.waits, hwaits, h.waits]
  stages t w hw := by
    rw [hwaits] at hw
    rcases h.stages t w hw with hentering | ⟨hasleep, hlistens⟩
    · exact .inl hentering
    · exact .inr ⟨hasleep, hlisteners t w hw hasleep hlistens⟩
  given := by rw [hgiven, h.given, haside.given]

/-- A wait ends with what it has found. -/
theorem Serves.finish (h : Serves l e) (o? : Option Outcome) (hnow : l'.now = l.now)
    (houtcomes : l'.board.outcomes = (l.board.outcomes.take l.now key).2)
    (hannounced : l'.unannounced = l.unannounced) (hnext : l'.nextWait = l.nextWait)
    (hwaits : ∀ t', l'.waits.get? t' = if t' = t then none else l.waits.get? t')
    (hlisteners : ∀ t', t' ≠ t → (t' ∈ l'.board.listeners ↔ t' ∈ l.board.listeners))
    (hlog : l'.log = l.log ++ [(l.now, .ended t key deadline o?)]) :
    Serves l'
      (({ e with board := (e.board.take e.now key).2.unlisten t } : Engine).finish t
        (.outcome o?)) where
  now := hnow.trans h.now
  outcomes := by
    rw [houtcomes, h.outcomes, h.now]
    rfl
  announced := hannounced.trans h.announced
  nextWait := hnext ▸ h.nextWait
  waits t' := by
    rw [hwaits]
    by_cases ht : t' = t
    · simp [Engine.waitAt?, ht]
    · rw [if_neg ht, ← h.waits]
      simp [Engine.waitAt?, ht]
  stages t' w hw := by
    rw [hwaits] at hw
    split at hw
    · cases hw
    · rename_i ht
      rcases h.stages t' w hw with hentering | ⟨hasleep, hlistens⟩
      · exact .inl hentering
      · refine .inr ⟨hasleep, ?_⟩
        rw [hlisteners t' ht, hlistens]
        simp [OutcomeBoard.unlisten, OutcomeBoard.take, ht]
  given := by
    have hgiven : l'.given = l.given ++ [(t, o?)] := view_of_concat hlog
    rw [hgiven, List.reverse_append, h.given]
    simp [Event.given?, Engine.given]

/-- A wait has found nothing and listens. -/
theorem Serves.listen (h : Serves l e) (hwait : e.waitAt? t = some (key, deadline))
    (hnow : l'.now = l.now)
    (houtcomes : l'.board.outcomes = (l.board.outcomes.take l.now key).2)
    (hannounced : l'.unannounced = l.unannounced) (hnext : l'.nextWait = l.nextWait)
    (hwaits : ∀ t', l'.waits.get? t' =
      if t' = t then some { key, deadline, stage := .asleep } else l.waits.get? t')
    (hlisteners : ∀ t', t' ≠ t → (t' ∈ l'.board.listeners ↔ t' ∈ l.board.listeners))
    (hlistens : t ∈ l'.board.listeners) (hgiven : l'.given = l.given) :
    Serves l' { e with board := (e.board.take e.now key).2.listen t } where
  now := hnow.trans h.now
  outcomes := by
    rw [houtcomes, h.outcomes, h.now]
    rfl
  announced := hannounced.trans h.announced
  nextWait := hnext ▸ h.nextWait
  waits t' := by
    rw [hwaits]
    by_cases ht : t' = t
    · subst ht
      rw [if_pos rfl]
      exact hwait
    · rw [if_neg ht]
      exact h.waits t'
  stages t' w hw := by
    rw [hwaits] at hw
    split at hw
    · rename_i ht
      cases hw
      exact .inr ⟨rfl, by simp [ht, hlistens, OutcomeBoard.listen]⟩
    · rename_i ht
      rcases h.stages t' w hw with hentering | ⟨hasleep, hlistens'⟩
      · exact .inl hentering
      · refine .inr ⟨hasleep, ?_⟩
        rw [hlisteners t' ht, hlistens']
        simp [OutcomeBoard.listen, OutcomeBoard.take, ht]
  given := hgiven ▸ h.given

/-! ## A look at one go -/

theorem stride_of_entering (hw : l.waits.get? t = some { key, deadline, stage := .entering }) :
    l.stride t =
      { l with
        board := l.board.listen t
        waits := l.waits.insert t { key, deadline, stage := .looking } } := by
  simp [stride, hw, goTo]

theorem stride_of_found {o : Outcome}
    (hw : l.waits.get? t = some { key, deadline, stage := .looking })
    (hread : l.readable? key = some o) :
    l.stride t =
      { l with
        board := ({ l.board with
          outcomes := (l.board.outcomes.take l.now key).2 } : OutcomeBoard).unlisten t
        waits := l.waits.erase t
        log := l.log ++ [(l.now, .ended t key deadline (some o))] } := by
  simp [stride, hw, takeOutcome_eq, hread, conclude, Lobby.note]

theorem stride_of_missed (hw : l.waits.get? t = some { key, deadline, stage := .looking })
    (hread : l.readable? key = none) :
    l.stride t =
      { l with
        board := { l.board with outcomes := (l.board.outcomes.take l.now key).2 }
        waits := l.waits.insert t { key, deadline, stage := .asleep } } := by
  simp [stride, hw, takeOutcome_eq, hread, goTo]

/-- A wait that begins, listens and finds nothing sleeps. -/
theorem stride_stride_of_missed (hw : l.waits.get? t = some { key, deadline, stage := .entering })
    (hread : l.readable? key = none) :
    (l.stride t).stride t =
      { l with
        board := { l.board.listen t with outcomes := (l.board.outcomes.take l.now key).2 }
        waits := (l.waits.insert t { key, deadline, stage := .looking }).insert t
          { key, deadline, stage := .asleep } } := by
  rw [stride_of_entering hw]
  exact stride_of_missed
    (l := { l with
      board := l.board.listen t
      waits := l.waits.insert t { key, deadline, stage := .looking } })
    (by simp) hread

theorem stride_of_woken (hw : l.waits.get? t = some { key, deadline, stage := .asleep })
    (hwoken : t ∉ l.board.listeners) :
    l.stride t = { l with waits := l.waits.insert t { key, deadline, stage := .entering } } := by
  simp [stride, hw, hwoken, goTo]

/-- A wait that sleeps beyond its deadline looks once more and ends. -/
theorem stride_stride_of_due (hw : l.waits.get? t = some { key, deadline, stage := .asleep })
    (hlistens : t ∈ l.board.listeners) (hdue : deadline ≤ l.now) :
    (l.stride t).stride t =
      { l with
        board := ({ l.board with
          outcomes := (l.board.outcomes.take l.now key).2 } : OutcomeBoard).unlisten t
        waits := (l.waits.insert t { key, deadline, stage := .leaving }).erase t
        log := l.log ++ [(l.now, .ended t key deadline (l.readable? key))] } := by
  have hleaving : l.stride t =
      { l with waits := l.waits.insert t { key, deadline, stage := .leaving } } := by
    simp [stride, hw, hlistens, hdue, goTo]
  rw [hleaving]
  simp [stride, takeOutcome_eq, conclude, Lobby.note, Lobby.readable?]

theorem lookForOutcome_eq (e : Engine) (t : TaskId) (key : CorrelationKey) (deadline : Nat) :
    e.lookForOutcome t key deadline =
      if (e.board.outcomes.peek? e.now key).isSome || deadline ≤ e.now then
        ({ e with board := (e.board.take e.now key).2.unlisten t } : Engine).finish t
          (.outcome (e.board.outcomes.peek? e.now key))
      else { e with board := (e.board.take e.now key).2.listen t } := rfl

theorem take_take (m : ExpiringMap CorrelationKey Outcome) (now : Nat) (key : CorrelationKey) :
    ((m.take now key).2.take now key).2 = (m.take now key).2 := by
  simp [ExpiringMap.take, Assoc.erase, Assoc.keep, List.filter_filter]

theorem Serves.waitAt? (h : Serves l e) {stage : WaitStage}
    (hw : l.waits.get? t = some { key, deadline, stage }) : e.waitAt? t = some (key, deadline) := by
  rw [h.waits, hw]
  rfl

theorem Serves.readable? (h : Serves l e) (key : CorrelationKey) :
    e.board.outcomes.peek? e.now key = l.readable? key := by
  rw [← h.outcomes, ← h.now]
  rfl

/-- A wait that sleeps and listens has no outcome, so a look changes nothing before its deadline. -/
theorem Serves.look_of_asleep (h : Serves l e)
    (hw : l.waits.get? t = some { key, deadline, stage := .asleep })
    (hlistens : t ∈ l.board.listeners) (hread : l.readable? key = none) :
    ∃ bs, Serves (l.after bs) (e.lookForOutcome t key deadline) := by
  rw [lookForOutcome_eq, h.readable?, hread]
  by_cases hdue : deadline ≤ e.now
  · refine ⟨[.stride t, .stride t], ?_⟩
    have hafter : l.after [.stride t, .stride t] = (l.stride t).stride t := rfl
    rw [if_pos (by simpa using hdue), hafter,
      stride_stride_of_due hw hlistens (h.now.symm ▸ hdue), hread]
    refine h.finish none rfl rfl rfl rfl (fun t' => ?_) (fun t' ht => ?_) rfl
    · by_cases ht : t' = t <;> simp [ht, Ne.symm]
    · simp [OutcomeBoard.unlisten, ht]
  · refine ⟨[.peek key], ?_⟩
    rw [if_neg (by simpa using hdue)]
    have hget : (l.board.outcomes.get l.now key).2 = (l.board.outcomes.take l.now key).2 := by
      have hpeek : l.board.outcomes.peek? l.now key = none := hread
      simp [ExpiringMap.get, ExpiringMap.take, hpeek]
    refine h.listen (h.waitAt? hw) rfl hget rfl rfl (fun t' => ?_) (fun _ _ => Iff.rfl) hlistens rfl
    by_cases ht : t' = t
    · rw [ht, if_pos rfl]
      exact hw
    · rw [if_neg ht]
      rfl

/-- A wait that begins, or begins again, listens and looks. -/
theorem Serves.look_of_entering (h : Serves l e)
    (hw : l.waits.get? t = some { key, deadline, stage := .entering }) :
    ∃ bs, Serves (l.after bs) (e.lookForOutcome t key deadline) := by
  have hlooking := stride_of_entering hw
  have hw₁ : (l.stride t).waits.get? t = some { key, deadline, stage := .looking } := by
    simp [hlooking]
  have hread₁ : (l.stride t).readable? key = l.readable? key := by
    rw [hlooking]
    rfl
  have htwo : l.after [.stride t, .stride t] = (l.stride t).stride t := rfl
  rw [lookForOutcome_eq, h.readable?]
  cases hread : l.readable? key with
  | some o =>
      refine ⟨[.stride t, .stride t], ?_⟩
      rw [if_pos (by simp), htwo, stride_of_found hw₁ (hread₁.trans hread), hlooking]
      refine h.finish (some o) rfl rfl rfl rfl (fun t' => ?_) (fun t' ht => ?_) rfl
      · by_cases ht : t' = t <;> simp [ht, Ne.symm]
      · simp [OutcomeBoard.unlisten, OutcomeBoard.listen, ht]
  | none =>
      have hmissed := stride_stride_of_missed hw hread
      generalize (l.stride t).stride t = l₂ at htwo hmissed
      have hnow : l₂.now = l.now := by rw [hmissed]
      have houtcomes : l₂.board.outcomes = (l.board.outcomes.take l.now key).2 := by rw [hmissed]
      have hw₂ : l₂.waits.get? t = some { key, deadline, stage := .asleep } := by simp [hmissed]
      have hlistens : t ∈ l₂.board.listeners := by simp [hmissed, OutcomeBoard.listen]
      have hlisteners : ∀ t', t' ≠ t → (t' ∈ l₂.board.listeners ↔ t' ∈ l.board.listeners) := by
        intro t' ht
        simp [hmissed, OutcomeBoard.listen, ht]
      by_cases hdue : deadline ≤ e.now
      · refine ⟨[.stride t, .stride t] ++ [.stride t, .stride t], ?_⟩
        have hfour : l₂.after [.stride t, .stride t] = (l₂.stride t).stride t := rfl
        have hread₂ : l₂.readable? key = none := by
          unfold Lobby.readable?
          rw [houtcomes, ExpiringMap.peek?_take, if_pos rfl]
        rw [if_pos (by simpa using hdue), after_append, htwo, hfour,
          stride_stride_of_due hw₂ hlistens (by rw [hnow, h.now]; exact hdue), hread₂]
        have hlog : l₂.log ++ [(l₂.now, .ended t key deadline none)] =
            l.log ++ [(l.now, .ended t key deadline none)] := by rw [hmissed]
        refine h.finish none hnow ?_ ?_ ?_ (fun t' => ?_) (fun t' ht => ?_) hlog
        · show (l₂.board.outcomes.take l₂.now key).2 = _
          rw [houtcomes, hnow, take_take]
        · rw [hmissed]
        · rw [hmissed]
        · by_cases ht : t' = t <;> simp [hmissed, ht, Ne.symm]
        · rw [← hlisteners t' ht]
          simp [OutcomeBoard.unlisten, ht]
      · refine ⟨[.stride t, .stride t], ?_⟩
        rw [if_neg (by simpa using hdue), htwo]
        refine h.listen (h.waitAt? hw) hnow houtcomes ?_ ?_ (fun t' => ?_) hlisteners hlistens ?_
        · rw [hmissed]
        · rw [hmissed]
        · by_cases ht : t' = t <;> simp [hmissed, ht, Ne.symm]
        · rw [hmissed]
          rfl

/-- What an engine does at one go when a task looks for its outcome, a wait does in steps. -/
theorem Serves.look (h : Serves l e) (halert : Alert l)
    (hold : e.tasks.get? t = some (.awaiting key deadline)) :
    ∃ bs, Serves (l.after bs) (e.lookForOutcome t key deadline) := by
  have hwait : e.waitAt? t = some (key, deadline) := by simp [Engine.waitAt?, hold, Task.wait?]
  obtain ⟨⟨key', deadline', stage⟩, hw, hsame⟩ : ∃ w, l.waits.get? t = some w ∧
      (w.key, w.deadline) = (key, deadline) :=
    Option.map_eq_some_iff.mp ((h.waits t).symm.trans hwait)
  cases hsame
  rcases h.stages t _ hw with rfl | ⟨rfl, -⟩
  · exact h.look_of_entering hw
  · by_cases hlistens : t ∈ l.board.listeners
    · refine h.look_of_asleep hw hlistens (Option.not_isSome_iff_eq_none.mp fun hsome => ?_)
      have hdue := halert t _ hw rfl hlistens hsome
      rw [h.announced] at hdue
      cases hdue
    · -- it was woken, and begins again
      have hwoken := stride_of_woken hw hlistens
      have hagain : Serves (l.stride t) e := by
        rw [hwoken]
        refine ⟨h.now, h.outcomes, h.announced, h.nextWait, fun t' => ?_, fun t' w hw' => ?_,
          h.given⟩
        · by_cases ht : t' = t
          · simp [ht, hwait]
          · simp [h.waits, Ne.symm ht]
        · simp only [Assoc.get?_insert] at hw'
          split at hw'
          · cases hw'
            exact .inl rfl
          · exact h.stages t' w hw'
      have hw' : (l.stride t).waits.get? t =
          some { key := key', deadline := deadline', stage := .entering } := by simp [hwoken]
      obtain ⟨bs, hbs⟩ := hagain.look_of_entering hw'
      exact ⟨.stride t :: bs, hbs⟩

/-! ## The lobby of an engine -/

/-- Whatever an action does to the board and the waits, a lobby can do. -/
theorem Serves.boards (h : Serves l e) (halert : Alert l) (hb : e.Boards e') :
    ∃ bs, Serves (l.after bs) e' := by
  cases hb with
  | same haside hboard hnow =>
      refine ⟨[], h.aside haside (h.now.trans hnow.symm) ?_ h.announced rfl rfl rfl ?_⟩
      · rw [hboard]
        exact h.outcomes
      · intro t w _ _ hlistens
        rw [hboard]
        exact hlistens
  | recorded key o haside hboard hnow =>
      refine ⟨[.post key o, .announce key], ?_⟩
      have hafter : l.after [.post key o, .announce key] =
          { l with
            board := (l.board.put l.now key o).wake
            unannounced := l.unannounced
            log := l.log ++ [(l.now, .posted key o)] } := by
        simp [after, act, Lobby.note]
      rw [hafter]
      refine h.aside haside (h.now.trans hnow.symm) ?_ h.announced rfl rfl ?_ ?_
      · rw [hboard, ← OutcomeBoard.record_eq, h.now]
        simp [OutcomeBoard.record, h.outcomes]
      · simp [Lobby.given, LobbyEvent.given?]
      · intro t w _ _ _
        rw [hboard]
        exact Iff.rfl
  | taken key haside hboard hnow =>
      have hlog : (l.after [.take key]).log = l.log ++ [(l.now, .taken key (l.readable? key))] :=
        rfl
      refine ⟨[.take key], h.aside haside (h.now.trans hnow.symm) ?_ h.announced rfl rfl ?_ ?_⟩
      · rw [hboard]
        show (l.board.outcomes.take l.now key).2 = (e.board.outcomes.take e.now key).2
        rw [h.outcomes, h.now]
      · exact (view_of_concat hlog).trans (List.append_nil _)
      · intro t w _ _ hlistens
        rw [hboard]
        exact hlistens
  | purged haside hboard hnow =>
      refine ⟨[.purge], h.aside haside (h.now.trans hnow.symm) ?_ h.announced rfl rfl rfl ?_⟩
      · rw [hboard]
        show (l.board.outcomes.purge l.now).2 = (e.board.outcomes.purge e.now).2
        rw [h.outcomes, h.now]
      · intro t w _ _ hlistens
        rw [hboard]
        exact hlistens
  | passed span haside hboard hnow =>
      refine ⟨[.pass span], h.aside haside ?_ ?_ h.announced rfl rfl rfl ?_⟩
      · rw [hnow, ← h.now]
        rfl
      · rw [hboard]
        exact h.outcomes
      · intro t w _ _ hlistens
        rw [hboard]
        exact hlistens
  | began key deadline =>
      refine ⟨[.beginWait e.nextTask key deadline], ?_⟩
      have hafter : l.after [.beginWait e.nextTask key deadline] =
          { l with
            waits := l.waits.insert e.nextTask { key, deadline }
            nextWait := e.nextTask + 1
            log := l.log ++ [(l.now, .began e.nextTask key deadline)] } := by
        simp [after, act, h.nextWait, Lobby.note]
      rw [hafter]
      refine ⟨h.now, h.outcomes, h.announced, Nat.le_refl _, fun t => ?_, fun t w hw => ?_, ?_⟩
      · by_cases ht : e.nextTask = t
        · simp [Engine.waitAt?, ht, Task.wait?]
        · have hold := h.waits t
          simpa [Engine.waitAt?, ht] using hold
      · simp only [Assoc.get?_insert] at hw
        split at hw
        · cases hw
          exact .inl rfl
        · exact h.stages t w hw
      · simpa [Lobby.given, LobbyEvent.given?] using h.given
  | looked t key deadline hold => exact h.look halert hold

/-- What holds of every reachable lobby. -/
structure Sound (ttl : Nat) (l : Lobby) : Prop where
  shown : Shown ttl l
  booked : Booked l
  alert : Alert l

theorem sound_after (ttl : Nat) (as : List LobbyAction) : Sound ttl ((empty ttl).after as) := by
  refine after_induction (fun l l' h hs => ?_) ?_ as
  · exact ⟨h.shown.step hs, h.booked.step hs, h.alert.step hs⟩
  · exact ⟨shown_empty ttl, booked_empty ttl, fun t w hw => by cases hw⟩

/-- Every reachable engine has a lobby. -/
theorem exists_serves (s : Settings) (as : List Action) :
    ∃ bs, Serves ((empty s.resultTtl).after bs) ((Engine.ofSettings s).after as) := by
  induction as using List.reverseRecOn with
  | nil => exact ⟨[], serves_empty s⟩
  | append_singleton as a ih =>
      obtain ⟨bs, hserves⟩ := ih
      have halert := (sound_after s.resultTtl bs).alert
      have hstep := ((Engine.ofSettings s).after as).act_step a
      obtain ⟨more, hmore⟩ := hserves.boards halert (hstep.boards (Engine.sound_after s as))
      refine ⟨bs ++ more, ?_⟩
      rw [after_append, Engine.after_concat]
      exact hmore

/-! ## What becomes of the outcomes -/

theorem fresh?_eq_some {ttl instant : Nat} {s : Option (Outcome × Nat)} {o : Outcome} :
    fresh? ttl instant s = some o ↔ ∃ since, s = some (o, since) ∧ age instant since < ttl := by
  unfold fresh?
  rw [Option.map_eq_some_iff]
  constructor
  · rintro ⟨⟨o', since⟩, hfilter, rfl⟩
    obtain ⟨hs, hage⟩ := Option.filter_eq_some_iff.mp hfilter
    exact ⟨since, hs, by simpa using hage⟩
  · rintro ⟨since, hs, hage⟩
    exact ⟨(o, since), Option.filter_eq_some_iff.mpr ⟨hs, by simpa using hage⟩, rfl⟩

/-- Let outcomes be put up and announced, taken, read and purged, let waits begin, make their steps,
be dropped, and let time pass, in any order.

* A reader, whether it waits or not, is given an outcome just if that was put up for its key less
  than the time to live ago and nothing was put up or given out for that key since.  So no outcome
  is given out twice, and none that is stale or was replaced.
* When nobody can go on by himself, no wait that is not finished has an outcome on the board, and
  the deadline of each is still to come.
* A wait that ends had begun for that key, and if it ends with nothing its deadline has come.
* A wait that has begun is there until it ends or its caller drops it.
* By announcements and steps of waits alone everybody comes to where he cannot go on.

An engine has the board and the waits of such a lobby, and its waits are given what those are given.
-/
theorem delivers_each_outcome_once :
    (∀ (ttl : Nat) (as : List LobbyAction),
      let l := (empty ttl).after as
      (∀ before instant ev rest, l.log = before ++ (instant, ev) :: rest →
        ∀ key o?, ev.answer? = some (key, o?) → ∀ o, o? = some o ↔
          ∃ older since mid, before = older ++ (since, .posted key o) :: mid ∧
            (∀ entry ∈ mid, entry.2.changes? ≠ some key) ∧ age instant since < ttl) ∧
      (l.Settled → ∀ t w, l.waits.get? t = some w →
        l.readable? w.key = none ∧ l.now < w.deadline) ∧
      (∀ instant t key deadline o?, (instant, .ended t key deadline o?) ∈ l.log →
        (∃ start, (start, .began t key deadline) ∈ l.log) ∧ (o? = none → deadline ≤ instant)) ∧
      (∀ start t key deadline, (start, .began t key deadline) ∈ l.log →
        (∃ stage, l.waits.get? t = some { key, deadline, stage }) ∨
        (∃ instant o?, (instant, .ended t key deadline o?) ∈ l.log) ∨
        ∃ instant, (instant, .gaveUp t) ∈ l.log) ∧
      ∃ bs, (∀ a ∈ bs, (∃ key, a = .announce key) ∨ ∃ t, a = .stride t) ∧
        (l.after bs).Settled) ∧
    ∀ (s : Settings) (as : List Action),
      let e := (Engine.ofSettings s).after as
      ∃ bs,
        let l := (empty s.resultTtl).after bs
        l.now = e.now ∧ l.board.outcomes = e.board.outcomes ∧ l.unannounced = [] ∧
        (∀ t, e.waitAt? t = (l.waits.get? t).map fun w => (w.key, w.deadline)) ∧
        l.given.reverse = e.given := by
  refine ⟨fun ttl as => ?_, fun s as => ?_⟩
  · intro l
    have h : Sound ttl l := sound_after ttl as
    refine ⟨fun before instant ev rest hlog key o? hanswer o => ?_, fun hsettled t w hw => ?_,
      h.booked.ended, h.booked.kept, l.exists_settled⟩
    · rw [h.shown.answers before (instant, ev) rest hlog key o? hanswer, fresh?_eq_some]
      constructor
      · rintro ⟨since, hstands, hage⟩
        obtain ⟨older, mid, hsplit, hmid⟩ := standing_eq_some.mp hstands
        exact ⟨older, since, mid, hsplit, hmid, hage⟩
      · rintro ⟨older, since, mid, hsplit, hmid, hage⟩
        exact ⟨since, standing_eq_some.mpr ⟨older, mid, hsplit, hmid⟩, hage⟩
    · obtain ⟨hannounced, hstill⟩ := settled_iff.mp hsettled
      obtain ⟨hstage, hlistens, hearly⟩ := asleep_of_strides_eq_zero (hstill t) hw
      refine ⟨Option.not_isSome_iff_eq_none.mp fun hread => ?_, hearly⟩
      have hdue := h.alert t w hw hstage hlistens hread
      rw [hannounced] at hdue
      cases hdue
  · obtain ⟨bs, hserves⟩ := exists_serves s as
    exact ⟨bs, hserves.now, hserves.outcomes, hserves.announced, hserves.waits, hserves.given⟩

/-- A record between the look and the sleep of a wait is not missed, and the wait that comes too
late for the outcome sleeps on until its deadline. -/
example :
    let key : CorrelationKey := { text := "k" }
    let o : Outcome := .error .timeout
    let l := (empty 10).after
      [.beginWait 0 key 5, .beginWait 1 key 5, .stride 0, .stride 0, .stride 1, .stride 1,
        .post key o, .announce key, .stride 0, .stride 0, .stride 0, .stride 1, .stride 1,
        .stride 1, .pass 5, .stride 1, .stride 1]
    l.given = [(0, some o), (1, none)] ∧ l.waits.keys = [] := by
  decide

end Lobby

end Rendezvous
