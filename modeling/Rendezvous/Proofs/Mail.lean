import Rendezvous.Proofs.Actions

/-!
# Where terminal messages are

A terminal message for a key is published once and then on its way until its handler records its
outcome.  `Engine.Delivered` says that the two books agree: up to order, the terminal messages
published are those still on their way and those whose outcomes are recorded.

The proof has one lemma for each operation of an engine, and composes them along the actions.
-/

namespace Rendezvous

/-! ## The books -/

/-- The message that brings the outcome `o` of `k` to the board. -/
def Outcome.message (k : CorrelationKey) : Outcome → Message
  | .success reference => { key := k, channel := .result, payload := .completed reference }
  | .error reason => .failed k reason

/-- Whether a message ends a request for `k`. -/
def Message.ends (k : CorrelationKey) (m : Message) : Bool := m.key = k ∧ m.isTerminal

/-- The outcome of `k` whose recording the event is. -/
def Event.outcome? (k : CorrelationKey) : Event → Option Outcome
  | .recorded key o => if key = k then some o else none
  | _ => none

/-- The terminal message for `k` that a task is about to handle. -/
def Task.letter? (k : CorrelationKey) (task : Task) : Option Message :=
  task.arriving?.filter (Message.ends k)

namespace Engine

/-- The outcomes recorded for `k`, latest first. -/
def outcomes (e : Engine) (k : CorrelationKey) : List Outcome :=
  e.history.filterMap (Event.outcome? k)

/-- The terminal messages for `k` that have a task which has not begun. -/
def letters (e : Engine) (k : CorrelationKey) : List Message :=
  e.tasks.values.filterMap (Task.letter? k)

/-- The terminal messages for `k` that are published and not yet handled. -/
def waiting (e : Engine) (k : CorrelationKey) : List Message :=
  e.bus.queue.filter (Message.ends k) ++ e.letters k

/-- Every terminal message published for `k` is on its way, or its outcome is recorded; and no other
outcome is. -/
def Delivered (e : Engine) (k : CorrelationKey) : Prop :=
  (e.terminals k).Perm (e.waiting k ++ (e.outcomes k).map (Outcome.message k))

variable {e e' : Engine} {t : TaskId} {k : CorrelationKey}

theorem delivered_iff_count :
    e.Delivered k ↔ ∀ m, (e.terminals k).count m =
      (e.bus.queue.filter (Message.ends k)).count m + (e.letters k).count m +
        ((e.outcomes k).map (Outcome.message k)).count m := by
  unfold Delivered waiting
  rw [List.perm_iff_count]
  simp only [List.count_append]

/-! ## What operations do to outcomes -/

@[simp] theorem outcomes_note (e : Engine) (ev : Event) (k : CorrelationKey) :
    (e.note ev).outcomes k = (ev.outcome? k).toList ++ e.outcomes k :=
  view_of_cons rfl

@[simp] theorem outcomes_publish (e : Engine) (m : Message) (k : CorrelationKey) :
    (e.publish m).outcomes k = e.outcomes k := by
  unfold publish
  split
  · exact outcomes_note _ _ _
  · rfl

@[simp] theorem outcomes_finish (e : Engine) (t : TaskId) (f : Finish) (k : CorrelationKey) :
    (e.finish t f).outcomes k = e.outcomes k :=
  outcomes_note _ _ _

@[simp] theorem outcomes_spawn (e : Engine) (task : Task) (k : CorrelationKey) :
    (e.spawn task).2.outcomes k = e.outcomes k :=
  outcomes_note _ _ _

@[simp] theorem outcomes_leaveLock (e : Engine) (t : TaskId) (key k : CorrelationKey) :
    (e.leaveLock t key).outcomes k = e.outcomes k :=
  view_of_silent (by simp [Event.outcome?]) (history_leaveLock e t key)

@[simp] theorem outcomes_record (e : Engine) (key : CorrelationKey) (o : Outcome)
    (k : CorrelationKey) :
    (e.record key o).outcomes k = if key = k then o :: e.outcomes k else e.outcomes k := by
  have hnotified : ∀ ts : List TaskId,
      (ts.map Event.notified).filterMap (Event.outcome? k) = [] := by
    intro ts
    simp [List.filterMap_map, Function.comp_def, Event.outcome?]
  unfold outcomes
  rw [(record_frame e key o).2.2.2.2.2.2.2.2.2.2, List.filterMap_append, hnotified]
  by_cases hk : key = k <;> simp [Event.outcome?, hk]

/-! ## What operations do to the books -/

/-- When one task moves, the letters of the others stay. -/
theorem letters_moved {position? : Option Task} (hm : Moved e e' t position?)
    (k : CorrelationKey) :
    ∃ rest, (e.letters k).Perm (((e.tasks.get? t).bind (Task.letter? k)).toList ++ rest) ∧
      (e'.letters k).Perm ((position?.bind (Task.letter? k)).toList ++ rest) := by
  -- the values of a map come in no particular order, hence a permutation
  have hothers : ((e'.tasks.erase t).values.filterMap (Task.letter? k)).Perm
      ((e.tasks.erase t).values.filterMap (Task.letter? k)) := by
    refine (Assoc.values_perm fun t' => ?_).filterMap _
    by_cases ht : t' = t
    · simp [ht]
    · simp [ht, hm.others t' ht]
  have hsplit : ∀ task? : Option Task, task?.toList.filterMap (Task.letter? k) =
      (task?.bind (Task.letter? k)).toList := by
    intro task?
    cases task? with
    | none => rfl
    | some task => cases hletter : task.letter? k <;> simp [hletter]
  refine ⟨(e.tasks.erase t).values.filterMap (Task.letter? k), ?_, ?_⟩
  · have hvalues := (e.tasks.values_perm_erase t).filterMap (Task.letter? k)
    rwa [List.filterMap_append, hsplit] at hvalues
  · have hvalues := (e'.tasks.values_perm_erase t).filterMap (Task.letter? k)
    rw [List.filterMap_append, hsplit, hm.self] at hvalues
    exact hvalues.trans (hothers.append_left _)

namespace Delivered

/-- What touches neither messages nor tasks nor the two views keeps the books. -/
theorem congr (h : e.Delivered k) (hqueue : e'.bus.queue = e.bus.queue)
    (htasks : e'.tasks = e.tasks) (hterminals : e'.terminals k = e.terminals k)
    (houtcomes : e'.outcomes k = e.outcomes k) : e'.Delivered k := by
  unfold Delivered waiting letters
  rw [hqueue, htasks, hterminals, houtcomes]
  exact h

/-- A task that carries no letter before or after moves freely. -/
theorem moved (h : e.Delivered k) {position? : Option Task} (hm : Moved e e' t position?)
    (hold : (e.tasks.get? t).bind (Task.letter? k) = none)
    (hnew : position?.bind (Task.letter? k) = none) (hqueue : e'.bus.queue = e.bus.queue)
    (hterminals : e'.terminals k = e.terminals k) (houtcomes : e'.outcomes k = e.outcomes k) :
    e'.Delivered k := by
  obtain ⟨rest, hletters, hletters'⟩ := letters_moved hm k
  rw [hold] at hletters
  rw [hnew] at hletters'
  rw [delivered_iff_count] at h ⊢
  intro m
  rw [hqueue, hterminals, houtcomes, hletters'.count_eq, h m, hletters.count_eq]

/-- A message that is published is on its way. -/
theorem publish (h : e.Delivered k) (m : Message) (hopen : e.bus.isOpen) :
    (e.publish m).Delivered k := by
  have hqueue : (e.publish m).bus.queue = e.bus.queue ++ [m] := by
    simp [Bus.publish, hopen]
  have hletters : (e.publish m).letters k = e.letters k := by simp [letters]
  rw [delivered_iff_count] at h ⊢
  intro m'
  rw [terminals_publish e m k hopen, hqueue, hletters, outcomes_publish, List.filter_append,
    List.count_append]
  have hbefore := h m'
  by_cases hends : m.key = k ∧ m.isTerminal
  · simp only [Message.ends, hends, and_self, if_true, List.filter_cons, decide_true,
      List.filter_nil, List.count_cons, List.count_nil]
    omega
  · simp only [Message.ends, hends, if_false, List.filter_cons, decide_false, Bool.false_eq_true,
      List.filter_nil, List.count_nil]
    omega

/-- A message handed to a task is still on its way. -/
theorem dispatch (h : e.Delivered k) (hfresh : e.tasks.get? e.nextTask = none) {m : Message}
    {rest : List Message} (hqueue : e.bus.queue = m :: rest) :
    (({ e with bus := { e.bus with queue := rest } } : Engine).spawn (.arriving m)).2.Delivered
      k := by
  -- the next state gets a name: the counts below are about it and `e` alone
  generalize hnext : (({ e with bus := { e.bus with queue := rest } } : Engine).spawn
    (.arriving m)).2 = next
  have hm : Moved e next e.nextTask (some (.arriving m)) := by
    rw [← hnext]
    exact moved_insert (by simp)
  have hrest : next.bus.queue = rest := by simp [← hnext]
  have hterminals : next.terminals k = e.terminals k := by
    rw [← hnext]
    exact (spawn_views _ _ k).2
  have houtcomes : next.outcomes k = e.outcomes k := by
    rw [← hnext]
    exact outcomes_spawn _ _ k
  obtain ⟨letters, hletters, hletters'⟩ := letters_moved hm k
  rw [hfresh] at hletters
  rw [delivered_iff_count] at h ⊢
  intro m'
  have hbefore := h m'
  rw [hqueue, hletters.count_eq] at hbefore
  rw [hrest, hterminals, houtcomes, hletters'.count_eq]
  by_cases hends : m.ends k
  · simp [Task.letter?, Task.arriving?, Option.filter, hends, List.count_cons] at hbefore ⊢
    omega
  · simp [Task.letter?, Task.arriving?, Option.filter, hends] at hbefore ⊢
    omega

/-- A terminal message that is handled is recorded. -/
theorem record (h : e.Delivered k) (key : CorrelationKey) (o : Outcome)
    (hold : e.tasks.get? t = some (.arriving (o.message key))) :
    ((e.record key o).finish t .handled).Delivered k := by
  have hm : Moved e ((e.record key o).finish t .handled) t none := moved_erase (by simp)
  -- for the key of the outcome a letter becomes an outcome; other keys do not notice
  have hends : (o.message key).ends k = decide (key = k) := by
    cases o <;> simp [Outcome.message, Message.ends, Message.failed, Message.isTerminal]
  obtain ⟨letters, hletters, hletters'⟩ := letters_moved hm k
  rw [hold] at hletters
  rw [delivered_iff_count] at h ⊢
  intro m'
  have hbefore := h m'
  rw [hletters.count_eq] at hbefore
  rw [hletters'.count_eq]
  by_cases hk : key = k
  · subst hk
    simp [Task.letter?, Task.arriving?, Option.filter, hends, List.count_cons] at hbefore ⊢
    omega
  · simp [Task.letter?, Task.arriving?, Option.filter, hends, hk] at hbefore ⊢
    omega

theorem finish (h : e.Delivered k) (hold : (e.tasks.get? t).bind (Task.letter? k) = none)
    (f : Finish) : (e.finish t f).Delivered k :=
  h.moved (moved_erase rfl) hold rfl rfl (finish_views e t f k).2 (outcomes_finish e t f k)

theorem setTask (h : e.Delivered k) (hold : (e.tasks.get? t).bind (Task.letter? k) = none)
    {task : Task} (hnew : task.letter? k = none) : (e.setTask t task).Delivered k :=
  h.moved (moved_insert rfl) hold hnew rfl rfl rfl

theorem leaveLock (h : e.Delivered k) (t : TaskId) (key : CorrelationKey) :
    (e.leaveLock t key).Delivered k :=
  h.congr (by simp) (by simp) (by simp) (by simp)

theorem note (h : e.Delivered k) {ev : Event} (hterminal : ev.terminal? k = none)
    (houtcome : ev.outcome? k = none) : (e.note ev).Delivered k :=
  h.congr rfl rfl (by simp [hterminal]) (by simp [houtcome])

theorem spawn (h : e.Delivered k) (hfresh : e.tasks.get? e.nextTask = none) {task : Task}
    (hnew : task.letter? k = none) : (e.spawn task).2.Delivered k :=
  h.moved (moved_insert rfl) (by simp [hfresh]) hnew rfl (spawn_views e task k).2
    (outcomes_spawn e task k)

theorem queueUp (h : e.Delivered k) (hold : (e.tasks.get? t).bind (Task.letter? k) = none)
    (s : Section) : (e.queueUp t s).Delivered k := by
  have hask : (e.askLock t s.key).Delivered k := h.congr rfl rfl rfl rfl
  exact hask.setTask hold rfl

/-- A section publishes nothing before it is left, and records nothing. -/
theorem contained (h : e.Delivered k) {key : CorrelationKey} {r : Engine × Exit}
    (hr : Contained e key r) : r.1.Delivered k := by
  obtain ⟨evs, hnews, hown⟩ := hr.news
  have hquiet : ∀ ev ∈ evs, ev.terminal? k = none ∧ ev.outcome? k = none := by
    intro ev hmem
    rcases hown ev hmem with rfl | rfl <;> exact ⟨rfl, rfl⟩
  refine h.congr (by rw [hr.bus]) hr.tasks ?_ ?_
  · exact view_of_silent (fun ev hmem => (hquiet ev hmem).1) hnews
  · exact view_of_silent (fun ev hmem => (hquiet ev hmem).2) hnews

/-- A section that is left by a proper exit publishes its follow-up, if it has one. -/
theorem leave (h : e.Delivered k) {m : Message} {exit : Exit}
    (hold : (e.tasks.get? t).bind (Task.letter? k) = none) (hopen : e.bus.isOpen)
    (hproper : exit.Proper m.key) : (e.leave t m exit).Delivered k := by
  cases exit with
  | done =>
      rw [leave_done]
      exact (h.leaveLock t m.key).finish (by simpa using hold) _
  | publish next =>
      rw [leave_publish t m next hopen]
      exact ((h.leaveLock t m.key).publish next (by simpa using hopen)).finish
        (by simpa using hold) _
  | call task =>
      obtain ⟨call, hcall⟩ := Option.isSome_iff_exists.mp hproper.2
      rw [leave_call e t m hcall]
      have hletter : task.letter? k = none := by
        cases task <;> simp_all [Task.letter?, Task.arriving?, Task.call?]
      exact (h.setTask hold hletter).note rfl rfl
  | record o => exact hproper.elim
  | fault error => exact hproper.elim

end Delivered

/-! ## Actions -/

/-- A message that needs no lock, and belongs where it is, brings an outcome. -/
theorem eq_message_of_isRegular {m : Message} (hregular : m.isRegular)
    (hlock : m.needsLock = false) : ∃ o : Outcome, m = o.message m.key := by
  obtain ⟨key, channel, payload⟩ := m
  cases channel <;> cases payload <;> simp_all [Message.isRegular, Message.needsLock]
  · exact ⟨.success _, rfl⟩
  · exact ⟨.error _, rfl⟩

theorem begin_message (e : Engine) (t : TaskId) (key : CorrelationKey) (o : Outcome) :
    e.begin t (o.message key) = (e.record key o).finish t .handled := by
  cases o <;> rfl

theorem ends_of_needsLock {m : Message} (h : m.needsLock) (k : CorrelationKey) :
    m.ends k = false := by
  obtain ⟨key, channel, payload⟩ := m
  cases channel <;> cases payload <;>
    simp_all [Message.needsLock, Message.ends, Message.isTerminal]

theorem bind_letter?_of_arriving? {task : Task} (hold : e.tasks.get? t = some task)
    (harriving : task.arriving? = none) (k : CorrelationKey) :
    (e.tasks.get? t).bind (Task.letter? k) = none := by
  simp [hold, Task.letter?, harriving]

theorem Leaving.letter (cause : Cause) {m : Message} {r : Engine × Exit}
    (h : Leaving e t cause m r) (k : CorrelationKey) :
    (e.tasks.get? t).bind (Task.letter? k) = none := by
  obtain ⟨old, hold, -, harriving⟩ := h.position
  exact bind_letter?_of_arriving? hold harriving k

theorem Delivered.leaving (hd : e.Delivered k) (h : Sound e) {cause : Cause} {m : Message}
    {r : Engine × Exit} (hr : Leaving e t cause m r) : (r.1.leave t m r.2).Delivered k := by
  have hletter := hr.letter cause k
  refine (hd.contained hr.contained).leave ?_ ?_ hr.proper
  · rw [hr.contained.tasks]
    exact hletter
  · rw [hr.contained.bus]
    exact h.regular.isOpen

theorem Delivered.visit (hd : e.Delivered k) (h : Sound e) {sweep : Sweep} {key : CorrelationKey}
    {seen : Stage} (hold : e.tasks.get? t = some (.locking (.evict sweep key seen))) :
    (e.visit t sweep key seen).Delivered k := by
  have hletter : (e.tasks.get? t).bind (Task.letter? k) = none :=
    bind_letter?_of_arriving? hold rfl k
  by_cases hdue : e.Due sweep.startedAt key seen
  · rw [visit_of_due hdue]
    have hclosed : (e.close key).Delivered k := hd.congr rfl rfl rfl rfl
    have hevicted : (((e.close key).leaveLock t key).note (.evicted key)).Delivered k :=
      (hclosed.leaveLock t key).note rfl rfl
    exact (hevicted.publish (.failed key .timeout) (by simpa using h.regular.isOpen)).setTask
      (by simpa using hletter) rfl
  · rw [visit_of_not_due hdue]
    exact (hd.leaveLock t key).setTask (by simpa using hletter) rfl

/-- Who asks for a lock carries no letter: terminal messages need no lock. -/
theorem letter?_of_joins {old : Task} {s : Section} (h : old.Joins s) (k : CorrelationKey) :
    old.letter? k = none := by
  cases h with
  | handle m hlock =>
      simp [Task.letter?, Task.arriving?, Option.filter, ends_of_needsLock hlock]
  | evict | keep => rfl

/-- Every step keeps the books about terminal messages. -/
theorem Delivered.step (hd : e.Delivered k) (h : Sound e) {a : Action} (hs : e.Step a e') :
    e'.Delivered k := by
  have hfresh := h.orderly.fresh _ (Nat.le_refl e.nextTask)
  have hopen := h.regular.isOpen
  cases hs with
  | idle => exact hd
  | submit r => exact hd.publish _ hopen
  | forward c key hkey => exact hd.publish _ hopen
  | park n contract hindex hclosed => exact hd.congr rfl rfl rfl rfl
  | dispatch m rest hqueue => exact hd.dispatch hfresh hqueue
  | begin _ task hbegins =>
      refine hd.spawn hfresh ?_
      cases a <;> simp only [Action.begins?, reduceCtorEq, Option.some.injEq] at hbegins <;>
        subst hbegins <;> rfl
  | look t startedAt seen hold => exact hd.setTask (bind_letter?_of_arriving? hold rfl k) rfl
  | queueUp t old s hold hjoins =>
      exact hd.queueUp (by simp [hold, letter?_of_joins hjoins k]) s
  | outcome t m hold hlock =>
      -- the only regular messages that need no lock bring an outcome to the board
      have hregular := h.regular.tasks t m (by simp [hold, Task.message?])
      obtain ⟨o, ho⟩ := eq_message_of_isRegular hregular hlock
      rw [ho, begin_message]
      exact hd.record m.key o (ho ▸ hold)
  | handle t m hold ho => exact hd.leaving h (h.leaving_handle hold ho)
  | visit t sweep key seen hold ho => exact hd.visit h hold
  | keep t key hold ho =>
      exact (hd.setTask (bind_letter?_of_arriving? hold rfl k) rfl).note rfl rfl
  | finishSweep t sweep hold hrest =>
      exact (hd.congr rfl rfl rfl rfl).finish (bind_letter?_of_arriving? hold rfl k) _
  | listen t key deadline hold =>
      unfold lookForOutcome
      dsimp only
      split
      · exact (hd.congr rfl rfl rfl rfl).finish (bind_letter?_of_arriving? hold rfl k) _
      · exact hd.congr rfl rfl rfl rfl
  | offer t m asset provider answer hold => exact hd.leaving h (h.leaving_offer hold answer)
  | negotiation t m asset provider offer answer hold =>
      exact hd.leaving h (h.leaving_negotiation hold answer)
  | transfer t m c request answer hold => exact hd.leaving h (h.leaving_transfer hold answer)
  | take key => exact hd.congr rfl rfl rfl rfl
  | letGo t key hold | leaveQueue t key hold =>
      exact (hd.leaveLock t key).finish (by simpa using bind_letter?_of_arriving? hold rfl k) _
  | neverMind t key hold => exact hd.finish (bind_letter?_of_arriving? hold rfl k) _
  | pass span => exact hd.congr rfl rfl rfl rfl

/-- After every schedule the terminal messages of a key are those on their way and those whose
outcomes are recorded. -/
theorem Delivered.after (hd : e.Delivered k) (h : Sound e) (as : List Action) :
    (e.after as).Delivered k :=
  h.after_invariant (P := (Delivered · k)) hd (fun h hd a => hd.step h (act_step _ a)) as

theorem delivered_ofSettings (s : Settings) (k : CorrelationKey) : (ofSettings s).Delivered k :=
  List.Perm.refl []

end Engine

end Rendezvous
