import Rendezvous.Proofs.Handlers

/-!
# Sound engines

An engine is `Sound` when its tasks and locks are in order, its messages belong where they are, and
every key stands coherently.  `Leads` is what one action may make of a sound engine: the books stay
in order and every key moves by at most one row of the transition table.

This module has the tools to show `Leads` of an action: `Still.leads` and its kin for actions that
change no key, and `leads_leave` for a critical section that is left.
-/

namespace Rendezvous

namespace Engine

/-- The bus is open and every message on its way belongs on its channel. -/
structure Regular (e : Engine) : Prop where
  isOpen : e.bus.isOpen
  queue : ∀ m ∈ e.bus.queue, m.isRegular
  tasks : ∀ t m, (e.tasks.get? t).bind Task.message? = some m → m.isRegular

/-- What holds of every reachable state. -/
structure Sound (e : Engine) : Prop where
  orderly : e.Orderly
  regular : e.Regular
  coherent : ∀ k, (e.standing k).Coherent k

/-- From the state `e` the state `e'` follows, for the reason `cause`. -/
structure Leads (e : Engine) (cause : Cause) (e' : Engine) : Prop where
  orderly : e'.Orderly
  regular : e'.Regular
  now_le : e.now ≤ e'.now
  ttl : e'.store.ttl = e.store.ttl
  destination : e'.destination = e.destination
  moves : ∀ k, e'.standing k = e.standing k ∨ e.Move k (e.standing k) cause (e'.standing k)

/-- The data of every key are the same in both states, and so are the settings. -/
structure Still (e e' : Engine) : Prop where
  now : e'.now = e.now
  ttl : e'.store.ttl = e.store.ttl
  destination : e'.destination = e.destination
  case? : ∀ k, e'.store.get? k = e.store.get? k
  record? : ∀ k, e'.registry.records.get? k = e.registry.records.get? k
  accepted : ∀ k, e'.accepted k = e.accepted k
  terminals : ∀ k, e'.terminals k = e.terminals k

variable {e e' : Engine} {t : TaskId} {cause : Cause}

/-! ## States with the same data -/

namespace Still

theorem refl (e : Engine) : Still e e :=
  ⟨rfl, rfl, rfl, fun _ => rfl, fun _ => rfl, fun _ => rfl, fun _ => rfl⟩

theorem trans {e'' : Engine} (h : Still e e') (h' : Still e' e'') : Still e e'' where
  now := h'.now.trans h.now
  ttl := h'.ttl.trans h.ttl
  destination := h'.destination.trans h.destination
  case? k := (h'.case? k).trans (h.case? k)
  record? k := (h'.record? k).trans (h.record? k)
  accepted k := (h'.accepted k).trans (h.accepted k)
  terminals k := (h'.terminals k).trans (h.terminals k)

/-- Tasks, messages, outcomes, offers and parked confirmations are not data of a key. -/
theorem books {parked : Assoc NegotiationId ParkedConfirmation}
    {closed : Assoc NegotiationId Nat} {board : OutcomeBoard} {offers : OfferCache} {bus : Bus}
    {tasks : Assoc TaskId Task} {nextTask : TaskId} :
    Still e
      { e with
        registry := { e.registry with parked, closed }, board, offers, bus, tasks, nextTask } :=
  ⟨rfl, rfl, rfl, fun _ => rfl, fun _ => rfl, fun _ => rfl, fun _ => rfl⟩

theorem note (e : Engine) {ev : Event} (h : ev.isQuiet) : Still e (e.note ev) := by
  have hviews : ∀ k, (e.note ev).accepted k = e.accepted k ∧
      (e.note ev).terminals k = e.terminals k := fun k =>
    views_of_quiet k [ev] (by simpa using h) rfl
  exact ⟨rfl, rfl, rfl, fun _ => rfl, fun _ => rfl, fun k => (hviews k).1,
    fun k => (hviews k).2⟩

theorem setTask (e : Engine) (t : TaskId) (task : Task) : Still e (e.setTask t task) := books

theorem finish (e : Engine) (t : TaskId) (f : Finish) : Still e (e.finish t f) :=
  ⟨by simp, by simp, by simp, by simp, by simp, by simp, by simp⟩

theorem spawn (e : Engine) (task : Task) : Still e (e.spawn task).2 :=
  ⟨by simp, by simp, by simp, by simp, by simp, by simp, by simp⟩

theorem askLock (e : Engine) (t : TaskId) (key : CorrelationKey) : Still e (e.askLock t key) :=
  ⟨by simp, by simp, by simp, by simp, by simp, by simp, by simp⟩

theorem leaveLock (e : Engine) (t : TaskId) (key : CorrelationKey) : Still e (e.leaveLock t key) :=
  ⟨by simp, by simp, by simp, by simp, by simp, by simp, by simp⟩

theorem record (e : Engine) (key : CorrelationKey) (o : Outcome) : Still e (e.record key o) :=
  ⟨by simp, by simp, by simp, by simp, by simp, by simp, by simp⟩

end Still

theorem Still.standing (h : Still e e') {k : CorrelationKey} (hcall : e'.callAt? k = e.callAt? k) :
    e'.standing k = e.standing k :=
  Standing.ext (h.case? k) (h.record? k) hcall (h.accepted k) (h.terminals k)

/-- A state with the same data leads from another if calls, tasks and messages are kept. -/
theorem Still.leads (h : Still e e') (horderly : e'.Orderly) (hregular : e'.Regular)
    (hcall : ∀ k, e'.callAt? k = e.callAt? k) (cause : Cause) : Leads e cause e' where
  orderly := horderly
  regular := hregular
  now_le := Nat.le_of_eq h.now.symm
  ttl := h.ttl
  destination := h.destination
  moves k := .inl (h.standing (hcall k))

theorem Sound.leads_refl (h : Sound e) (cause : Cause) : Leads e cause e :=
  (Still.refl e).leads h.orderly h.regular (fun _ => rfl) cause

/-! ## Messages -/

theorem Regular.congr (h : Regular e) (hbus : e'.bus = e.bus) (htasks : e'.tasks = e.tasks) :
    Regular e' where
  isOpen := hbus ▸ h.isOpen
  queue := hbus ▸ h.queue
  tasks := htasks ▸ h.tasks

/-- Parked confirmations and outcomes belong to no key. -/
theorem Sound.leads_books (h : Sound e) (parked : Assoc NegotiationId ParkedConfirmation)
    (board : OutcomeBoard) (cause : Cause) :
    Leads e cause { e with registry := { e.registry with parked }, board } := by
  have hstill : Still e { e with registry := { e.registry with parked }, board } := .books
  exact hstill.leads (h.orderly.congr rfl rfl rfl) (h.regular.congr rfl rfl) (fun _ => rfl) cause

/-- A task that moves brings no message with it but a regular one. -/
theorem Regular.moved (h : Regular e) {position? : Option Task} (hm : Moved e e' t position?)
    (hopen : e'.bus.isOpen) (hqueue : ∀ m ∈ e'.bus.queue, m ∈ e.bus.queue ∨ m.isRegular)
    (hposition : ∀ m, position?.bind Task.message? = some m → m.isRegular) : Regular e' where
  isOpen := hopen
  queue m hmem := (hqueue m hmem).elim (h.queue m) id
  tasks t' m hmessage := by
    by_cases ht : t' = t
    · subst ht
      exact hposition m (hm.self ▸ hmessage)
    · rw [hm.others t' ht] at hmessage
      exact h.tasks t' m hmessage

theorem isOpen_publish (b : Bus) (m : Message) : (b.publish m).isOpen = b.isOpen := by
  unfold Bus.publish
  split <;> rfl

theorem mem_queue_publish {b : Bus} {m m' : Message} (h : m' ∈ (b.publish m).queue) :
    m' ∈ b.queue ∨ m' = m := by
  unfold Bus.publish at h
  split at h
  · simpa using h
  · exact .inl h

/-- Publishing a regular message that ends nothing leaves every key as it was. -/
theorem leads_publish (h : Sound e) {m : Message} (hm : m.isRegular)
    (hterminal : m.isTerminal = false) (cause : Cause) : Leads e cause (e.publish m) := by
  have hregular : Regular (e.publish m) := by
    refine ⟨?_, fun m' hmem => ?_, ?_⟩
    · simpa [isOpen_publish] using h.regular.isOpen
    · simp only [publish_frame] at hmem
      exact (mem_queue_publish hmem).elim (h.regular.queue m') (fun heq => heq ▸ hm)
    · simpa using h.regular.tasks
  have hstill : Still e (e.publish m) := by
    refine ⟨by simp, by simp, by simp, fun k => by simp, fun k => by simp, fun k => by simp,
      fun k => ?_⟩
    rw [terminals_publish e m k h.regular.isOpen]
    simp [hterminal]
  exact hstill.leads (h.orderly.congr (by simp) (by simp) (by simp)) hregular
    (fun k => callAt?_congr (by simp) (by simp) k) cause

/-! ## Tasks that begin -/

/-- A task that begins outside every queue leaves every key as it was. -/
theorem leads_spawn (h : Sound e) (bus : Bus) {task : Task} (hopen : bus.isOpen)
    (hqueue : ∀ m ∈ bus.queue, m.isRegular) (hkey : task.key? = none)
    (hmessage : ∀ m, task.message? = some m → m.isRegular) (cause : Cause) :
    Leads e cause (({ e with bus } : Engine).spawn task).2 := by
  have hm : Moved e (({ e with bus } : Engine).spawn task).2 e.nextTask (some task) :=
    moved_insert (by simp)
  have hstill : Still e (({ e with bus } : Engine).spawn task).2 :=
    Still.books.trans (.spawn _ task)
  refine hstill.leads (h.orderly.begin hm rfl rfl hkey) ?_
    (fun k => h.orderly.callAt?_begin hm rfl k) cause
  exact h.regular.moved hm hopen (fun m hmem => .inr (hqueue m hmem)) (by simpa using hmessage)

theorem leads_dispatch (h : Sound e) {m : Message} {rest : List Message}
    (hqueue : e.bus.queue = m :: rest) (cause : Cause) :
    Leads e cause (({ e with bus := { e.bus with queue := rest } } : Engine).spawn
      (.arriving m)).2 := by
  have hmem : ∀ m' ∈ m :: rest, m'.isRegular := by
    rw [← hqueue]
    exact h.regular.queue
  refine leads_spawn h { e.bus with queue := rest } h.regular.isOpen
    (fun m' hm' => hmem m' (List.mem_cons_of_mem m hm')) rfl ?_ cause
  intro m' hm'
  cases hm'
  exact hmem m (by simp)

/-! ## Tasks that move without a key changing -/

/-- A task that stays in its queue, or out of all queues, and makes no call before or after. -/
theorem Still.leads_move (hs : Still e e') (h : Sound e) {position? : Option Task} {old : Task}
    (hold : e.tasks.get? t = some old) (hm : Moved e e' t position?)
    (hlocks : e'.store.locks = e.store.locks) (hnext : e'.nextTask = e.nextTask)
    (hbus : e'.bus = e.bus) (hkey : position?.bind Task.key? = old.key?)
    (hin : ∀ k, position?.bind Task.inside? = some k → e.store.locks.owner? k = some t)
    (hmessage : ∀ m, position?.bind Task.message? = some m → m.isRegular)
    (hquiet : old.call? = none) (hquiet' : ∀ task, position? = some task → task.call? = none)
    (cause : Cause) : Leads e cause e' := by
  refine hs.leads (h.orderly.move hm hlocks hnext hold hkey hin)
    (h.regular.moved hm (hbus ▸ h.regular.isOpen) (fun m hmem => .inl (hbus ▸ hmem)) hmessage)
    (fun k => ?_) cause
  rw [Orderly.callAt?_move hm hlocks]
  by_cases ho : e.store.locks.owner? k = some t
  · rw [if_pos ho, Orderly.callAt?_eq_none ho hold hquiet]
    refine Option.filter_eq_none_iff.mpr fun task htask => ?_
    simp [hquiet' task htask]
  · rw [if_neg ho]

theorem leads_queueUp (h : Sound e) {old : Task} {s : Section} (hold : e.tasks.get? t = some old)
    (hout : old.key? = none) (hmessage : ∀ m, (Task.locking s).message? = some m → m.isRegular)
    (cause : Cause) : Leads e cause (e.queueUp t s) := by
  have hm : Moved e (e.queueUp t s) t (some (.locking s)) := moved_insert (by simp [queueUp])
  have hlocks : (e.queueUp t s).store.locks = e.store.locks.ask s.key t := by simp [queueUp]
  have hstill : Still e (e.queueUp t s) := (Still.askLock e t s.key).trans (.setTask _ t _)
  exact hstill.leads (h.orderly.join hm hlocks rfl hold hout rfl rfl)
    (h.regular.moved hm h.regular.isOpen (fun m hmem => .inl hmem) (by simpa using hmessage))
    (h.orderly.callAt?_join hm hlocks hold hout rfl) cause

/-- A task that leaves its queue, without a call being open. -/
theorem Still.leads_quit (hs : Still e e') (h : Sound e) {position? : Option Task} {old : Task}
    {k : CorrelationKey} (hold : e.tasks.get? t = some old) (hkey : old.key? = some k)
    (hm : Moved e e' t position?) (hlocks : e'.store.locks = e.store.locks.leave k t)
    (hnext : e'.nextTask = e.nextTask) (hbus : e'.bus = e.bus)
    (hout : position?.bind Task.key? = none)
    (hmessage : ∀ m, position?.bind Task.message? = some m → m.isRegular)
    (hquiet : old.call? = none) (cause : Cause) : Leads e cause e' := by
  refine hs.leads (h.orderly.quit hm hlocks hnext hold hkey hout)
    (h.regular.moved hm (hbus ▸ h.regular.isOpen) (fun m hmem => .inl (hbus ▸ hmem)) hmessage)
    (fun k' => ?_) cause
  rw [h.orderly.callAt?_quit hm hlocks hold hkey]
  by_cases ho : e.store.locks.owner? k' = some t
  · rw [if_pos ho, Orderly.callAt?_eq_none ho hold hquiet]
  · rw [if_neg ho]

/-! ## Leaving a critical section -/

section

variable {m : Message} {old : Task} {exit : Exit}

theorem leave_done (e : Engine) (t : TaskId) (m : Message) :
    e.leave t m .done = (e.leaveLock t m.key).finish t .handled := rfl

/-- An open bus takes the follow-up, so nothing goes wrong after the lock is given back. -/
theorem leave_publish (t : TaskId) (m next : Message) (hopen : e.bus.isOpen) :
    e.leave t m (.publish next) =
      ((e.leaveLock t m.key).publish next).finish t .handled := by
  simp [leave, finishHandler, Bus.refusal?, hopen]

theorem leave_call (e : Engine) (t : TaskId) (m : Message) {task : Task} {call : Call}
    (hcall : task.call? = some call) :
    e.leave t m (.call task) = (e.setTask t task).note (.called call) := by
  simp [leave, hcall]

theorem moved_call (e : Engine) (t : TaskId) (task : Task) (call : Call) :
    Moved e ((e.setTask t task).note (.called call)) t (some task) :=
  moved_insert (by simp)

/-- A section that is left by a proper exit ends, or waits inside. -/
theorem orderly_leave (h : Orderly e) (hold : e.tasks.get? t = some old)
    (hkey : old.key? = some m.key) (ho : e.store.locks.owner? m.key = some t)
    (hopen : e.bus.isOpen) (hproper : exit.Proper m.key) : (e.leave t m exit).Orderly := by
  cases exit with
  | done =>
      rw [leave_done]
      exact h.quit (moved_erase (by simp)) (by simp) (by simp) hold hkey rfl
  | publish next =>
      rw [leave_publish t m next hopen]
      exact h.quit (moved_erase (by simp)) (by simp) (by simp) hold hkey rfl
  | call task =>
      obtain ⟨call, hcall⟩ := Option.isSome_iff_exists.mp hproper.2
      rw [leave_call e t m hcall]
      refine h.move (moved_call e t task call) (by simp) (by simp) hold ?_ fun k hin => ?_
      · exact hproper.1.trans hkey.symm
      · rw [Option.bind_some, Task.inside?_eq_key? hproper.2, hproper.1] at hin
        exact Option.some.inj hin ▸ ho
  | record o => exact hproper.elim
  | fault error => exact hproper.elim

theorem regular_leave (h : Regular e) (hproper : exit.Proper m.key) :
    (e.leave t m exit).Regular := by
  cases exit with
  | done =>
      rw [leave_done]
      have hm : Moved e ((e.leaveLock t m.key).finish t .handled) t none :=
        moved_erase (by simp)
      exact h.moved hm (by simpa using h.isOpen)
        (fun m' hmem => .inl (by simpa using hmem)) (by simp)
  | publish next =>
      rw [leave_publish t m next h.isOpen]
      have hm : Moved e (((e.leaveLock t m.key).publish next).finish t .handled) t none :=
        moved_erase (by simp)
      refine h.moved hm (by simpa [isOpen_publish] using h.isOpen) (fun m' hmem => ?_) (by simp)
      simp only [finish_frame, publish_frame, leaveLock_frame] at hmem
      refine (mem_queue_publish hmem).imp_right fun heq => ?_
      rw [heq]
      exact hproper.2
  | call task =>
      obtain ⟨call, hcall⟩ := Option.isSome_iff_exists.mp hproper.2
      rw [leave_call e t m hcall]
      refine h.moved (moved_call e t task call) (by simpa using h.isOpen)
        (fun m' hmem => .inl (by simpa using hmem)) fun m' hmessage => ?_
      -- a task that makes a call has begun its message already
      rw [Option.bind_some] at hmessage
      cases task <;> simp_all [Task.message?, Task.call?]
  | record o => exact hproper.elim
  | fault error => exact hproper.elim

/-- A proper exit completes what the section has done to its key and touches no other key. -/
theorem standing_leave (h : Orderly e) (hold : e.tasks.get? t = some old)
    (hkey : old.key? = some m.key) (ho : e.store.locks.owner? m.key = some t)
    (hopen : e.bus.isOpen) (hproper : exit.Proper m.key) (k : CorrelationKey) :
    (e.leave t m exit).standing k =
      if k = m.key then (e.standing k).leave exit else e.standing k := by
  have howner := h.owner?_iff hold hkey ho k
  cases exit with
  | done =>
      rw [leave_done]
      have hcall := h.callAt?_quit (moved_erase (by simp))
        (show ((e.leaveLock t m.key).finish t .handled).store.locks = _ by simp) hold hkey k
      by_cases hk : k = m.key
      · rw [if_pos (howner.mpr hk)] at hcall
        rw [if_pos hk]
        ext1 <;> simp [standing, Standing.leave, hcall]
      · rw [if_neg (mt howner.mp hk)] at hcall
        rw [if_neg hk]
        ext1 <;> simp [standing, hcall]
  | publish next =>
      rw [leave_publish t m next hopen]
      have hcall := h.callAt?_quit (moved_erase (by simp))
        (show (((e.leaveLock t m.key).publish next).finish t .handled).store.locks = _ by simp)
        hold hkey k
      have hterminals := terminals_publish (e.leaveLock t m.key) next k (by simpa using hopen)
      rw [hproper.1] at hterminals
      by_cases hk : k = m.key
      · subst hk
        rw [if_pos ho] at hcall
        rw [if_pos rfl]
        ext1 <;> simp [standing, Standing.leave, hcall, hterminals]
      · rw [if_neg (mt howner.mp hk)] at hcall
        rw [if_neg hk]
        ext1 <;> simp [standing, hcall, hterminals, Ne.symm hk]
  | call task =>
      obtain ⟨call, hcall⟩ := Option.isSome_iff_exists.mp hproper.2
      rw [leave_call e t m hcall]
      have hcallAt := Orderly.callAt?_move (moved_call e t task call) (by simp) k
      by_cases hk : k = m.key
      · rw [if_pos (howner.mpr hk)] at hcallAt
        rw [if_pos hk]
        ext1 <;> simp [standing, Standing.leave, hcallAt, hcall, Event.terminal?]
      · rw [if_neg (mt howner.mp hk)] at hcallAt
        rw [if_neg hk]
        ext1 <;> simp [standing, hcallAt, Event.terminal?]
  | record o => exact hproper.elim
  | fault error => exact hproper.elim

/-- A proper exit records nothing. -/
theorem board_leave (hopen : e.bus.isOpen) (hproper : exit.Proper m.key) :
    (e.leave t m exit).board = e.board := by
  cases exit with
  | done => simp [leave_done]
  | publish next => simp [leave_publish t m next hopen]
  | call task =>
      obtain ⟨call, hcall⟩ := Option.isSome_iff_exists.mp hproper.2
      simp [leave_call e t m hcall]
  | record o => exact hproper.elim
  | fault error => exact hproper.elim

end

/-- Task `t`, which owns the lock of `m.key`, has run a section there and is about to leave it: the
section is contained, and it will have moved its key by one row or not at all. -/
structure Leaving (e : Engine) (t : TaskId) (cause : Cause) (m : Message) (r : Engine × Exit) :
    Prop where
  position : ∃ old, e.tasks.get? t = some old ∧ old.key? = some m.key ∧ old.arriving? = none
  owner : e.store.locks.owner? m.key = some t
  contained : Contained e m.key r
  proper : r.2.Proper m.key
  advances : (r.1.standing m.key).leave r.2 = e.standing m.key ∨
    e.Move m.key (e.standing m.key) cause ((r.1.standing m.key).leave r.2)

theorem Leaving.now {m : Message} {r : Engine × Exit} (hr : Leaving e t cause m r) :
    (r.1.leave t m r.2).now = e.now := by
  simpa using hr.contained.now

/-- Nothing comes to the board when a handler leaves its section. -/
theorem Leaving.board {m : Message} {r : Engine × Exit} (hr : Leaving e t cause m r)
    (h : Sound e) : (r.1.leave t m r.2).board = e.board := by
  have hopen : r.1.bus.isOpen := by
    rw [hr.contained.bus]
    exact h.regular.isOpen
  exact (board_leave hopen hr.proper).trans hr.contained.board

/-- A section that is left moves its key by one row of the table or leaves everything as it was. -/
theorem leads_leave (h : Sound e) {m : Message} {r : Engine × Exit}
    (hr : Leaving e t cause m r) : Leads e cause (r.1.leave t m r.2) := by
  obtain ⟨old, hold, hkey, -⟩ := hr.position
  have hcontained := hr.contained
  -- the section has touched neither tasks nor locks, so what holds of them in `e` still holds
  have horderly : Orderly r.1 :=
    h.orderly.congr hcontained.tasks hcontained.locks hcontained.nextTask
  have hregular : Regular r.1 := h.regular.congr hcontained.bus hcontained.tasks
  have hold' : r.1.tasks.get? t = some old := hcontained.tasks ▸ hold
  have ho' : r.1.store.locks.owner? m.key = some t := hcontained.locks ▸ hr.owner
  refine ⟨orderly_leave horderly hold' hkey ho' hregular.isOpen hr.proper,
    regular_leave hregular hr.proper, ?_, ?_, ?_, fun k => ?_⟩
  · exact Nat.le_of_eq hr.now.symm
  · simpa using hcontained.ttl
  · simpa using hcontained.destination
  · rw [standing_leave horderly hold' hkey ho' hregular.isOpen hr.proper]
    by_cases hk : k = m.key
    · subst hk
      rw [if_pos rfl]
      exact hr.advances
    · rw [if_neg hk]
      exact .inl (hcontained.others hk)

/-- What advances a key without an open call, and what settles a call, can be left. -/
theorem Advances.ends {k : CorrelationKey} {r : Engine × Exit} (hr : e.Advances k cause r)
    (hcall : e.callAt? k = none) :
    r.2.Proper k ∧ ((r.1.standing k).leave r.2 = e.standing k ∨
      e.Move k (e.standing k) cause ((r.1.standing k).leave r.2)) := by
  rcases hr with rfl | ⟨hproper, hmove⟩
  · refine ⟨trivial, .inl ?_⟩
    exact congrArg (fun call? => { e.standing k with call? }) hcall.symm
  · exact ⟨hproper, .inr hmove⟩

end Engine

end Rendezvous
