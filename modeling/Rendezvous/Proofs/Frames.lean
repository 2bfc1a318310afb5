import Rendezvous.Proofs.Steps
import Rendezvous.Views

/-!
# What the operations of an engine leave alone

Every handler and every sweep is made of the operations of `Engine.State`.  Each of them touches a
few parts of an engine.  This module says for each operation what becomes of every part, so that
later proofs rewrite with these lemmas and never open an operation.

Two parts of the history matter for the life of a request and have views of their own:

* `Engine.accepted e k`: how many requests for `k` were handled that found no case;
* `Engine.terminals e k`: the terminal messages published for `k`, latest first.

An event that changes neither view is quiet (`Event.isQuiet`).
-/

namespace Rendezvous

/-- Whether a message ends a request: a success or a failure on its way to the board. -/
def Message.isTerminal (m : Message) : Bool :=
  match m.channel, m.payload with
  | .result, .completed _ => true
  | .dlq, .failed _ => true
  | _, _ => false

/-- The terminal message for `k` whose publication the event is. -/
def Event.terminal? (k : CorrelationKey) : Event → Option Message
  | .published m => if m.key = k ∧ m.isTerminal then some m else none
  | _ => none

/-- Whether an event neither accepts a request nor publishes a message. -/
def Event.isQuiet : Event → Bool
  | .accepted _ | .published _ => false
  | _ => true

theorem Event.terminal?_of_isQuiet {ev : Event} (h : ev.isQuiet) (k : CorrelationKey) :
    ev.terminal? k = none := by
  cases ev <;> simp_all [Event.isQuiet, Event.terminal?]

namespace Engine

/-- How many requests for `k` were handled that found no case. -/
def accepted (e : Engine) (k : CorrelationKey) : Nat := e.history.count (.accepted k)

/-- The terminal messages published for `k`, latest first. -/
def terminals (e : Engine) (k : CorrelationKey) : List Message :=
  e.history.filterMap (Event.terminal? k)

variable (e : Engine) (t : TaskId)

/-! ## Notes and messages -/

@[simp] theorem note_frame (ev : Event) :
    (e.note ev).now = e.now ∧ (e.note ev).destination = e.destination ∧
    (e.note ev).parkedTtl = e.parkedTtl ∧ (e.note ev).store = e.store ∧
    (e.note ev).registry = e.registry ∧ (e.note ev).board = e.board ∧
    (e.note ev).offers = e.offers ∧ (e.note ev).bus = e.bus ∧ (e.note ev).tasks = e.tasks ∧
    (e.note ev).nextTask = e.nextTask ∧ (e.note ev).history = ev :: e.history :=
  ⟨rfl, rfl, rfl, rfl, rfl, rfl, rfl, rfl, rfl, rfl, rfl⟩

@[simp] theorem accepted_note (ev : Event) (k : CorrelationKey) :
    (e.note ev).accepted k = e.accepted k + if ev = .accepted k then 1 else 0 := by
  simp [accepted, List.count_cons]

@[simp] theorem terminals_note (ev : Event) (k : CorrelationKey) :
    (e.note ev).terminals k = (ev.terminal? k).toList ++ e.terminals k :=
  view_of_cons rfl

theorem views_of_quiet {e e' : Engine} (k : CorrelationKey) (evs : List Event)
    (hquiet : ∀ ev ∈ evs, ev.isQuiet)
    (h : e'.history = evs ++ e.history) :
    e'.accepted k = e.accepted k ∧ e'.terminals k = e.terminals k := by
  have haccepted : evs.count (.accepted k) = 0 := by
    refine List.count_eq_zero.mpr fun hmem => ?_
    have hev := hquiet _ hmem
    simp [Event.isQuiet] at hev
  refine ⟨?_, view_of_silent (fun ev hmem => Event.terminal?_of_isQuiet (hquiet ev hmem) k) h⟩
  simp [accepted, h, List.count_append, haccepted]

@[simp] theorem publish_frame (m : Message) :
    (e.publish m).now = e.now ∧ (e.publish m).destination = e.destination ∧
    (e.publish m).parkedTtl = e.parkedTtl ∧ (e.publish m).store = e.store ∧
    (e.publish m).registry = e.registry ∧ (e.publish m).board = e.board ∧
    (e.publish m).offers = e.offers ∧ (e.publish m).bus = e.bus.publish m ∧
    (e.publish m).tasks = e.tasks ∧ (e.publish m).nextTask = e.nextTask := by
  by_cases h : e.bus.isOpen <;> simp [publish, Bus.publish, h]

theorem publish_of_isOpen (m : Message) (h : e.bus.isOpen) :
    e.publish m = ({ e with bus := e.bus.publish m } : Engine).note (.published m) := by
  simp [publish, h]

@[simp] theorem accepted_publish (m : Message) (k : CorrelationKey) :
    (e.publish m).accepted k = e.accepted k := by
  by_cases h : e.bus.isOpen <;> simp [publish, h, accepted]

theorem terminals_publish (m : Message) (k : CorrelationKey) (h : e.bus.isOpen) :
    (e.publish m).terminals k =
      if m.key = k ∧ m.isTerminal then m :: e.terminals k else e.terminals k := by
  rw [publish_of_isOpen e m h, terminals_note]
  by_cases hm : m.key = k ∧ m.isTerminal <;> simp [Event.terminal?, hm, terminals]

/-! ## Tasks -/

@[simp] theorem setTask_frame (task : Task) :
    (e.setTask t task).now = e.now ∧ (e.setTask t task).destination = e.destination ∧
    (e.setTask t task).parkedTtl = e.parkedTtl ∧ (e.setTask t task).store = e.store ∧
    (e.setTask t task).registry = e.registry ∧ (e.setTask t task).board = e.board ∧
    (e.setTask t task).offers = e.offers ∧ (e.setTask t task).bus = e.bus ∧
    (e.setTask t task).tasks = e.tasks.insert t task ∧
    (e.setTask t task).nextTask = e.nextTask ∧ (e.setTask t task).history = e.history :=
  ⟨rfl, rfl, rfl, rfl, rfl, rfl, rfl, rfl, rfl, rfl, rfl⟩

@[simp] theorem setTask_views (task : Task) (k : CorrelationKey) :
    (e.setTask t task).accepted k = e.accepted k ∧
    (e.setTask t task).terminals k = e.terminals k :=
  ⟨rfl, rfl⟩

@[simp] theorem finish_frame (f : Finish) :
    (e.finish t f).now = e.now ∧ (e.finish t f).destination = e.destination ∧
    (e.finish t f).parkedTtl = e.parkedTtl ∧ (e.finish t f).store = e.store ∧
    (e.finish t f).registry = e.registry ∧ (e.finish t f).board = e.board ∧
    (e.finish t f).offers = e.offers ∧ (e.finish t f).bus = e.bus ∧
    (e.finish t f).tasks = e.tasks.erase t ∧ (e.finish t f).nextTask = e.nextTask ∧
    (e.finish t f).history = .finished t f :: e.history :=
  ⟨rfl, rfl, rfl, rfl, rfl, rfl, rfl, rfl, rfl, rfl, rfl⟩

@[simp] theorem finish_views (f : Finish) (k : CorrelationKey) :
    (e.finish t f).accepted k = e.accepted k ∧ (e.finish t f).terminals k = e.terminals k :=
  views_of_quiet k [.finished t f] (by simp [Event.isQuiet]) rfl

@[simp] theorem spawn_frame (task : Task) :
    (e.spawn task).2.now = e.now ∧ (e.spawn task).2.destination = e.destination ∧
    (e.spawn task).2.parkedTtl = e.parkedTtl ∧ (e.spawn task).2.store = e.store ∧
    (e.spawn task).2.registry = e.registry ∧ (e.spawn task).2.board = e.board ∧
    (e.spawn task).2.offers = e.offers ∧ (e.spawn task).2.bus = e.bus ∧
    (e.spawn task).2.tasks = e.tasks.insert e.nextTask task ∧
    (e.spawn task).2.nextTask = e.nextTask + 1 ∧
    (e.spawn task).2.history = .spawned e.nextTask :: e.history :=
  ⟨rfl, rfl, rfl, rfl, rfl, rfl, rfl, rfl, rfl, rfl, rfl⟩

@[simp] theorem spawn_views (task : Task) (k : CorrelationKey) :
    (e.spawn task).2.accepted k = e.accepted k ∧
    (e.spawn task).2.terminals k = e.terminals k :=
  views_of_quiet k [.spawned e.nextTask] (by simp [Event.isQuiet]) rfl

/-! ## Locks -/

@[simp] theorem askLock_frame (key : CorrelationKey) :
    (e.askLock t key).now = e.now ∧ (e.askLock t key).destination = e.destination ∧
    (e.askLock t key).parkedTtl = e.parkedTtl ∧
    (e.askLock t key).store = { e.store with locks := e.store.locks.ask key t } ∧
    (e.askLock t key).registry = e.registry ∧ (e.askLock t key).board = e.board ∧
    (e.askLock t key).offers = e.offers ∧ (e.askLock t key).bus = e.bus ∧
    (e.askLock t key).tasks = e.tasks ∧ (e.askLock t key).nextTask = e.nextTask ∧
    (e.askLock t key).history = e.history :=
  ⟨rfl, rfl, rfl, rfl, rfl, rfl, rfl, rfl, rfl, rfl, rfl⟩

@[simp] theorem askLock_views (key k : CorrelationKey) :
    (e.askLock t key).accepted k = e.accepted k ∧
    (e.askLock t key).terminals k = e.terminals k :=
  ⟨rfl, rfl⟩

@[simp] theorem history_leaveLock (key : CorrelationKey) :
    (e.leaveLock t key).history =
      (e.store.locks.heir? key t).toList.map Event.granted ++ e.history := by
  unfold leaveLock
  cases e.store.locks.heir? key t <;> simp

@[simp] theorem leaveLock_frame (key : CorrelationKey) :
    (e.leaveLock t key).now = e.now ∧ (e.leaveLock t key).destination = e.destination ∧
    (e.leaveLock t key).parkedTtl = e.parkedTtl ∧
    (e.leaveLock t key).store = { e.store with locks := e.store.locks.leave key t } ∧
    (e.leaveLock t key).registry = e.registry ∧ (e.leaveLock t key).board = e.board ∧
    (e.leaveLock t key).offers = e.offers ∧ (e.leaveLock t key).bus = e.bus ∧
    (e.leaveLock t key).tasks = e.tasks ∧ (e.leaveLock t key).nextTask = e.nextTask := by
  unfold leaveLock
  cases e.store.locks.heir? key t <;> simp

@[simp] theorem leaveLock_views (key k : CorrelationKey) :
    (e.leaveLock t key).accepted k = e.accepted k ∧
    (e.leaveLock t key).terminals k = e.terminals k :=
  views_of_quiet k _ (by simp [Event.isQuiet]) (history_leaveLock e t key)

/-! ## Outcomes -/

theorem foldl_note (f : TaskId → Event) (ts : List TaskId) :
    ts.foldl (fun e t => e.note (f t)) e =
      { e with history := (ts.reverse.map f) ++ e.history } := by
  induction ts generalizing e with
  | nil => rfl
  | cons t ts ih =>
      rw [List.foldl_cons, ih]
      simp [note]

@[simp] theorem record_frame (key : CorrelationKey) (o : Outcome) :
    (e.record key o).now = e.now ∧ (e.record key o).destination = e.destination ∧
    (e.record key o).parkedTtl = e.parkedTtl ∧ (e.record key o).store = e.store ∧
    (e.record key o).registry = e.registry ∧
    (e.record key o).board = e.board.record e.now key o ∧
    (e.record key o).offers = e.offers ∧ (e.record key o).bus = e.bus ∧
    (e.record key o).tasks = e.tasks ∧ (e.record key o).nextTask = e.nextTask ∧
    (e.record key o).history =
      e.board.listeners.reverse.map Event.notified ++ .recorded key o :: e.history := by
  rw [record, foldl_note]
  exact ⟨rfl, rfl, rfl, rfl, rfl, rfl, rfl, rfl, rfl, rfl, rfl⟩

@[simp] theorem record_views (key : CorrelationKey) (o : Outcome) (k : CorrelationKey) :
    (e.record key o).accepted k = e.accepted k ∧
    (e.record key o).terminals k = e.terminals k :=
  views_of_quiet k
    (e.board.listeners.reverse.map Event.notified ++ [.recorded key o])
    (by simp +contextual [Event.isQuiet, or_imp]) (by simp)

/-! ## Cases and records -/

@[simp] theorem close_frame (key : CorrelationKey) :
    (e.close key).now = e.now ∧ (e.close key).destination = e.destination ∧
    (e.close key).parkedTtl = e.parkedTtl ∧ (e.close key).store = e.store.remove key ∧
    (e.close key).registry = (e.registry.take e.now key).2 ∧ (e.close key).board = e.board ∧
    (e.close key).offers = e.offers ∧ (e.close key).bus = e.bus ∧
    (e.close key).tasks = e.tasks ∧ (e.close key).nextTask = e.nextTask ∧
    (e.close key).history = e.history :=
  ⟨rfl, rfl, rfl, rfl, rfl, rfl, rfl, rfl, rfl, rfl, rfl⟩

@[simp] theorem close_views (key k : CorrelationKey) :
    (e.close key).accepted k = e.accepted k ∧ (e.close key).terminals k = e.terminals k :=
  ⟨rfl, rfl⟩

/-! ## Handlers -/

@[simp] theorem finishHandler_frame (m : Message) (error? : Option EngineError) :
    (e.finishHandler t m error?).now = e.now ∧
    (e.finishHandler t m error?).destination = e.destination ∧
    (e.finishHandler t m error?).parkedTtl = e.parkedTtl ∧
    (e.finishHandler t m error?).store = e.store ∧
    (e.finishHandler t m error?).registry = e.registry ∧
    (e.finishHandler t m error?).board = e.board ∧
    (e.finishHandler t m error?).offers = e.offers ∧
    (e.finishHandler t m error?).tasks = e.tasks.erase t ∧
    (e.finishHandler t m error?).nextTask = e.nextTask := by
  cases error? with
  | none => exact ⟨rfl, rfl, rfl, rfl, rfl, rfl, rfl, rfl, rfl⟩
  | some error => cases hfault : Bus.faultOf m error <;> simp [finishHandler, hfault]

/-- Leaving a section changes neither cases nor records nor cached offers. -/
@[simp] theorem leave_frame (m : Message) (exit : Exit) :
    (e.leave t m exit).now = e.now ∧ (e.leave t m exit).destination = e.destination ∧
    (e.leave t m exit).parkedTtl = e.parkedTtl ∧
    (e.leave t m exit).store.cases = e.store.cases ∧
    (e.leave t m exit).store.ttl = e.store.ttl ∧
    (e.leave t m exit).registry = e.registry ∧ (e.leave t m exit).offers = e.offers ∧
    (e.leave t m exit).nextTask = e.nextTask := by
  cases exit with
  | done | publish next | record o | fault error => simp [leave]
  | call task => cases hcall : task.call? <;> simp [leave, hcall]

theorem cases_leave (m : Message) (exit : Exit) :
    (e.leave t m exit).store.cases = e.store.cases := by
  simp

theorem get?_leave (m : Message) (exit : Exit) (k : CorrelationKey) :
    (e.leave t m exit).store.get? k = e.store.get? k :=
  congrArg (Assoc.get? · k) (cases_leave e t m exit)

theorem registry_leave (m : Message) (exit : Exit) :
    (e.leave t m exit).registry = e.registry := by
  simp

theorem offers_leave (m : Message) (exit : Exit) : (e.leave t m exit).offers = e.offers := by
  simp

@[simp] theorem begin_frame (m : Message) :
    (e.begin t m).now = e.now ∧ (e.begin t m).destination = e.destination ∧
    (e.begin t m).parkedTtl = e.parkedTtl ∧ (e.begin t m).store = e.store ∧
    (e.begin t m).registry = e.registry ∧ (e.begin t m).offers = e.offers ∧
    (e.begin t m).tasks = e.tasks.erase t ∧ (e.begin t m).nextTask = e.nextTask := by
  unfold Engine.begin
  split <;> simp

end Engine

namespace Registry

@[simp] theorem get?_records_take (r : Registry) (now : Nat) (key k : CorrelationKey) :
    (r.take now key).2.records.get? k = if k = key then none else r.records.get? k := by
  unfold take
  cases h : r.records.get? key with
  | none =>
      by_cases hk : k = key
      · simp [hk, h]
      · simp [hk]
  | some record => simp

@[simp] theorem fst_take (r : Registry) (now : Nat) (key : CorrelationKey) :
    (r.take now key).1 = r.records.get? key := by
  unfold take
  cases h : r.records.get? key <;> rfl

/-- A key without a record takes a new one, and with it the contract parked for its negotiation. -/
theorem store_of_get?_eq_none (r : Registry) (key : CorrelationKey) (record : PendingRecord)
    (h : r.records.get? key = none) :
    r.store key record =
      .ok ((r.parked.get? record.negotiation).map ParkedConfirmation.contract,
        { records := r.records.insert key record
          index := r.index.insert record.negotiation key
          parked := r.parked.erase record.negotiation
          closed := r.closed.erase record.negotiation }) := by
  simp [store, Assoc.contains, h]

end Registry

namespace CaseStore

variable (s : CaseStore) (key k : CorrelationKey)

@[simp] theorem get?_remove :
    (s.remove key).get? k = if k = key then none else s.get? k := by
  simp [remove, get?]

@[simp] theorem get?_put (c : Case) :
    (s.put key c).get? k = if key = k then some c else s.get? k := by
  simp [put, get?]

/-- Cases can be read whatever the locks are. -/
@[simp] theorem get?_with_locks (locks : KeyLocks CorrelationKey) :
    ({ s with locks } : CaseStore).get? k = s.get? k := rfl

theorem live?_eq_none (h : s.get? key = none) : s.live? key = none := by
  simp [live?, h]

theorem live?_eq_some {c : Case} (h : s.get? key = some c) (hstage : c.stage.isTerminal = false) :
    s.live? key = some c := by
  simp [live?, h, Option.filter, hstage]

/-- A key without a case takes a new one. -/
theorem register_of_get?_eq_none (c : Case) (h : s.get? key = none) :
    s.register key c = .ok (s.put key c) := by
  have hfree : s.cases.contains key = false := by simpa [Assoc.contains, get?] using h
  simp [register, put, hfree]

end CaseStore

end Rendezvous
