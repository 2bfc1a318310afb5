import Rendezvous.Engine.Schedule

/-!
# What an action amounts to

`Engine.Step e a e'` lists everything that an action can amount to, one row for each kind of step,
with the facts about the state under which the row applies.  `act_step` says that `Engine.act` does
nothing else.  Whatever holds of every schedule is shown by one case analysis over these rows.
-/

namespace Rendezvous

/-- The message that a task is about to handle. -/
def Task.message? : Task → Option Message
  | .arriving m | .locking (.handle m) => some m
  | _ => none

/-- The message of a task that has not begun to handle it. -/
def Task.arriving? : Task → Option Message
  | .arriving m => some m
  | _ => none

/-- The message that brings a notice to the case of `key`. -/
def Callback.message (key : CorrelationKey) : Callback → Message
  | .accepted n => { key, channel := .contractNegotiation, payload := .negotiationAccepted n }
  | .confirmed n contract =>
      { key, channel := .contractConfirmation, payload := .contractConfirmed n contract }
  | .negotiationFailed n reason =>
      { key, channel := .contractNegotiation, payload := .negotiationFailed n reason }
  | .transferStarted _ => { key, channel := .dataReference, payload := .transferStarted }
  | .dataReference _ reference =>
      { key, channel := .dataReference, payload := .dataReference reference }
  | .transferFailed _ reason =>
      { key, channel := .dataReference, payload := .transferFailed reason }

/-- The key that a notice is about: it names the key, or a negotiation in flight. -/
def Callback.key? (r : Registry) : Callback → Option CorrelationKey
  | .accepted n | .confirmed n _ | .negotiationFailed n _ => r.keyFor? n
  | .transferStarted key | .dataReference key _ | .transferFailed key _ => some key

/-- The task that an action begins. -/
def Action.begins? : Action → Option Task
  | .beginSweep => some .sweeping
  | .beginWait key deadline => some (.awaiting key deadline)
  | .beginHold key => some (.seeking key)
  | _ => none

/-- A task that asks for the lock of a section next. -/
inductive Task.Joins : Task → Section → Prop
  | handle (m : Message) (hlock : m.needsLock) : Joins (.arriving m) (.handle m)
  | evict (sweep : Sweep) (key : CorrelationKey) (seen : Stage)
      (rest : List (CorrelationKey × Stage)) (hrest : sweep.rest = (key, seen) :: rest) :
      Joins (.walking sweep) (.evict { sweep with rest } key seen)
  | keep (key : CorrelationKey) : Joins (.seeking key) (.keep key)

/-- A task that begins stands in no queue and has no message. -/
theorem Action.idle_of_begins? {a : Action} {task : Task} (h : a.begins? = some task) :
    task.key? = none ∧ task.call? = none ∧ task.message? = none := by
  cases a <;> simp only [Action.begins?, reduceCtorEq, Option.some.injEq] at h <;> subst h <;>
    exact ⟨rfl, rfl, rfl⟩

/-- Who asks for a lock stands in no queue yet, and takes only its own message there. -/
theorem Task.Joins.outside {old : Task} {s : Section} (h : old.Joins s) :
    old.key? = none ∧ ∀ m, (Task.locking s).message? = some m → old.message? = some m := by
  cases h with
  | handle m hlock => exact ⟨rfl, fun _ hm => hm⟩
  | evict => exact ⟨rfl, fun _ hm => by cases hm⟩
  | keep => exact ⟨rfl, fun _ hm => by cases hm⟩

/-- What the action `a` can make of the engine `e`. -/
inductive Engine.Step (e : Engine) : Action → Engine → Prop
  /-- The action does not fit the state. -/
  | idle (a : Action) : Step e a e
  | submit (r : DataRequest) : Step e (.submit r) (e.publish (.ofRequest r))
  /-- A notice finds its key. -/
  | forward (c : Callback) (key : CorrelationKey) (hkey : c.key? e.registry = some key) :
      Step e (.notify c) (e.publish (c.message key))
  /-- A confirmation finds its negotiation unknown. -/
  | park (n : NegotiationId) (contract : ContractId) (hindex : e.registry.index.get? n = none)
      (hclosed : e.registry.closed.contains n = false) :
      Step e (.notify (.confirmed n contract))
        { e with
          registry :=
            { e.registry with
              parked := e.registry.parked.insert n { contract, since := e.now } } }
  | dispatch (m : Message) (rest : List Message) (hqueue : e.bus.queue = m :: rest) :
      Step e .dispatch
        (({ e with bus := { e.bus with queue := rest } } : Engine).spawn (.arriving m)).2
  | begin (a : Action) (task : Task) (hbegins : a.begins? = some task) : Step e a (e.spawn task).2
  | look (t : TaskId) (startedAt : Nat) (seen : List (CorrelationKey × Stage))
      (hold : e.tasks.get? t = some .sweeping) (hstart : startedAt ≤ e.now)
      (hseen : seen.Perm (e.store.expired startedAt)) :
      Step e (.look t startedAt seen) (e.lookAround t startedAt seen)
  | queueUp (t : TaskId) (old : Task) (s : Section) (hold : e.tasks.get? t = some old)
      (hjoins : old.Joins s) : Step e (.stride t) (e.queueUp t s)
  /-- A message that needs no lock is handled. -/
  | outcome (t : TaskId) (m : Message) (hold : e.tasks.get? t = some (.arriving m))
      (hlock : m.needsLock = false) : Step e (.stride t) (e.begin t m)
  | handle (t : TaskId) (m : Message) (hold : e.tasks.get? t = some (.locking (.handle m)))
      (ho : e.store.locks.owner? m.key = some t) :
      Step e (.stride t) ((e.handle m).1.leave t m (e.handle m).2)
  | visit (t : TaskId) (sweep : Sweep) (key : CorrelationKey) (seen : Stage)
      (hold : e.tasks.get? t = some (.locking (.evict sweep key seen)))
      (ho : e.store.locks.owner? key = some t) : Step e (.stride t) (e.visit t sweep key seen)
  | keep (t : TaskId) (key : CorrelationKey)
      (hold : e.tasks.get? t = some (.locking (.keep key)))
      (ho : e.store.locks.owner? key = some t) :
      Step e (.stride t) ((e.setTask t (.holding key)).note (.held t key))
  | finishSweep (t : TaskId) (sweep : Sweep) (hold : e.tasks.get? t = some (.walking sweep))
      (hrest : sweep.rest = []) : Step e (.stride t) (e.finishSweep t sweep.startedAt sweep.evicted)
  | listen (t : TaskId) (key : CorrelationKey) (deadline : Nat)
      (hold : e.tasks.get? t = some (.awaiting key deadline)) :
      Step e (.stride t) (e.lookForOutcome t key deadline)
  | offer (t : TaskId) (m : Message) (asset : AssetId) (provider : String)
      (answer : Except EngineError ContractOffer)
      (hold : e.tasks.get? t = some (.resolving m asset provider)) :
      Step e (.reply t (.offer answer))
        ((e.onOffer m asset provider answer).1.leave t m (e.onOffer m asset provider answer).2)
  | negotiation (t : TaskId) (m : Message) (asset : AssetId) (provider : String)
      (offer : ContractOffer) (answer : Except EngineError NegotiationId)
      (hold : e.tasks.get? t = some (.negotiating m asset provider offer)) :
      Step e (.reply t (.negotiation answer))
        ((e.onNegotiation m asset provider offer answer).1.leave t m
          (e.onNegotiation m asset provider offer answer).2)
  | transfer (t : TaskId) (m : Message) (c : Case) (request : TransferRequest)
      (answer : Except EngineError TransferProcessId)
      (hold : e.tasks.get? t = some (.transferring m c request)) :
      Step e (.reply t (.transfer answer))
        ((e.onTransfer m c request.contract answer).1.leave t m
          (e.onTransfer m c request.contract answer).2)
  | take (key : CorrelationKey) : Step e (.take key) (e.takeOutcome key).2
  | letGo (t : TaskId) (key : CorrelationKey) (hold : e.tasks.get? t = some (.holding key)) :
      Step e (.letGo t) ((e.leaveLock t key).finish t .handled)
  /-- Somebody outside leaves the queue of a lock. -/
  | leaveQueue (t : TaskId) (key : CorrelationKey)
      (hold : e.tasks.get? t = some (.locking (.keep key))) :
      Step e (.cancel t) ((e.leaveLock t key).finish t .cancelled)
  /-- Somebody outside does not even ask for a lock. -/
  | neverMind (t : TaskId) (key : CorrelationKey) (hold : e.tasks.get? t = some (.seeking key)) :
      Step e (.cancel t) (e.finish t .cancelled)
  | pass (span : Nat) : Step e (.pass span) { e with now := e.now + span }

namespace Engine

variable (e : Engine)

theorem step_deliver (c : Callback) : e.Step (.notify c) (e.deliver c).1 := by
  cases c with
  | accepted n =>
      unfold deliver
      dsimp only
      split
      · exact .idle _
      · exact .forward (.accepted n) _ ‹_›
  | negotiationFailed n reason =>
      unfold deliver
      dsimp only
      split
      · exact .idle _
      · exact .forward (.negotiationFailed n reason) _ ‹_›
  | confirmed n contract =>
      unfold deliver Registry.resolveOrPark
      dsimp only
      cases hindex : e.registry.index.get? n with
      | some key => exact .forward (.confirmed n contract) key hindex
      | none =>
          cases hclosed : e.registry.closed.contains n with
          -- a negotiation that was closed is told nothing more
          | true => exact .idle _
          | false => exact .park n contract hindex hclosed
  | transferStarted key => exact .forward (.transferStarted key) key rfl
  | dataReference key reference => exact .forward (.dataReference key reference) key rfl
  | transferFailed key reason => exact .forward (.transferFailed key reason) key rfl

/-- A task that owns its lock runs its section. -/
theorem step_enter {t : TaskId} {s : Section} (hold : e.tasks.get? t = some (.locking s))
    (howns : e.owns t s.key) : e.Step (.stride t) (e.enter t s) := by
  have ho : e.store.locks.owner? s.key = some t := by simpa [owns] using howns
  cases s with
  | handle m => exact .handle t m hold ho
  | evict sweep key seen => exact .visit t sweep key seen hold ho
  | keep key => exact .keep t key hold ho

theorem step_stride (t : TaskId) : e.Step (.stride t) (e.stride t) := by
  unfold stride
  cases hold : e.tasks.get? t with
  | none => exact .idle _
  | some task =>
      cases task with
      | arriving m =>
          dsimp only
          split
          · exact .queueUp t _ _ hold (.handle m ‹_›)
          · exact .outcome t m hold (Bool.eq_false_iff.mpr ‹_›)
      | walking sweep =>
          dsimp only
          split
          · exact .finishSweep t sweep hold ‹_›
          · exact .queueUp t _ _ hold (.evict sweep _ _ _ ‹_›)
      | seeking key => exact .queueUp t _ _ hold (.keep key)
      | locking s =>
          dsimp only
          split
          · exact e.step_enter hold ‹_›
          · exact .idle _
      | awaiting key deadline => exact .listen t key deadline hold
      | sweeping | claiming | resolving | negotiating | transferring | holding => exact .idle _

theorem step_reply (t : TaskId) (r : Reply) : e.Step (.reply t r) (e.reply t r) := by
  unfold reply
  split
  · exact .offer t _ _ _ _ ‹_›
  · exact .negotiation t _ _ _ _ _ ‹_›
  · exact .transfer t _ _ _ _ ‹_›
  · exact .idle _

theorem step_giveUp (t : TaskId) : e.Step (.cancel t) (e.giveUp t) := by
  unfold giveUp
  split
  · rename_i key hold
    unfold cancel
    rw [hold]
    exact .neverMind t key hold
  · rename_i key hold
    unfold cancel
    rw [hold]
    exact .leaveQueue t key hold
  · exact .idle _

/-- An action does what one of the rows says. -/
theorem act_step (a : Action) : e.Step a (e.act a) := by
  cases a with
  | submit r => exact .submit r
  | notify c => exact e.step_deliver c
  | dispatch =>
      show e.Step .dispatch e.dispatchNext
      unfold dispatchNext
      split
      · exact .idle _
      · exact .dispatch _ _ ‹_›
  | beginSweep | beginWait | beginHold => exact .begin _ _ rfl
  | look t startedAt seen =>
      show e.Step (.look t startedAt seen) (e.look t startedAt seen)
      unfold look
      split
      · rename_i hold
        split
        · rename_i hguard
          exact .look t startedAt seen hold hguard.1 hguard.2
        · exact .idle _
      · exact .idle _
  | stride t => exact e.step_stride t
  | reply t r => exact e.step_reply t r
  | take key => exact .take key
  | letGo t =>
      show e.Step (.letGo t) (e.letGo t)
      unfold letGo
      split
      · exact .letGo t _ ‹_›
      · exact .idle _
  | cancel t => exact e.step_giveUp t
  | pass span => exact .pass span

end Engine

end Rendezvous
