import Rendezvous.Engine.Stages
import Rendezvous.Message.Description

/-!
# Running the tasks of an engine

`Engine.stride` takes a task to the next point where it can be held up: before it asks for a lock,
before it enters the section of a lock that it owns, while a service is asked, and between any two
keys of a sweep.  `Engine.run` strides as far as the task can go, `Engine.reply` hands it the answer
of a service, and `Engine.dispatch` turns the queued messages into tasks.  Nothing here says which
task goes first: that is the host's choice, and whatever the choice, a state reached is a state
reached by these steps.
-/

namespace Rendezvous

/-- The most strides that a task can make before it has to wait for something. -/
def Task.reach : Task → Nat
  | .arriving _ | .seeking _ => 2
  | .walking sweep => 2 * sweep.rest.length + 1
  | .locking (.evict sweep _ _) => 2 * sweep.rest.length + 2
  | .locking _ | .awaiting .. => 1
  | _ => 0

namespace Engine

/-- Hands the first queued message to a task of its own. -/
def dispatchNext (e : Engine) : Engine :=
  match e.bus.queue with
  | [] => e
  | m :: rest => (({ e with bus := { e.bus with queue := rest } } : Engine).spawn (.arriving m)).2

/-- Turns every queued message into a task of its own, in publish order. -/
def dispatch (e : Engine) : Engine := Nat.repeat dispatchNext e.bus.queue.length e

/-- A sweep's look at one expired case, under the lock of its key: if the case is in the stage seen
before and was expired when the sweep started, it is closed and times out.  Tells whether it was. -/
def evict (e : Engine) (t : TaskId) (startedAt : Nat) (key : CorrelationKey) (seen : Stage) :
    Bool × Engine :=
  match e.store.get? key with
  | none => (false, e.leaveLock t key)
  | some c =>
      if c.stage = seen && c.isExpired e.store.ttl startedAt then
        let e := ((e.close key).leaveLock t key).note (.evicted key)
        (true, e.publish (.failed key .timeout))
      else (false, e.leaveLock t key)

/-- The end of a sweep: whatever else has outlived its use is dropped. -/
def finishSweep (e : Engine) (t : TaskId) (startedAt evicted : Nat) : Engine :=
  let (_, registry) := e.registry.purgeParked startedAt e.parkedTtl
  let (_, registry) := registry.purgeClosed startedAt e.store.ttl
  let (_, board) := e.board.purge e.now
  let (_, offers) := e.offers.purge e.now
  ({ e with registry, board, offers }).finish t (.swept evicted)

/-- A sweep visits the case of `key`, whose lock it owns, and is then between two keys. -/
def visit (e : Engine) (t : TaskId) (sweep : Sweep) (key : CorrelationKey) (seen : Stage) :
    Engine :=
  let (hit, e) := e.evict t sweep.startedAt key seen
  e.setTask t
    (.walking { sweep with evicted := if hit then sweep.evicted + 1 else sweep.evicted })

/-- Task `t` joins the queue for the lock that `s` needs. -/
def queueUp (e : Engine) (t : TaskId) (s : Section) : Engine :=
  (e.askLock t s.key).setTask t (.locking s)

/-- Runs the critical section of a task that owns its lock. -/
def enter (e : Engine) (t : TaskId) : Section → Engine
  | .handle m =>
      let (e, exit) := e.handle m
      e.leave t m exit
  | .evict sweep key seen => e.visit t sweep key seen
  | .keep key => (e.setTask t (.holding key)).note (.held t key)

/-- Handles a message that needs no lock.  Outcomes go to the board; a dead letter that is neither a
failure nor a fault is an outcome of its own. -/
def begin (e : Engine) (t : TaskId) (m : Message) : Engine :=
  match m.channel, m.payload with
  | .result, .completed reference =>
      (e.record m.key (.success reference)).finishHandler t m none
  | .dlq, .failed reason => (e.record m.key (.error reason)).finishHandler t m none
  | .dlq, payload =>
      let reason := FailureReason.internal ("unexpected dead letter: " ++ payload.describe)
      (e.record m.key (.error reason)).finishHandler t m none
  | _, _ => e.finishHandler t m none

/-- A waiting task looks for its outcome; if there is none before the deadline it listens again. -/
def lookForOutcome (e : Engine) (t : TaskId) (key : CorrelationKey) (deadline : Nat) : Engine :=
  let (o, e) := e.takeOutcome key
  if o.isSome || deadline ≤ e.now then
    ({ e with board := e.board.unlisten t }).finish t (.outcome o)
  else { e with board := e.board.listen t }

/-- Takes a task to the next point where it can be held up. -/
def stride (e : Engine) (t : TaskId) : Engine :=
  match e.tasks.get? t with
  | some (.arriving m) => if m.needsLock then e.queueUp t (.handle m) else e.begin t m
  | some (.walking sweep) =>
      match sweep.rest with
      | [] => e.finishSweep t sweep.startedAt sweep.evicted
      | (key, seen) :: rest => e.queueUp t (.evict { sweep with rest } key seen)
  | some (.seeking key) => e.queueUp t (.keep key)
  | some (.locking s) => if e.owns t s.key then e.enter t s else e
  | some (.awaiting key deadline) => e.lookForOutcome t key deadline
  | _ => e

/-- A sweep looks which cases are expired, and is then before the first of their keys. -/
def lookAround (e : Engine) (t : TaskId) (startedAt : Nat) (seen : List (CorrelationKey × Stage)) :
    Engine :=
  e.setTask t (.walking { startedAt, rest := seen })

/-- Lets a task stride until it has to wait. -/
def goOn (e : Engine) (t : TaskId) : Engine :=
  match e.tasks.get? t with
  | some task => Nat.repeat (stride · t) task.reach e
  | none => e

/-- Takes a task as far as it can go; a task that has to wait stays where it is. -/
def run (e : Engine) (t : TaskId) : Engine :=
  match e.tasks.get? t with
  | some .sweeping => (e.lookAround t e.now (e.store.expired e.now)).goOn t
  | _ => e.goOn t

/-- The call whose reply task `t` waits for. -/
def call? (e : Engine) (t : TaskId) : Option Call := (e.tasks.get? t).bind Task.call?

/-- Hands a service's answer to the task that called it. -/
def reply (e : Engine) (t : TaskId) (r : Reply) : Engine :=
  match e.tasks.get? t, r with
  | some (.resolving m asset provider), .offer answer =>
      let (e, exit) := e.onOffer m asset provider answer
      e.leave t m exit
  | some (.negotiating m asset provider offer), .negotiation answer =>
      let (e, exit) := e.onNegotiation m asset provider offer answer
      e.leave t m exit
  | some (.transferring m c request), .transfer answer =>
      let (e, exit) := e.onTransfer m c request.contract answer
      e.leave t m exit
  | _, _ => e

/-- An outside holder gives its lock back. -/
def letGo (e : Engine) (t : TaskId) : Engine :=
  match e.tasks.get? t with
  | some (.holding key) => (e.leaveLock t key).finish t .handled
  | _ => e

/-- Drops a task that has not got its lock, or has not yet noticed that it has. -/
def cancel (e : Engine) (t : TaskId) : Engine :=
  match e.tasks.get? t with
  | some (.locking s) => (e.leaveLock t s.key).finish t .cancelled
  | some (.claiming key) => (e.leaveLock t key).finish t .cancelled
  | some (.seeking _) => e.finish t .cancelled
  | _ => e

/-- Publishes a message and tells what stopped it. -/
def send (e : Engine) (key : CorrelationKey) (channel : Channel) (payload : Payload) :
    Engine × Option EngineError :=
  (e.publish { key, channel, payload }, e.bus.refusal?)

/-- Takes a callback in.  Callbacks of a negotiation carry its id and are matched to a key first;
one that matches no negotiation is dropped, except that an early confirmation is parked. -/
def deliver (e : Engine) : Callback → Engine × Option EngineError
  | .accepted n =>
      match e.registry.keyFor? n with
      | none => (e, none)
      | some key => e.send key .contractNegotiation (.negotiationAccepted n)
  | .confirmed n contract =>
      match e.registry.resolveOrPark e.now n contract with
      | (.pending key, _) =>
          e.send key .contractConfirmation (.contractConfirmed n contract)
      | (_, registry) => ({ e with registry }, none)
  | .negotiationFailed n reason =>
      match e.registry.keyFor? n with
      | none => (e, none)
      | some key => e.send key .contractNegotiation (.negotiationFailed n reason)
  | .transferStarted key => e.send key .dataReference .transferStarted
  | .dataReference key reference => e.send key .dataReference (.dataReference reference)
  | .transferFailed key reason => e.send key .dataReference (.transferFailed reason)
end Engine

end Rendezvous
