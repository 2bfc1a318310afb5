import Rendezvous.Engine.Run
import Rendezvous.Provider.Services

/-!
# Hosting an engine

A host runs the tasks of an engine in the order in which they became able to run, answers its calls,
and keeps its clock.  The clock stands still while anything can run and then goes to the next timer;
timers due at one instant go off in the order in which they were set.

* `settle` runs everything that can run;
* `sleep` lets time pass;
* `waitFor` and `underLock` are what a caller does that cannot go on before something happens.
-/

namespace Rendezvous

/-- Something that can run. -/
inductive Turn
  /-- Hand out the queued messages. -/
  | dispatch
  | task (t : TaskId)
  /-- Begin to wait for the delay of an aftermath. -/
  | aftermath (a : Aftermath)
  /-- Send callbacks until one is not taken. -/
  | callbacks (cs : List Callback)
  /-- Begin the next periodic sweep. -/
  | sweep

/-- Whether a turn is that of task `t`. -/
def Turn.isTask (t : TaskId) : Turn → Bool
  | .task t' => t' = t
  | _ => false

/-- A turn that comes at its time. -/
structure Timer where
  due : Nat
  turn : Turn

/-- Periodic sweeps. -/
structure Ticker where
  interval : Nat
  /-- When the next sweep is due. -/
  due : Nat
  /-- The periodic sweep under way. -/
  sweep? : Option TaskId := none

/-- How late a sweep may begin without moving the sweeps after it. -/
def tickTolerance : Nat := 5

/-- The sweep after one that was due at `due` and began at `now`. -/
def Ticker.next (k : Ticker) (now : Nat) : Nat :=
  if k.due + tickTolerance < now then now + k.interval else k.due + k.interval

/-- An engine, the services around it, and its clock. -/
structure Host (σ : Type) where
  engine : Engine
  services : σ
  /-- What can run, first come first. -/
  ready : List Turn := []
  /-- The timers, in the order in which they were set. -/
  timers : List Timer := []
  ticker? : Option Ticker := none
  /-- Tasks to be dropped when their turn comes. -/
  aborted : List TaskId := []
  /-- What has happened and when, latest first. -/
  log : List (Nat × Event) := []

namespace Host

variable {σ : Type}

/-- The present instant. -/
def now (h : Host σ) : Nat := h.engine.now

/-- Puts the turn of a task last, unless it is to come anyway. -/
def wake (h : Host σ) (t : TaskId) : Host σ :=
  if h.ready.any (Turn.isTask t) then h else { h with ready := h.ready ++ [.task t] }

/-- Sees to it that queued messages are handed out. -/
def wakeBus (h : Host σ) : Host σ :=
  if h.ready.any (fun | .dispatch => true | _ => false) then h
  else { h with ready := h.ready ++ [.dispatch] }

/-- Sets a timer. -/
def setTimer (h : Host σ) (due : Nat) (turn : Turn) : Host σ :=
  { h with timers := h.timers ++ [{ due, turn }] }

/-- Goes on with the periodic sweeps after one has ended. -/
def rewind (h : Host σ) (k : Ticker) : Host σ :=
  let h := { h with ticker? := some { k with sweep? := none } }
  if k.due ≤ h.now then { h with ready := .sweep :: h.ready } else h.setTimer k.due .sweep

/-- Takes note of an event. -/
def absorb (h : Host σ) (ev : Event) : Host σ :=
  let h := { h with log := (h.now, ev) :: h.log }
  match ev with
  | .published _ => h.wakeBus
  | .spawned t | .granted t | .notified t => h.wake t
  | .finished t _ =>
      match h.ticker? with
      | some k => if k.sweep? = some t then h.rewind k else h
      | none => h
  | _ => h

/-- Changes the engine and takes note of what happened. -/
def apply (h : Host σ) (f : Engine → Engine) : Host σ :=
  let engine := f { h.engine with history := [] }
  engine.history.reverse.foldl absorb { h with engine := { engine with history := [] } }

/-- Adds a task to the engine. -/
def spawn (h : Host σ) (task : Task) : TaskId × Host σ :=
  (h.engine.nextTask, h.apply fun e => (e.spawn task).2)

/-- Answers up to `n` calls of a task. -/
def answerCalls [Services σ] : Nat → TaskId → Host σ → Host σ
  | 0, _, h => h
  | n + 1, t, h =>
      match h.engine.call? t with
      | none => h
      | some call =>
          let (reply, aftermath, services) := Services.respond h.services call
          let ready := h.ready ++ aftermath.map .aftermath
          answerCalls n t (({ h with services, ready }).apply fun e => e.reply t reply)

/-- The most calls that one handler makes. -/
def callsPerTask : Nat := 2

/-- Sets the timer of a task that waits until a deadline, in the place of an older one. -/
def renewTimer (h : Host σ) (t : TaskId) : Host σ :=
  match h.engine.tasks.get? t with
  | some (.awaiting _ deadline) =>
      ({ h with timers := h.timers.filter fun w => !w.turn.isTask t }).setTimer deadline (.task t)
  | _ => h

/-- The turn of a task. -/
def runTask [Services σ] (h : Host σ) (t : TaskId) : Host σ :=
  if h.aborted.contains t then
    ({ h with aborted := h.aborted.filter (· ≠ t) }).apply fun e => e.cancel t
  else
    (answerCalls callsPerTask t (h.apply fun e => e.run t)).renewTimer t

/-- Sends callbacks until one is not taken. -/
def callBack : List Callback → Host σ → Host σ
  | [], h => h
  | c :: rest, h =>
      let refusal? := (h.engine.deliver c).2
      let h := h.apply fun e => (e.deliver c).1
      if refusal?.isSome then h else callBack rest h

/-- Begins a periodic sweep. -/
def beginSweep (h : Host σ) (k : Ticker) : Host σ :=
  let t := h.engine.nextTask
  let h := { h with ticker? := some { k with due := k.next h.now, sweep? := some t } }
  h.apply fun e => (e.addTask .sweeping).2.run t

/-- Takes the first turn. -/
def step [Services σ] (h : Host σ) : Host σ :=
  match h.ready with
  | [] => h
  | turn :: rest =>
      let h := { h with ready := rest }
      match turn with
      | .dispatch => h.apply Engine.dispatch
      | .task t => h.runTask t
      | .aftermath a =>
          if a.delay = 0 then callBack a.callbacks h
          else h.setTimer (h.now + a.delay) (.callbacks a.callbacks)
      | .callbacks cs => callBack cs h
      | .sweep =>
          match h.ticker? with
          | none => h
          | some k => h.beginSweep k

/-- At most `n` turns. -/
def steps [Services σ] : Nat → Host σ → Host σ
  | 0, h => h
  | n + 1, h => if h.ready.isEmpty then h else steps n h.step

/-- A bound on the turns that can come without time passing.  Every message, task, case and callback
leads to a few messages, and every outcome wakes each task once. -/
def turnBound (h : Host σ) : Nat :=
  let e := h.engine
  let work := h.ready.length + h.timers.length + e.bus.queue.length + e.tasks.size
    + e.store.cases.size + 1
  64 * work * (e.tasks.size + 1)

/-- Runs everything that can run. -/
def settle [Services σ] (h : Host σ) : Host σ := steps h.turnBound h

/-- The instant of the next timer. -/
def nextDue? (h : Host σ) : Option Nat := (h.timers.map Timer.due).min?

/-- Goes to an instant; what is due by then can run. -/
def goTo (h : Host σ) (instant : Nat) : Host σ :=
  let (due, later) := h.timers.partition fun w => w.due ≤ instant
  let woken := due.foldl
    (fun h w => match w.turn with
      | .task t => h.wake t
      | turn => { h with ready := h.ready ++ [turn] })
    { h with engine := { h.engine with now := instant }, timers := later }
  woken

/-- Lets time pass up to `target`, timer by timer, at most `n` of them. -/
def passTime [Services σ] : Nat → Nat → Host σ → Host σ
  | 0, _, h => h
  | n + 1, target, h =>
      let h := h.settle
      match h.nextDue? with
      | some due => if due ≤ target then passTime n target (h.goTo due) else h.goTo target
      | none => h.goTo target

/-- Lets `span` pass; everything due by then is done. -/
def sleep [Services σ] (h : Host σ) (span : Nat) : Host σ :=
  (passTime (span + 2) (h.now + span) h).settle

/-- Goes on until `look` finds something or `deadline` comes.  At the deadline the caller looks once
more before anything else that is due then. -/
def waitUntil [Services σ] {α : Type} (look : Host σ → Option α × Host σ) :
    Nat → Nat → Host σ → Option α × Host σ
  | 0, _, h => (none, h)
  | n + 1, deadline, h =>
      match look h with
      | (some a, h) => (some a, h)
      | (none, h) =>
          if deadline ≤ h.now then (none, h)
          else
            match look h.settle with
            | (some a, h) => (some a, h)
            | (none, h) =>
                match h.nextDue? with
                | some due =>
                    if due < deadline then waitUntil look n deadline (h.goTo due)
                    else look (h.goTo deadline)
                | none => look (h.goTo deadline)

/-- Reads and consumes an outcome. -/
def takeOutcome (h : Host σ) (key : CorrelationKey) : Option Outcome × Host σ :=
  ((h.engine.takeOutcome key).1, h.apply fun e => (e.takeOutcome key).2)

/-- Waits up to `span` for the outcome of `key`; without a value if the deadline is not an instant.
-/
def waitFor [Services σ] (h : Host σ) (key : CorrelationKey) (span : Nat) :
    Option (Option Outcome × Host σ) :=
  (deadline? h.now span).map fun deadline =>
    waitUntil (fun h => h.takeOutcome key) (span + 1) deadline h

/-- Does something to the engine under the lock of `key`, if the lock can be had within `patience`.
-/
def underLock [Services σ] {α : Type} (h : Host σ) (key : CorrelationKey) (patience : Nat)
    (f : Engine → α × Engine) : Option α × Host σ :=
  let t := h.engine.nextTask
  let h := h.apply fun e => (e.addTask (.claiming key)).2.askLock t key
  let look (h : Host σ) : Option Unit × Host σ :=
    (if h.engine.owns t key then some () else none, h)
  match waitUntil look (patience + 1) (h.now + patience) h with
  | (none, h) => (none, h.apply fun e => e.cancel t)
  | (some (), h) =>
      let a := (f h.engine).1
      (some a, h.apply fun e => (f e).2.cancel t)

/-- Drops a task that waits for its lock when its turn comes; tells whether there was one. -/
def abort (h : Host σ) (t : TaskId) : Bool × Host σ :=
  match h.engine.tasks.get? t with
  | some (.locking _) | some (.seeking _) =>
      (true, ({ h with aborted := t :: h.aborted.filter (· ≠ t) }).wake t)
  | _ => (false, h)

/-- An outside holder gives its lock back; tells whether it had one. -/
def letGo (h : Host σ) (t : TaskId) : Bool × Host σ :=
  match h.engine.tasks.get? t with
  | some (.holding _) => (true, h.apply fun e => e.letGo t)
  | _ => (false, h)

/-- Stops the bus and the periodic sweeps. -/
def stop (h : Host σ) : Host σ :=
  { h with
    engine := { h.engine with bus := h.engine.bus.close }
    ticker? := none
    timers := h.timers.filter fun w => match w.turn with | .sweep => false | _ => true }

end Host

end Rendezvous
