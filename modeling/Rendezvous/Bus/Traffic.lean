import Rendezvous.Bus

/-!
# Traffic on a bus

A handler takes its time.  Between the moment a message is handed to it and the moment it ends,
other messages are published and handed over, and the handler may publish messages of its own.
`Traffic` is a bus with the calls of its handlers that are under way.  What a handler does is up to
the schedule: which messages it publishes, and when, and whether it ends with an error.

* `Traffic.act` is one step: somebody outside publishes, the bus hands its first message over, a
  handler publishes or ends, the bus stops;
* `Traffic.log` tells what has happened; its parts have views of their own (`posts`, `handed`,
  `ends`);
* `Dispatcher.schedule` is what a bus does whose handlers each finish in one step.
-/

namespace Rendezvous

/-- Who puts a message on the bus. -/
inductive Sender
  | outside
  /-- The handler at work on the call `n`. -/
  | handler (n : Nat)
  /-- The bus itself, because the handler of the call `n` has failed. -/
  | bus (n : Nat)
deriving DecidableEq

/-- A message handed to a handler. -/
structure HandlerCall (η : Type) where
  handler : η
  message : Message

/-- How the call `number` has ended. -/
structure CallEnd where
  number : Nat
  message : Message
  error? : Option EngineError

/-- The dead letter that the end of a call calls for. -/
def CallEnd.deadLetter? (e : CallEnd) : Option (Nat × Message) :=
  (e.error?.bind (Bus.faultOf e.message)).map (e.number, ·)

/-- Something that happened on a bus. -/
inductive TrafficEvent (η : Type)
  /-- The bus took a message. -/
  | published (s : Sender) (m : Message)
  | refused (s : Sender) (m : Message) (error : EngineError)
  /-- The call `n` began. -/
  | handed (n : Nat) (c : HandlerCall η)
  | ended (e : CallEnd)

namespace TrafficEvent

variable {η : Type}

/-- The message that the bus took, and from whom. -/
def post? : TrafficEvent η → Option (Sender × Message)
  | .published s m => some (s, m)
  | .refused .. | .handed .. | .ended _ => none

/-- The call that began. -/
def handed? : TrafficEvent η → Option (HandlerCall η)
  | .handed _ c => some c
  | .published .. | .refused .. | .ended _ => none

/-- The call that ended. -/
def ended? : TrafficEvent η → Option CallEnd
  | .ended e => some e
  | .published .. | .refused .. | .handed .. => none

/-- Whether a message was not taken because the bus is closed, or a call ended. -/
def IsAfterwards : TrafficEvent η → Prop
  | .refused _ _ error => error = .busClosed
  | .ended _ => True
  | .published .. | .handed .. => False

end TrafficEvent

/-- A step of a bus or of those around it. -/
inductive TrafficAction
  /-- Somebody outside publishes a message. -/
  | publish (m : Message)
  /-- The bus hands its first message to the handler bound to it. -/
  | dispatch
  /-- The handler at work on the call `n` publishes a message. -/
  | send (n : Nat) (m : Message)
  /-- The call `n` ends. -/
  | finish (n : Nat) (error? : Option EngineError)
  /-- The bus stops. -/
  | stop

/-- A bus with the calls that are under way. -/
structure Traffic (η : Type) where
  bindings : Bindings η
  bus : Bus := {}
  /-- The message of each call under way. -/
  calls : Assoc Nat Message := {}
  /-- Larger than the number of every call so far. -/
  nextCall : Nat := 0
  /-- What has happened, oldest first. -/
  log : List (TrafficEvent η) := []

namespace Traffic

variable {η : Type}

/-- Adds to the log. -/
def note (t : Traffic η) (ev : TrafficEvent η) : Traffic η := { t with log := t.log ++ [ev] }

/-- Puts a message on the bus, or tells why the bus does not take it. -/
def post (t : Traffic η) (s : Sender) (m : Message) : Traffic η :=
  match t.bus.refusal? with
  | some error => t.note (.refused s m error)
  | none => ({ t with bus := t.bus.publish m }).note (.published s m)

/-- Hands the first message to the handler bound to its channel. -/
def handOver (t : Traffic η) : Traffic η :=
  match t.bus.queue with
  | [] => t
  | m :: rest =>
      let t := { t with bus := { t.bus with queue := rest } }
      match Assoc.get? t.bindings m.channel with
      | none => t
      | some handler =>
          ({ t with
              calls := t.calls.insert t.nextCall m
              nextCall := t.nextCall + 1 }).note (.handed t.nextCall { handler, message := m })

/-- The call `n`, which is about `m`, ends; an error becomes a dead letter. -/
def conclude (t : Traffic η) (n : Nat) (m : Message) (error? : Option EngineError) : Traffic η :=
  let t := ({ t with calls := t.calls.erase n }).note (.ended { number := n, message := m, error? })
  match error?.bind (Bus.faultOf m) with
  | none => t
  | some dead => t.post (.bus n) dead

/-- What an action does; an action that does not fit the state does nothing. -/
def act (t : Traffic η) : TrafficAction → Traffic η
  | .publish m => t.post .outside m
  | .dispatch => t.handOver
  | .send n m => if t.calls.contains n then t.post (.handler n) m else t
  | .finish n error? =>
      match t.calls.get? n with
      | some m => t.conclude n m error?
      | none => t
  | .stop => { t with bus := t.bus.close }

/-- The state after a schedule. -/
def after (t : Traffic η) (as : List TrafficAction) : Traffic η := as.foldl act t

/-- The messages that the bus took, in that order, each with its sender. -/
def posts (t : Traffic η) : List (Sender × Message) := t.log.filterMap TrafficEvent.post?

/-- The calls, in the order in which they began. -/
def handed (t : Traffic η) : List (HandlerCall η) := t.log.filterMap TrafficEvent.handed?

/-- The calls that have ended, in that order. -/
def ends (t : Traffic η) : List CallEnd := t.log.filterMap TrafficEvent.ended?

end Traffic

/-- The call whose failure made the bus send a message. -/
def Sender.failed? : Sender → Option Nat
  | .bus n => some n
  | .outside | .handler _ => none

/-- Whether a handler sends. -/
def Sender.isHandler : Sender → Bool
  | .handler _ => true
  | .outside | .bus _ => false

namespace Dispatcher

variable {σ : Type}

/-- Messages from outside, and the turns in between at which one message is handled. -/
inductive Move
  | publish (m : Message)
  | step

/-- The message that comes from outside. -/
def Move.message? : Move → Option Message
  | .publish m => some m
  | .step => none

/-- One move. -/
def move (d : Dispatcher σ) : Move → Dispatcher σ
  | .publish m => { d with bus := d.bus.publish m }
  | .step => d.step

/-- The state after the moves. -/
def play (d : Dispatcher σ) (moves : List Move) : Dispatcher σ := moves.foldl move d

/-- What happens to the first message when its call has the number `n`: it is handed over, its
handler publishes what it has to and ends. -/
def actions (d : Dispatcher σ) (n : Nat) : List TrafficAction :=
  match d.bus.queue with
  | [] => []
  | m :: _ =>
      match Assoc.get? d.bindings m.channel with
      | none => [.dispatch]
      | some h =>
          let (_, published, error?) := h d.state m
          .dispatch :: published.map (.send n) ++ [.finish n error?]

/-- The moves as a schedule; the next call has the number `n`. -/
def schedule (d : Dispatcher σ) (n : Nat) : List Move → List TrafficAction
  | [] => []
  | .publish m :: moves => .publish m :: (d.move (.publish m)).schedule n moves
  | .step :: moves =>
      d.actions n ++ d.step.schedule (if d.bus.queue.isEmpty then n else n + 1) moves

/-- No handler publishes anything by itself. -/
def Silent (b : Bindings (Handler σ)) : Prop :=
  ∀ c h, Assoc.get? b c = some h → ∀ s m, (h s m).2.1 = []

end Dispatcher

end Rendezvous
