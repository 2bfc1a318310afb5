import Rendezvous.OutcomeBoard

/-!
# The lobby before the board

Those who wait for an outcome do so in steps, and anything may happen between two of them: a wait
first listens to the board, then looks for its outcome, and sleeps if there is none.  A record wakes
every listener, whatever its key, so a wait that is woken begins again.  One whose deadline has come
looks once more and leaves.  An outcome is put up in one step and announced in another.

A `Lobby` is a board with the waits before it, and `Lobby.act` is one step.

* `OutcomeBoard.record_eq` says that putting up and announcing at one go is what a record does;
* `Lobby.log` tells what has happened, with the instant of each event;
* `Lobby.Settled` says that nobody can go on by itself.
-/

namespace Rendezvous

namespace OutcomeBoard

/-- Puts up the outcome of `key`, over an older one. -/
def put (b : OutcomeBoard) (now : Nat) (key : CorrelationKey) (o : Outcome) : OutcomeBoard :=
  { b with outcomes := b.outcomes.insert now key o }

/-- Wakes every listener. -/
def wake (b : OutcomeBoard) : OutcomeBoard := { b with listeners := [] }

theorem record_eq (b : OutcomeBoard) (now : Nat) (key : CorrelationKey) (o : Outcome) :
    b.record now key o = (b.put now key o).wake := rfl

end OutcomeBoard

/-- Where a wait is. -/
inductive WaitStage
  /-- About to listen. -/
  | entering
  /-- Listens and is about to look for its outcome. -/
  | looking
  /-- Has found nothing and sleeps until it is woken or its deadline comes. -/
  | asleep
  /-- Its deadline has come; it is about to look once more. -/
  | leaving
deriving DecidableEq

/-- A wait for the outcome of `key`. -/
structure Wait where
  key : CorrelationKey
  deadline : Nat
  stage : WaitStage := .entering
deriving DecidableEq

/-- Something that happened before the board. -/
inductive LobbyEvent
  | posted (key : CorrelationKey) (o : Outcome)
  /-- A reader who does not wait took what there was. -/
  | taken (key : CorrelationKey) (o? : Option Outcome)
  | began (t : TaskId) (key : CorrelationKey) (deadline : Nat)
  /-- The wait `t` ended with what it found. -/
  | ended (t : TaskId) (key : CorrelationKey) (deadline : Nat) (o? : Option Outcome)
  | gaveUp (t : TaskId)
deriving DecidableEq

/-- What a reader of a key was given. -/
def LobbyEvent.answer? : LobbyEvent → Option (CorrelationKey × Option Outcome)
  | .taken key o? | .ended _ key _ o? => some (key, o?)
  | .posted .. | .began .. | .gaveUp _ => none

/-- The outcome that was put up. -/
def LobbyEvent.posted? : LobbyEvent → Option Outcome
  | .posted _ o => some o
  | .taken .. | .began .. | .ended .. | .gaveUp _ => none

/-- The key whose outcome was put up or taken down. -/
def LobbyEvent.changes? : LobbyEvent → Option CorrelationKey
  | .posted key _ | .taken key (some _) | .ended _ key _ (some _) => some key
  | .taken _ none | .ended _ _ _ none | .began .. | .gaveUp _ => none

/-- A step of somebody before the board. -/
inductive LobbyAction
  /-- Somebody puts an outcome up. -/
  | post (key : CorrelationKey) (o : Outcome)
  /-- An outcome of `key` that was put up wakes the listeners. -/
  | announce (key : CorrelationKey)
  | take (key : CorrelationKey)
  | peek (key : CorrelationKey)
  | purge
  /-- A wait with the new name `t` begins. -/
  | beginWait (t : TaskId) (key : CorrelationKey) (deadline : Nat)
  /-- The wait `t` does what comes next. -/
  | stride (t : TaskId)
  /-- The wait `t`, whose deadline has come, does not notice that it was woken. -/
  | lapse (t : TaskId)
  /-- The caller of the wait `t` drops it. -/
  | giveUp (t : TaskId)
  | pass (span : Nat)

/-- A board and those before it. -/
structure Lobby where
  now : Nat := 0
  board : OutcomeBoard
  /-- The keys of the outcomes that have been put up and not announced. -/
  unannounced : List CorrelationKey := []
  /-- The waits that are not finished. -/
  waits : Assoc TaskId Wait := {}
  /-- Larger than the name of every wait so far. -/
  nextWait : TaskId := 0
  /-- What has happened, and when, oldest first. -/
  log : List (Nat × LobbyEvent) := []

namespace Lobby

/-- Nobody before an empty board. -/
def empty (ttl : Nat) : Lobby := { board := .empty ttl }

/-- Adds to the log. -/
def note (l : Lobby) (ev : LobbyEvent) : Lobby := { l with log := l.log ++ [(l.now, ev)] }

/-- Takes the outcome of `key` from the board. -/
def takeOutcome (l : Lobby) (key : CorrelationKey) : Option Outcome × Lobby :=
  let (o?, board) := l.board.take l.now key
  (o?, { l with board })

/-- The wait `t`, which is `w`, comes to `stage`. -/
def goTo (l : Lobby) (t : TaskId) (w : Wait) (stage : WaitStage) : Lobby :=
  { l with waits := l.waits.insert t { w with stage } }

/-- The wait `t`, which is `w`, ends. -/
def conclude (l : Lobby) (t : TaskId) (w : Wait) (o? : Option Outcome) : Lobby :=
  ({ l with
      board := l.board.unlisten t
      waits := l.waits.erase t }).note (.ended t w.key w.deadline o?)

/-- What a wait does next. -/
def stride (l : Lobby) (t : TaskId) : Lobby :=
  match l.waits.get? t with
  | none => l
  | some w =>
      match w.stage with
      | .entering => ({ l with board := l.board.listen t }).goTo t w .looking
      | .looking =>
          match l.takeOutcome w.key with
          | (some o, l) => l.conclude t w (some o)
          | (none, l) => l.goTo t w .asleep
      | .asleep =>
          if t ∉ l.board.listeners then l.goTo t w .entering
          else if w.deadline ≤ l.now then l.goTo t w .leaving
          else l
      | .leaving => (l.takeOutcome w.key).2.conclude t w (l.takeOutcome w.key).1

/-- What an action does; an action that does not fit the state does nothing. -/
def act (l : Lobby) : LobbyAction → Lobby
  | .post key o =>
      ({ l with
          board := l.board.put l.now key o
          unannounced := key :: l.unannounced }).note (.posted key o)
  | .announce key =>
      if key ∈ l.unannounced then
        { l with board := l.board.wake, unannounced := l.unannounced.erase key }
      else l
  | .take key =>
      let (o?, l) := l.takeOutcome key
      l.note (.taken key o?)
  | .peek key => { l with board := (l.board.peek l.now key).2 }
  | .purge => { l with board := (l.board.purge l.now).2 }
  | .beginWait t key deadline =>
      if l.nextWait ≤ t then
        ({ l with
            waits := l.waits.insert t { key, deadline }
            nextWait := t + 1 }).note (.began t key deadline)
      else l
  | .stride t => l.stride t
  | .lapse t =>
      match l.waits.get? t with
      | some w =>
          if w.stage = .asleep ∧ w.deadline ≤ l.now then l.goTo t w .leaving else l
      | none => l
  | .giveUp t =>
      if l.waits.contains t then
        ({ l with
            board := l.board.unlisten t
            waits := l.waits.erase t }).note (.gaveUp t)
      else l
  | .pass span => { l with now := l.now + span }

/-- The state after a schedule. -/
def after (l : Lobby) (as : List LobbyAction) : Lobby := as.foldl act l

/-- The outcome of `key` that a reader would find. -/
def readable? (l : Lobby) (key : CorrelationKey) : Option Outcome :=
  l.board.outcomes.peek? l.now key

/-- Everything that was put up is announced, and no wait can go on before something happens. -/
def Settled (l : Lobby) : Prop :=
  (∀ key, l.act (.announce key) = l) ∧ ∀ t, l.act (.stride t) = l

end Lobby

end Rendezvous
