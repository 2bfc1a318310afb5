import Mathlib.Logic.Function.Basic
import Rendezvous.KeyLocks

/-!
# Per-key locks made of counted slots

`KeyLocks` says who owns which lock and who waits.  Here is how such locks are made: a table maps
each key in use to a slot, a slot is a mutex that lets its callers in one after the other, and
everybody who has to do with a slot holds a reference to it.  A slot is made by the first call for
its key.  It is taken out of the table by a call that ends and finds that only the table still
refers to it.

A call goes through several steps, and between any two of them other calls may make theirs.  It
takes a reference to the slot of its key under the lock of the table (`begin`), asks the mutex and,
if it has to wait, looks again when it is woken (`poll`).  When its guard is dropped, or when it is
dropped while it waits, it gives up the mutex or its place in the queue (`drop`), then its reference
(`unref`), and then it looks after the slot, again under the lock of the table (`tidy`).

The mutex is fair: it is handed to the callers in the order in which they asked, and a caller that
is dropped when the mutex has been handed to it passes it on.

* `SlotMap` is the table with its slots and calls, and `SlotMap.act` is one step of one call;
* `Line` is what concerns one key, with a machine of its own, `Line.act`, that knows no other keys
  and no names of slots.
-/

namespace Rendezvous

/-- How far a call for the lock of a key has come. -/
inductive LockStage
  /-- It refers to the slot and has not asked for the mutex. -/
  | asking
  /-- It has asked for the mutex, and may have been handed it without having noticed. -/
  | queued
  /-- It has its guard. -/
  | holding
  /-- It has left the mutex and still refers to the slot. -/
  | leaving
  /-- It refers to no slot and has not looked after the one that it had. -/
  | tidying
deriving DecidableEq

/-- Whether a call holds a reference. -/
def LockStage.refers : LockStage → Bool
  | .asking | .queued | .holding | .leaving => true
  | .tidying => false

/-- A step of a call. -/
inductive LockMove
  | begin
  | poll
  | drop
  | unref
  | tidy
deriving DecidableEq

/-- What becomes of a call; the calls for a key are numbered. -/
inductive LockEvent
  | began (n : Nat)
  | asked (n : Nat)
  /-- It got its guard. -/
  | granted (n : Nat)
  /-- It was dropped before it got its guard. -/
  | gaveUp (n : Nat)
  | released (n : Nat)
deriving DecidableEq

/-- The call that has asked for the mutex. -/
def LockEvent.asked? : LockEvent → Option Nat
  | .asked n => some n
  | .began _ | .granted _ | .gaveUp _ | .released _ => none

/-- The call that has got its guard. -/
def LockEvent.granted? : LockEvent → Option Nat
  | .granted n => some n
  | .began _ | .asked _ | .gaveUp _ | .released _ => none

/-- The call that was dropped before it got its guard. -/
def LockEvent.gaveUp? : LockEvent → Option Nat
  | .gaveUp n => some n
  | .began _ | .asked _ | .granted _ | .released _ => none

/-- The call that has begun. -/
def LockEvent.began? : LockEvent → Option Nat
  | .began n => some n
  | .asked _ | .granted _ | .gaveUp _ | .released _ => none

/-- The call that an event is about. -/
def LockEvent.number : LockEvent → Nat
  | .began n | .asked n | .granted n | .gaveUp n | .released n => n

/-- What an event means for the queue of the mutex. -/
def LockEvent.requeue (q : List Nat) : LockEvent → List Nat
  | .asked n => q ++ [n]
  | .gaveUp n | .released n => q.erase n
  | .began _ | .granted _ => q

/-- A mutex, with the number of references to it. -/
structure Slot where
  /-- The table holds one. -/
  refs : Nat := 1
  /-- The call that has the mutex, or has been handed it. -/
  owner? : Option Nat := none
  /-- The calls that wait for the mutex, first come first. -/
  waiting : List Nat := []

namespace Slot

/-- The owner and the waiting calls. -/
def queue (slot : Slot) : List Nat := slot.owner?.toList ++ slot.waiting

/-- One more reference. -/
def ref (slot : Slot) : Slot := { slot with refs := slot.refs + 1 }

/-- One reference less. -/
def unref (slot : Slot) : Slot := { slot with refs := slot.refs - 1 }

/-- The mutex goes to the first call that waits. -/
def pass (slot : Slot) : Slot :=
  match slot.waiting with
  | [] => { slot with owner? := none }
  | next :: rest => { slot with owner? := some next, waiting := rest }

/-- The call `n` leaves the mutex; an owner passes it on. -/
def quit (slot : Slot) (n : Nat) : Slot :=
  if slot.owner? = some n then slot.pass else { slot with waiting := slot.waiting.erase n }

end Slot

/-- What a step of the call `n` makes of the slot that it refers to, and how far the call comes. -/
def LockMove.onSlot (n : Nat) (slot : Slot) :
    LockMove → LockStage → Option (Slot × LockStage × List LockEvent)
  | .poll, .asking =>
      match slot.owner? with
      | none => some ({ slot with owner? := some n }, .holding, [.asked n, .granted n])
      | some _ => some ({ slot with waiting := slot.waiting ++ [n] }, .queued, [.asked n])
  | .poll, .queued =>
      if slot.owner? = some n then some (slot, .holding, [.granted n]) else none
  | .drop, .queued => some (slot.quit n, .leaving, [.gaveUp n])
  | .drop, .holding => some (slot.quit n, .leaving, [.released n])
  | .unref, .leaving => some (slot.unref, .tidying, [])
  | _, _ => none

/-! ## One key -/

/-- The calls for one key and their slot. -/
@[ext] structure Line where
  /-- The slot that the table has for the key. -/
  slot? : Option Slot := none
  stage? : Nat → Option LockStage := fun _ => none
  /-- What has become of the calls, oldest first. -/
  log : List LockEvent := []

namespace Line

/-- What the call `n` does with its slot. -/
def touch (l : Line) (n : Nat) (move : LockMove) : Line :=
  match l.stage? n, l.slot? with
  | some stage, some slot =>
      match move.onSlot n slot stage with
      | some (slot, stage, evs) =>
          { slot? := some slot
            stage? := Function.update l.stage? n (some stage)
            log := l.log ++ evs }
      | none => l
  | _, _ => l

/-- A step of the call `n`.  Numbers of calls are not used again; a step that does not fit the state
does nothing. -/
def act (l : Line) (n : Nat) : LockMove → Line
  | .begin =>
      if .began n ∈ l.log then l
      else
        { slot? := some (l.slot?.getD {}).ref
          stage? := Function.update l.stage? n (some .asking)
          log := l.log ++ [.began n] }
  | .tidy =>
      if l.stage? n = some .tidying then
        { l with
          slot? := l.slot?.filter fun slot => slot.refs ≠ 1
          stage? := Function.update l.stage? n none }
      else l
  | move => l.touch n move

/-- The line after a schedule. -/
def after (l : Line) (moves : List (Nat × LockMove)) : Line :=
  moves.foldl (fun l move => l.act move.1 move.2) l

/-- The call that has the mutex, or has been handed it. -/
def owner? (l : Line) : Option Nat := l.slot?.bind Slot.owner?

/-- The owner and the waiting calls. -/
def queue (l : Line) : List Nat := (l.slot?.map Slot.queue).getD []

/-- The calls for the key, in the order in which they began. -/
def began (l : Line) : List Nat := l.log.filterMap LockEvent.began?

/-- The calls that have asked for the mutex, in that order. -/
def asked (l : Line) : List Nat := l.log.filterMap LockEvent.asked?

/-- The calls that have got their guards, in that order. -/
def granted (l : Line) : List Nat := l.log.filterMap LockEvent.granted?

/-- The calls that were dropped before they got their guards. -/
def gaveUp (l : Line) : List Nat := l.log.filterMap LockEvent.gaveUp?

/-- The calls that have asked for the mutex and have not got their guards. -/
def pending (l : Line) : List Nat := l.queue.filter fun n => l.stage? n = some .queued

end Line

/-! ## All keys -/

/-- Names a slot. -/
abbrev SlotId := Nat

/-- A call with the slot that it has a reference to, or had until it came to tidy up. -/
structure LockCall where
  stage : LockStage
  slot : SlotId
deriving DecidableEq

/-- The table of slots, with all calls. -/
structure SlotMap (κ : Type) where
  table : Assoc κ SlotId := {}
  slots : SlotId → Slot := fun _ => {}
  /-- Larger than the name of every slot made so far. -/
  nextSlot : SlotId := 0
  calls : κ → Nat → Option LockCall := fun _ _ => none
  /-- What has become of the calls for each key, oldest first. -/
  log : List (κ × LockEvent) := []

/-- A step of the call `number` for `key`. -/
structure SlotAction (κ : Type) where
  key : κ
  number : Nat
  move : LockMove

namespace SlotMap

variable {κ : Type} [DecidableEq κ]

/-- The call `n` for `k` comes to stand at `call?`. -/
def setCall (s : SlotMap κ) (k : κ) (n : Nat) (call? : Option LockCall) : SlotMap κ :=
  { s with calls := Function.update s.calls k (Function.update (s.calls k) n call?) }

/-- Adds to the log. -/
def note (s : SlotMap κ) (k : κ) (evs : List LockEvent) : SlotMap κ :=
  { s with log := s.log ++ evs.map (k, ·) }

/-- The slot `i` becomes `slot`. -/
def setSlot (s : SlotMap κ) (i : SlotId) (slot : Slot) : SlotMap κ :=
  { s with slots := Function.update s.slots i slot }

/-- The call `n` takes a reference to the slot of `k`, which is made if the table has none. -/
def refer (s : SlotMap κ) (k : κ) (n : Nat) : SlotMap κ :=
  match s.table.get? k with
  | some i => (s.setSlot i (s.slots i).ref).setCall k n (some ⟨.asking, i⟩)
  | none =>
      ({ s with
          table := s.table.insert k s.nextSlot
          nextSlot := s.nextSlot + 1 }.setSlot s.nextSlot ({} : Slot).ref).setCall k n
        (some ⟨.asking, s.nextSlot⟩)

/-- Takes the slot of `k` out of the table if nobody else refers to it. -/
def releaseSlot (s : SlotMap κ) (k : κ) : SlotMap κ :=
  match s.table.get? k with
  | some i => if (s.slots i).refs = 1 then { s with table := s.table.erase k } else s
  | none => s

/-- What the call `n` for `k` does with the slot that it refers to. -/
def touch (s : SlotMap κ) (k : κ) (n : Nat) (move : LockMove) : SlotMap κ :=
  match s.calls k n with
  | some call =>
      match move.onSlot n (s.slots call.slot) call.stage with
      | some (slot, stage, evs) =>
          ((s.setSlot call.slot slot).setCall k n (some ⟨stage, call.slot⟩)).note k evs
      | none => s
  | none => s

/-- What an action does.  Numbers of calls are not used again; an action that does not fit the state
does nothing. -/
def act (s : SlotMap κ) (a : SlotAction κ) : SlotMap κ :=
  match a.move with
  | .begin =>
      if (a.key, .began a.number) ∈ s.log then s
      else (s.refer a.key a.number).note a.key [.began a.number]
  | .tidy =>
      if (s.calls a.key a.number).map LockCall.stage = some .tidying then
        (s.releaseSlot a.key).setCall a.key a.number none
      else s
  | move => s.touch a.key a.number move

/-- The state after a schedule. -/
def after (s : SlotMap κ) (as : List (SlotAction κ)) : SlotMap κ := as.foldl act s

/-- The number of slots in the table. -/
def size (s : SlotMap κ) : Nat := s.table.size

/-- What of the log is about `k`. -/
def logOf (k : κ) (log : List (κ × LockEvent)) : List LockEvent :=
  log.filterMap fun e => if e.1 = k then some e.2 else none

/-- What concerns `k`: its calls and its slot, without the name of the slot. -/
def line (s : SlotMap κ) (k : κ) : Line where
  slot? := (s.table.get? k).map s.slots
  stage? n := (s.calls k n).map LockCall.stage
  log := logOf k s.log

/-- The call `n` for `k` has its guard. -/
def Holds (s : SlotMap κ) (k : κ) (n : Nat) : Prop := (s.line k).stage? n = some .holding

/-- The call `n` for `k` has begun and has not got its guard, nor been dropped. -/
def Waits (s : SlotMap κ) (k : κ) (n : Nat) : Prop :=
  (s.line k).stage? n = some .asking ∨ (s.line k).stage? n = some .queued

/-- Every call has done what it can do by itself: it has its guard, or waits in the queue. -/
def Quiet (s : SlotMap κ) : Prop :=
  ∀ k n stage, (s.line k).stage? n = some stage → stage = .queued ∨ stage = .holding

/-- Every call that was handed its mutex has got its guard, too. -/
def Settled (s : SlotMap κ) : Prop :=
  s.Quiet ∧ ∀ k n, (s.line k).stage? n = some .queued → (s.line k).owner? ≠ some n

end SlotMap

/-- What a task does with a lock at one go. -/
inductive LockUse
  /-- It calls for the lock, and waits if it cannot have it. -/
  | acquire
  /-- It is woken while it waits. -/
  | wake
  /-- It drops its guard, or the call that waits for one. -/
  | letGo
deriving DecidableEq

/-- The steps of which a use consists. -/
def LockUse.moves : LockUse → List LockMove
  | .acquire => [.begin, .poll]
  | .wake => [.poll]
  | .letGo => [.drop, .unref, .tidy]

/-- The steps of a use of the lock of `k` by the call `n`. -/
def LockUse.steps {κ : Type} (u : LockUse) (k : κ) (n : Nat) : List (SlotAction κ) :=
  u.moves.map fun move => { key := k, number := n, move }

/-- The schedule of uses that are made at one go, each by a call for a key. -/
def atOneGo {κ : Type} (uses : List (κ × Nat × LockUse)) : List (SlotAction κ) :=
  uses.flatMap fun (k, n, u) => u.steps k n

/-- Follows in the plain locks what has become of a call. -/
def KeyLocks.follow {κ : Type} [DecidableEq κ] (l : KeyLocks κ) (e : κ × LockEvent) :
    KeyLocks κ :=
  match e.2 with
  | .asked n => l.ask e.1 n
  | .gaveUp n | .released n => l.leave e.1 n
  | .began _ | .granted _ => l

end Rendezvous
