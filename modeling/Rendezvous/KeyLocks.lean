import Rendezvous.Assoc

/-!
# Per-key locks

Every key has its own lock, taken in the order of asking.  A lock is the queue of the tasks that
hold it or wait for it: the head of the queue owns the lock, the others wait behind it.  A key that
nobody asks for has no entry, so the map holds exactly the keys in use.
-/

namespace Rendezvous

/-- Names one task of an engine. -/
abbrev TaskId := Nat

/-- The locks in use, each with its owner and the tasks waiting for it. -/
structure KeyLocks (κ : Type) where
  /-- For each key in use the owner of its lock, then the waiting tasks in the order they asked. -/
  queues : Assoc κ (List TaskId) := {}
  /-- A key in use has an owner. -/
  owned : ∀ e ∈ queues.entries, e.2 ≠ [] := by exact fun _ h => absurd h List.not_mem_nil

namespace KeyLocks

/-- The locks when no key is in use. -/
def free {κ : Type} : KeyLocks κ := { queues := .empty }

variable {κ : Type} [DecidableEq κ]

/-- The owner and the waiting tasks of a key. -/
def queue (l : KeyLocks κ) (k : κ) : List TaskId := (l.queues.get? k).getD []

/-- The task that has the lock of `k`. -/
def owner? (l : KeyLocks κ) (k : κ) : Option TaskId := (l.queue k).head?

/-- The number of keys in use. -/
def size (l : KeyLocks κ) : Nat := l.queues.size

/-- Whether no key is in use. -/
def isEmpty (l : KeyLocks κ) : Bool := l.queues.isEmpty

theorem mem_insertIn {k : κ} {v : List TaskId} {es : List (κ × List TaskId)}
    {e : κ × List TaskId} (h : e ∈ Assoc.insertIn k v es) : e = (k, v) ∨ e ∈ es := by
  induction es with
  | nil => simpa [Assoc.insertIn] using h
  | cons e' rest ih =>
      obtain ⟨k', v'⟩ := e'
      by_cases hk : k' = k
      · simp only [Assoc.insertIn, hk, if_true, List.mem_cons] at h
        exact h.imp_right (List.mem_cons_of_mem _)
      · simp only [Assoc.insertIn, hk, if_false, List.mem_cons] at h
        rcases h with rfl | h
        · exact .inr (by simp)
        · exact (ih h).imp_right (List.mem_cons_of_mem _)

/-- Makes `q` the queue of `k`; an empty queue frees the key. -/
def setQueue (l : KeyLocks κ) (k : κ) (q : List TaskId) : KeyLocks κ :=
  match q with
  | [] =>
      { queues := l.queues.erase k
        owned := fun e he => l.owned e (List.mem_filter.1 he).1 }
  | t :: rest =>
      { queues := l.queues.insert k (t :: rest)
        owned := fun e he => by
          rcases mem_insertIn he with rfl | he
          · simp
          · exact l.owned e he }

/-- Task `t` asks for the lock of `k` and owns it at once if the key was free. -/
def ask (l : KeyLocks κ) (k : κ) (t : TaskId) : KeyLocks κ := l.setQueue k (l.queue k ++ [t])

/-- Task `t` gives the lock of `k` back, or gives up waiting for it. -/
def leave (l : KeyLocks κ) (k : κ) (t : TaskId) : KeyLocks κ :=
  l.setQueue k ((l.queue k).erase t)

/-- The task that comes to own `k` when `t` leaves it. -/
def heir? (l : KeyLocks κ) (k : κ) (t : TaskId) : Option TaskId :=
  if l.owner? k = some t then (l.leave k t).owner? k else none

theorem queue_setQueue (l : KeyLocks κ) (k k' : κ) (q : List TaskId) :
    (l.setQueue k q).queue k' = if k' = k then q else l.queue k' := by
  cases q with
  | nil => by_cases h : k' = k <;> simp [setQueue, queue, h]
  | cons t rest => by_cases h : k' = k <;> simp [setQueue, queue, h, Ne.symm]

theorem queue_ask (l : KeyLocks κ) (k k' : κ) (t : TaskId) :
    (l.ask k t).queue k' = if k' = k then l.queue k ++ [t] else l.queue k' :=
  queue_setQueue ..

theorem queue_leave (l : KeyLocks κ) (k k' : κ) (t : TaskId) :
    (l.leave k t).queue k' = if k' = k then (l.queue k).erase t else l.queue k' :=
  queue_setQueue ..

end KeyLocks

end Rendezvous
