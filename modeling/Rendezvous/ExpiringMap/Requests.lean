import Rendezvous.ExpiringMap

/-!
# Requests to an expiring map

An expiring map drops stale entries whenever something touches them.  Whoever makes requests sees
none of this: what can be read of a key at an instant follows from what the key was given last, when
that was, and whether it was taken since.

* `ExpiringMap.answer` performs a request;
* `ExpiringMap.after` and `ExpiringMap.answers` are the map after many requests, and what was
  answered;
* `given?` is what a key was given last, and `readable?` what can be read of that.
-/

namespace Rendezvous

/-- A request to an expiring map. -/
inductive MapRequest (κ α : Type)
  | insert (key : κ) (value : α)
  | get (key : κ)
  | take (key : κ)
  | contains (key : κ)
  | purge

/-- What an expiring map answers. -/
inductive MapAnswer (α : Type)
  | inserted
  | found (value? : Option α)
  | contained (b : Bool)
  | purged (count : Nat)
deriving DecidableEq

/-- What an answer tells about values; how many stale entries there were does not count. -/
def MapAnswer.reading? {α : Type} : MapAnswer α → Option (MapAnswer α)
  | .purged _ => none
  | answer => some answer

/-- Requests made at instants, none of them earlier than the one before or than `now`. -/
def ClockedFrom {ρ : Type} (now : Nat) (reqs : List (Nat × ρ)) : Prop :=
  (now :: reqs.map Prod.fst).Pairwise (· ≤ ·)

instance {ρ : Type} (now : Nat) (reqs : List (Nat × ρ)) : Decidable (ClockedFrom now reqs) :=
  inferInstanceAs (Decidable (List.Pairwise _ _))

variable {κ α : Type} [DecidableEq κ]

/-- What a request at `now` makes of the last value that `k` was given. -/
def MapRequest.next (k : κ) (given? : Option (α × Nat)) (now : Nat) :
    MapRequest κ α → Option (α × Nat)
  | .insert k' v => if k' = k then some (v, now) else given?
  | .take k' => if k' = k then none else given?
  | .get _ | .contains _ | .purge => given?

namespace ExpiringMap

/-- The last value that `k` was given by requests, with the instant, unless it was taken since. -/
def given? (k : κ) (reqs : List (Nat × MapRequest κ α)) : Option (α × Nat) :=
  reqs.foldl (fun given? req => req.2.next k given? req.1) none

/-- What can be read at `now` of a value and the instant at which it was stored. -/
def readable? (ttl now : Nat) (given? : Option (α × Nat)) : Option α :=
  (given?.filter fun g => age now g.2 < ttl).map Prod.fst

/-- Performs a request. -/
def answer (m : ExpiringMap κ α) (now : Nat) :
    MapRequest κ α → MapAnswer α × ExpiringMap κ α
  | .insert k v => (.inserted, m.insert now k v)
  | .get k => (.found (m.get now k).1, (m.get now k).2)
  | .take k => (.found (m.take now k).1, (m.take now k).2)
  | .contains k => (.contained (m.contains now k).1, (m.contains now k).2)
  | .purge => (.purged (m.purge now).1, (m.purge now).2)

/-- The map after requests, each made at an instant. -/
def after (m : ExpiringMap κ α) (reqs : List (Nat × MapRequest κ α)) : ExpiringMap κ α :=
  reqs.foldl (fun m req => (m.answer req.1 req.2).2) m

/-- The answers to the requests. -/
def answers (m : ExpiringMap κ α) : List (Nat × MapRequest κ α) → List (MapAnswer α)
  | [] => []
  | (now, request) :: reqs =>
      (m.answer now request).1 :: (m.answer now request).2.answers reqs

/-- Whether a request gives a key a value, or takes away one that could be read. -/
def isChanged (m : ExpiringMap κ α) (now : Nat) : MapRequest κ α → Bool
  | .insert .. => true
  | .take k => (m.peek? now k).isSome
  | .get _ | .contains _ | .purge => false

end ExpiringMap

end Rendezvous
