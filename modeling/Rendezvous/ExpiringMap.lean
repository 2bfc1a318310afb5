import Rendezvous.Assoc
import Rendezvous.Time

/-!
# Maps whose entries expire

A value can be read while its age is strictly below the map's time to live.  A stale entry may stay
in the map until something touches it: `get` and `take` drop the entry they find stale, `purge`
drops all stale ones.  `peek?` is the view: what a reader of the map can still see at an instant.
-/

namespace Rendezvous

/-- A map from keys to values and the instants (`Nat` milliseconds) of their insertion. -/
structure ExpiringMap (κ α : Type) where
  /-- How long a value can be read. -/
  ttl : Nat
  /-- The values, fresh or stale, with the instant each was stored. -/
  entries : Assoc κ (α × Nat) := {}

namespace ExpiringMap

variable {κ α : Type} [DecidableEq κ]

/-- Whether a value stored at `since` can still be read at `now`. -/
def isFresh (m : ExpiringMap κ α) (now since : Nat) : Bool := age now since < m.ttl

/-- The value that `k` has at `now`. -/
def peek? (m : ExpiringMap κ α) (now : Nat) (k : κ) : Option α :=
  ((m.entries.get? k).filter fun e => m.isFresh now e.2).map Prod.fst

/-- Stores `v` under `k`; its age counts from `now`. -/
def insert (m : ExpiringMap κ α) (now : Nat) (k : κ) (v : α) : ExpiringMap κ α :=
  { m with entries := m.entries.insert k (v, now) }

/-- Reads `k` and drops its entry if that is stale. -/
def get (m : ExpiringMap κ α) (now : Nat) (k : κ) : Option α × ExpiringMap κ α :=
  match m.peek? now k with
  | some v => (some v, m)
  | none => (none, { m with entries := m.entries.erase k })

/-- Reads `k` and drops its entry in any case. -/
def take (m : ExpiringMap κ α) (now : Nat) (k : κ) : Option α × ExpiringMap κ α :=
  (m.peek? now k, { m with entries := m.entries.erase k })

/-- Whether `k` can be read; its entry is dropped if that is stale. -/
def contains (m : ExpiringMap κ α) (now : Nat) (k : κ) : Bool × ExpiringMap κ α :=
  let (v?, m) := m.get now k
  (v?.isSome, m)

/-- Drops every stale entry and tells how many there were. -/
def purge (m : ExpiringMap κ α) (now : Nat) : Nat × ExpiringMap κ α :=
  let kept := m.entries.keep fun _ e => m.isFresh now e.2
  (m.entries.size - kept.size, { m with entries := kept })

/-- The number of entries, stale ones included. -/
def size (m : ExpiringMap κ α) : Nat := m.entries.size

/-- Whether there is no entry, not even a stale one. -/
def isEmpty (m : ExpiringMap κ α) : Bool := m.entries.isEmpty

theorem peek?_insert (m : ExpiringMap κ α) (now later : Nat) (k k' : κ) (v : α) :
    (m.insert now k v).peek? later k' =
      if k = k' then (if m.isFresh later now then some v else none) else m.peek? later k' := by
  by_cases h : k = k'
  · by_cases hf : age later now < m.ttl <;> simp [peek?, insert, isFresh, h, Option.filter, hf]
  · simp only [peek?, insert, isFresh, Assoc.get?_insert, h, if_false]
    rfl

/-- Whoever reads gets what is there to be seen. -/
theorem fst_get (m : ExpiringMap κ α) (now : Nat) (k : κ) : (m.get now k).1 = m.peek? now k := by
  unfold get
  cases hpeek : m.peek? now k with
  | some v => rfl
  | none => rfl

/-- A value that is read and consumed is gone; every other one stays. -/
theorem peek?_take (m : ExpiringMap κ α) (now later : Nat) (k k' : κ) :
    (m.take now k).2.peek? later k' = if k' = k then none else m.peek? later k' := by
  by_cases h : k' = k
  · simp [peek?, take, h]
  · simp only [peek?, take, isFresh, Assoc.get?_erase, h, if_false]
    rfl

/-- A value that can be read later can be read now. -/
theorem peek?_of_le (m : ExpiringMap κ α) {now later : Nat} (h : now ≤ later) {k : κ} {v : α}
    (hv : m.peek? later k = some v) : m.peek? now k = some v := by
  unfold peek? at hv ⊢
  obtain ⟨entry, hentry, hvalue⟩ := Option.map_eq_some_iff.mp hv
  obtain ⟨hget, hfresh⟩ := Option.filter_eq_some_iff.mp hentry
  have hstill : m.isFresh now entry.2 := by
    have hage : age later entry.2 < m.ttl := by simpa [isFresh] using hfresh
    have hsooner : age now entry.2 ≤ age later entry.2 := Nat.sub_le_sub_right h entry.2
    simpa [isFresh] using Nat.lt_of_le_of_lt hsooner hage
  exact Option.map_eq_some_iff.mpr
    ⟨entry, Option.filter_eq_some_iff.mpr ⟨hget, hstill⟩, hvalue⟩

/-- Where a reader finds nothing, nothing is lost when he takes it. -/
theorem peek?_take_of_none {m : ExpiringMap κ α} {now later : Nat} {k : κ}
    (hnone : m.peek? now k = none) (h : now ≤ later) (k' : κ) :
    (m.take now k).2.peek? later k' = m.peek? later k' := by
  rw [peek?_take]
  split
  · rename_i hk
    refine (Option.eq_none_iff_forall_ne_some.mpr fun v hv => ?_).symm
    rw [hk] at hv
    rw [m.peek?_of_le h hv] at hnone
    cases hnone
  · rfl

/-- Reading is invisible to every later reader. -/
theorem peek?_get (m : ExpiringMap κ α) {now later : Nat} (h : now ≤ later) (k k' : κ) :
    (m.get now k).2.peek? later k' = m.peek? later k' := by
  unfold get
  cases hpeek : m.peek? now k with
  | some v => rfl
  | none => exact peek?_take_of_none hpeek h k'

/-- Dropping stale entries is invisible to every reader. -/
theorem peek?_purge (m : ExpiringMap κ α) (now later : Nat) (h : now ≤ later) (k : κ) :
    (m.purge now).2.peek? later k = m.peek? later k := by
  simp only [peek?, purge, isFresh, Assoc.get?_keep]
  cases m.entries.get? k with
  | none => rfl
  | some e =>
      by_cases hn : age now e.2 < m.ttl
      · by_cases hl : age later e.2 < m.ttl <;> simp [Option.filter, hn, hl]
      · have hl : ¬ age later e.2 < m.ttl := by
          unfold age at *
          omega
        simp [Option.filter, hn, hl]

end ExpiringMap

end Rendezvous
