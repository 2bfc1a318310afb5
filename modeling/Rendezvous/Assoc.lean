/-!
# Insertion-ordered maps

`Assoc κ α` is a finite map that lists its entries in the order in which their keys were first
inserted.  Keys are unique by construction.  The view of a map is `get?`; every operation has one
lemma that says what it does to this view, and after these lemmas nothing unfolds an operation.
-/

namespace Rendezvous

/-- A finite map with unique keys, in insertion order. -/
structure Assoc (κ α : Type) where
  /-- The entries, oldest key first. -/
  entries : List (κ × α) := []
  /-- No key is listed twice. -/
  nodup : (entries.map Prod.fst).Nodup := by simp

namespace Assoc

/-- The map without entries. -/
def empty {κ α : Type} : Assoc κ α := {}

variable {κ α : Type} [DecidableEq κ]

/-- The first value listed under `k`. -/
def lookupIn (k : κ) : List (κ × α) → Option α
  | [] => none
  | (k', v) :: rest => if k' = k then some v else lookupIn k rest

/-- Replaces the value listed under `k`, or lists `k` last. -/
def insertIn (k : κ) (v : α) : List (κ × α) → List (κ × α)
  | [] => [(k, v)]
  | (k', v') :: rest => if k' = k then (k, v) :: rest else (k', v') :: insertIn k v rest

theorem mem_keys_insertIn (k : κ) (v : α) (es : List (κ × α)) (x : κ) :
    x ∈ (insertIn k v es).map Prod.fst ↔ x = k ∨ x ∈ es.map Prod.fst := by
  induction es with
  | nil => simp [insertIn]
  | cons e rest ih =>
      obtain ⟨k', v'⟩ := e
      by_cases h : k' = k
      · subst h
        simp [insertIn]
      · simp only [insertIn, h, if_false, List.map_cons, List.mem_cons, ih]
        constructor <;> rintro (rfl | rfl | hx) <;> simp_all

theorem nodup_keys_insertIn (k : κ) (v : α) (es : List (κ × α))
    (h : (es.map Prod.fst).Nodup) : ((insertIn k v es).map Prod.fst).Nodup := by
  induction es with
  | nil => simp [insertIn]
  | cons e rest ih =>
      obtain ⟨k', v'⟩ := e
      rw [List.map_cons, List.nodup_cons] at h
      by_cases hk : k' = k
      · subst hk
        simpa [insertIn] using h
      · simp only [insertIn, hk, if_false, List.map_cons, List.nodup_cons]
        refine ⟨?_, ih h.2⟩
        rw [mem_keys_insertIn]
        exact fun hx => hx.elim hk h.1

/-- The value stored under `k`. -/
def get? (m : Assoc κ α) (k : κ) : Option α := lookupIn k m.entries

/-- Whether `k` has a value. -/
def contains (m : Assoc κ α) (k : κ) : Bool := (m.get? k).isSome

/-- Stores `v` under `k`, in the old place if `k` is present and last otherwise. -/
def insert (m : Assoc κ α) (k : κ) (v : α) : Assoc κ α where
  entries := insertIn k v m.entries
  nodup := nodup_keys_insertIn k v m.entries m.nodup

/-- Keeps the entries that satisfy `p`. -/
def keep (m : Assoc κ α) (p : κ → α → Bool) : Assoc κ α where
  entries := m.entries.filter fun e => p e.1 e.2
  nodup := m.nodup.sublist (List.filter_sublist.map Prod.fst)

/-- Removes `k`. -/
def erase (m : Assoc κ α) (k : κ) : Assoc κ α := m.keep fun k' _ => k' ≠ k

/-- The number of keys. -/
def size (m : Assoc κ α) : Nat := m.entries.length

/-- Whether no key has a value. -/
def isEmpty (m : Assoc κ α) : Bool := m.entries.isEmpty

/-- The keys, oldest first. -/
def keys (m : Assoc κ α) : List κ := m.entries.map Prod.fst

/-- The values, oldest key first. -/
def values (m : Assoc κ α) : List α := m.entries.map Prod.snd

/-- The map of a list of pairs; of two values for one key the later one counts. -/
def ofList (es : List (κ × α)) : Assoc κ α := es.foldl (fun m e => m.insert e.1 e.2) {}

theorem lookupIn_insertIn (k k' : κ) (v : α) (es : List (κ × α)) :
    lookupIn k' (insertIn k v es) = if k = k' then some v else lookupIn k' es := by
  induction es with
  | nil => simp [insertIn, lookupIn]
  | cons e rest ih =>
      obtain ⟨x, w⟩ := e
      by_cases hx : x = k
      · subst hx
        by_cases hk : x = k' <;> simp [insertIn, lookupIn, hk]
      · by_cases hk : x = k'
        · subst hk
          simp [insertIn, lookupIn, hx, Ne.symm hx]
        · simp [insertIn, lookupIn, hx, hk, ih]

theorem lookupIn_eq_none (k : κ) (es : List (κ × α)) (h : k ∉ es.map Prod.fst) :
    lookupIn k es = none := by
  induction es with
  | nil => rfl
  | cons e rest ih =>
      obtain ⟨x, w⟩ := e
      simp only [List.map_cons, List.mem_cons, not_or] at h
      simp [lookupIn, Ne.symm h.1, ih h.2]

theorem lookupIn_filter (k : κ) (p : κ → α → Bool) (es : List (κ × α))
    (h : (es.map Prod.fst).Nodup) :
    lookupIn k (es.filter fun e => p e.1 e.2) = (lookupIn k es).filter (p k) := by
  induction es with
  | nil => rfl
  | cons e rest ih =>
      obtain ⟨x, w⟩ := e
      rw [List.map_cons, List.nodup_cons] at h
      by_cases hk : x = k
      · subst hk
        by_cases hp : p x w
        · simp [lookupIn, hp, Option.filter]
        · simp only [List.filter_cons, hp, Bool.false_eq_true, if_false]
          rw [ih h.2, lookupIn_eq_none x rest h.1]
          simp [lookupIn, Option.filter, hp]
      · by_cases hp : p x w <;> simp [lookupIn, hp, hk, ih h.2]

@[simp] theorem get?_empty (k : κ) : ({} : Assoc κ α).get? k = none := rfl

@[simp] theorem get?_insert (m : Assoc κ α) (k k' : κ) (v : α) :
    (m.insert k v).get? k' = if k = k' then some v else m.get? k' :=
  lookupIn_insertIn k k' v m.entries

@[simp] theorem get?_keep (m : Assoc κ α) (p : κ → α → Bool) (k : κ) :
    (m.keep p).get? k = (m.get? k).filter (p k) :=
  lookupIn_filter k p m.entries m.nodup

@[simp] theorem get?_erase (m : Assoc κ α) (k k' : κ) :
    (m.erase k).get? k' = if k' = k then none else m.get? k' := by
  rw [erase, get?_keep]
  by_cases h : k' = k
  · simp [h, Option.filter]
    cases m.get? k <;> rfl
  · cases hm : m.get? k' <;> simp [h, Option.filter]

/-! ## Listing a map -/

omit [DecidableEq κ] in
theorem nodup_entries (m : Assoc κ α) : m.entries.Nodup := by
  refine List.Pairwise.of_map Prod.fst ?_ m.nodup
  intro a b hne heq
  exact hne (congrArg Prod.fst heq)

theorem mem_iff_lookupIn (k : κ) (v : α) (es : List (κ × α)) (h : (es.map Prod.fst).Nodup) :
    (k, v) ∈ es ↔ lookupIn k es = some v := by
  induction es with
  | nil => simp [lookupIn]
  | cons e rest ih =>
      obtain ⟨x, w⟩ := e
      rw [List.map_cons, List.nodup_cons] at h
      by_cases hk : x = k
      · subst hk
        have hnot : (x, v) ∉ rest := fun hmem => h.1 (List.mem_map.mpr ⟨_, hmem, rfl⟩)
        simp [lookupIn, hnot, eq_comm]
      · simp [lookupIn, hk, Ne.symm hk, ih h.2]

/-- The entries are the pairs in the view. -/
theorem mem_entries (m : Assoc κ α) (k : κ) (v : α) : (k, v) ∈ m.entries ↔ m.get? k = some v :=
  mem_iff_lookupIn k v m.entries m.nodup

/-- The values are what the keys have. -/
theorem mem_values (m : Assoc κ α) (v : α) : v ∈ m.values ↔ ∃ k, m.get? k = some v := by
  unfold values
  rw [List.mem_map]
  constructor
  · rintro ⟨⟨k, v'⟩, hmem, rfl⟩
    exact ⟨k, (m.mem_entries k v').mp hmem⟩
  · rintro ⟨k, hget⟩
    exact ⟨(k, v), (m.mem_entries k v).mpr hget, rfl⟩

/-- The keys are those that have a value. -/
theorem mem_keys (m : Assoc κ α) (k : κ) : k ∈ m.keys ↔ (m.get? k).isSome := by
  unfold keys
  rw [List.mem_map, Option.isSome_iff_exists]
  constructor
  · rintro ⟨⟨k', v⟩, hmem, rfl⟩
    exact ⟨v, (m.mem_entries k' v).mp hmem⟩
  · rintro ⟨v, hget⟩
    exact ⟨(k, v), (m.mem_entries k v).mpr hget, rfl⟩

/-- Maps with the same view have the same values, up to order. -/
theorem values_perm {m m' : Assoc κ α} (h : ∀ k, m'.get? k = m.get? k) :
    m'.values.Perm m.values := by
  refine List.Perm.map Prod.snd ?_
  refine (List.perm_ext_iff_of_nodup m'.nodup_entries m.nodup_entries).mpr fun ⟨k, v⟩ => ?_
  rw [m'.mem_entries, m.mem_entries, h k]

/-- The value of `k` can be listed first. -/
theorem values_perm_erase (m : Assoc κ α) (k : κ) :
    m.values.Perm ((m.get? k).toList ++ (m.erase k).values) := by
  have hentries : m.entries.Perm ((m.get? k).toList.map (k, ·) ++ (m.erase k).entries) := by
    have hnodup : ((m.get? k).toList.map (k, ·) ++ (m.erase k).entries).Nodup := by
      refine List.nodup_append.mpr ⟨?_, nodup_entries _, ?_⟩
      · cases m.get? k <;> simp
      · rintro a ha b hb rfl
        obtain ⟨v, -, rfl⟩ := List.mem_map.mp ha
        have hget := ((m.erase k).mem_entries k v).mp hb
        simp at hget
    refine (List.perm_ext_iff_of_nodup m.nodup_entries hnodup).mpr fun ⟨x, v⟩ => ?_
    rw [m.mem_entries, List.mem_append, (m.erase k).mem_entries]
    by_cases hx : x = k
    · subst hx
      cases m.get? x <;> simp [eq_comm]
    · simp [hx, Ne.symm hx]
  have hvalues := hentries.map Prod.snd
  rw [List.map_append, List.map_map] at hvalues
  unfold values
  simpa [Function.comp_def] using hvalues

/-- The value that `k` gets can be listed first. -/
theorem values_perm_insert (m : Assoc κ α) (k : κ) (v : α) :
    (m.insert k v).values.Perm (v :: (m.erase k).values) := by
  have hfirst := (m.insert k v).values_perm_erase k
  rw [get?_insert, if_pos rfl] at hfirst
  refine hfirst.trans (List.Perm.cons v (values_perm fun k' => ?_))
  by_cases hk : k' = k
  · simp [hk]
  · simp [hk, Ne.symm hk]

/-! ## How many keys there are -/

omit [DecidableEq κ] in
theorem length_values (m : Assoc κ α) : m.values.length = m.size := List.length_map ..

/-- A key counts once if it has a value. -/
theorem size_eq_erase (m : Assoc κ α) (k : κ) :
    m.size = (m.get? k).toList.length + (m.erase k).size := by
  rw [← length_values, (m.values_perm_erase k).length_eq, List.length_append, length_values]

theorem size_insert (m : Assoc κ α) (k : κ) (v : α) :
    (m.insert k v).size + (m.get? k).toList.length = m.size + 1 := by
  have hrest : ((m.insert k v).erase k).size = (m.erase k).size := by
    rw [← length_values, ← length_values]
    refine (values_perm fun k' => ?_).length_eq
    by_cases hk : k' = k
    · simp [hk]
    · simp [hk, Ne.symm hk]
  rw [m.size_eq_erase k, (m.insert k v).size_eq_erase k, hrest, get?_insert, if_pos rfl]
  simp only [Option.toList_some, List.length_singleton]
  omega

/-- A key that has a value already does not count again. -/
theorem size_insert_of_get?_eq_some {m : Assoc κ α} {k : κ} {old : α} (h : m.get? k = some old)
    (v : α) : (m.insert k v).size = m.size := by
  have hcount := m.size_insert k v
  rw [h] at hcount
  exact Nat.add_right_cancel hcount

omit [DecidableEq κ] in
/-- The keys whose entries are not kept are as many as the map gets smaller. -/
theorem size_sub_keep (m : Assoc κ α) (p : κ → α → Bool) :
    m.size - (m.keep p).size = (m.keep fun k v => !p k v).keys.length := by
  have hsplit := List.length_eq_countP_add_countP (fun e => p e.1 e.2) (l := m.entries)
  have hdropped : (m.keep fun k v => !p k v).keys.length =
      m.entries.countP fun e => ¬p e.1 e.2 := by
    simp [keys, keep, List.countP_eq_length_filter]
  have hkept : (m.keep p).size = m.entries.countP fun e => p e.1 e.2 :=
    List.countP_eq_length_filter.symm
  have hsize : m.size = m.entries.length := rfl
  omega

end Assoc

end Rendezvous
