/-!
# Named properties

A finite map from names to texts, listed in ascending order of the names.  The order is part of the
type, so two maps with the same properties are equal and are written alike.
-/

namespace Rendezvous

/-- Named texts in strictly ascending order of their names. -/
structure Properties where
  /-- The properties, smallest name first. -/
  entries : List (String × String)
  /-- Names ascend, so no name occurs twice. -/
  ascending : entries.Pairwise fun a b => a.1 < b.1
deriving DecidableEq

namespace Properties

/-- No property is set. -/
def empty : Properties where
  entries := []
  ascending := .nil

/-- Lists `value` under `name`, in the place of an older value or where the order puts it. -/
def insertIn (name value : String) : List (String × String) → List (String × String)
  | [] => [(name, value)]
  | (n, v) :: rest =>
      if name < n then (name, value) :: (n, v) :: rest
      else if name = n then (name, value) :: rest
      else (n, v) :: insertIn name value rest

theorem fst_of_mem_insertIn {name value : String} {es : List (String × String)}
    {e : String × String} (h : e ∈ insertIn name value es) :
    e.1 = name ∨ ∃ e' ∈ es, e'.1 = e.1 := by
  induction es with
  | nil => simp_all [insertIn]
  | cons e' rest ih =>
      obtain ⟨n, v⟩ := e'
      by_cases hlt : name < n
      · simp only [insertIn, hlt, if_true, List.mem_cons] at h
        rcases h with rfl | rfl | h
        · exact .inl rfl
        · exact .inr ⟨_, by simp, rfl⟩
        · exact .inr ⟨e, by simp [h], rfl⟩
      · by_cases heq : name = n
        · subst heq
          simp only [insertIn, hlt, if_true, if_false, List.mem_cons] at h
          rcases h with rfl | h
          · exact .inl rfl
          · exact .inr ⟨e, by simp [h], rfl⟩
        · simp only [insertIn, hlt, heq, if_false, List.mem_cons] at h
          rcases h with rfl | h
          · exact .inr ⟨_, by simp, rfl⟩
          · rcases ih h with h' | ⟨e', he', h'⟩
            · exact .inl h'
            · exact .inr ⟨e', by simp [he'], h'⟩

theorem ascending_insertIn (name value : String) (es : List (String × String))
    (h : es.Pairwise fun a b => a.1 < b.1) :
    (insertIn name value es).Pairwise fun a b => a.1 < b.1 := by
  induction es with
  | nil => simp [insertIn]
  | cons e rest ih =>
      obtain ⟨n, v⟩ := e
      rw [List.pairwise_cons] at h
      by_cases hlt : name < n
      · simp only [insertIn, hlt, if_true, List.pairwise_cons, List.mem_cons]
        refine ⟨?_, h⟩
        rintro e (rfl | he)
        · exact hlt
        · exact String.lt_trans hlt (h.1 e he)
      · by_cases heq : name = n
        · subst heq
          simp only [insertIn, hlt, if_true, if_false, List.pairwise_cons]
          exact h
        · simp only [insertIn, hlt, heq, if_false, List.pairwise_cons]
          refine ⟨fun e he => ?_, ih h.2⟩
          have hn : n < name := by
            by_cases hle : name ≤ n
            · exact absurd (String.le_antisymm hle (String.not_lt.1 hlt)) heq
            · exact String.not_le.1 hle
          rcases fst_of_mem_insertIn he with h' | ⟨e', he', h'⟩
          · exact h' ▸ hn
          · exact h' ▸ h.1 e' he'

/-- Sets the property `name`. -/
def insert (p : Properties) (name value : String) : Properties where
  entries := insertIn name value p.entries
  ascending := ascending_insertIn name value p.entries p.ascending

/-- The property `name`, if it is set. -/
def get? (p : Properties) (name : String) : Option String :=
  (p.entries.find? fun e => e.1 = name).map Prod.snd

/-- Sets properties from left to right, later ones over earlier ones. -/
def ofList (es : List (String × String)) : Properties :=
  es.foldl (fun p e => p.insert e.1 e.2) empty

/-- The last text that is listed under `name`. -/
def last? (texts : List (String × String)) (name : String) : Option String :=
  (texts.reverse.find? fun e => e.1 = name).map Prod.snd

end Properties

end Rendezvous
