import Mathlib.Data.List.Induction
import Rendezvous.Properties

/-!
# Properties are what can be looked up in them

Since the names of properties ascend, two of them with the same texts under the same names are
equal.  Properties that are set one after the other hold the last text of every name, and setting
the properties of a list that ascends already gives that list.

* `ext_get?`: equality from lookups;
* `get?_insert`, `get?_ofList`: what is looked up after one property was set, and after many;
* `ofList_entries`: properties listed in their own order.
-/

namespace Rendezvous.Properties

theorem last?_concat (texts : List (String × String)) (e : String × String) (name : String) :
    last? (texts ++ [e]) name = if e.1 = name then some e.2 else last? texts name := by
  unfold last?
  rw [List.reverse_concat, List.find?_cons]
  by_cases hname : e.1 = name
  · simp [hname]
  · simp [hname]

/-! ## Lookups -/

theorem find?_insertIn (name value name' : String) (es : List (String × String)) :
    (insertIn name value es).find? (fun e => e.1 = name') =
      if name = name' then some (name, value) else es.find? fun e => e.1 = name' := by
  induction es with
  | nil =>
    by_cases hname : name = name'
    · simp [insertIn, hname]
    · simp [insertIn, hname]
  | cons e rest ih =>
    obtain ⟨n, v⟩ := e
    by_cases hlt : name < n
    · simp only [insertIn, hlt, if_true]
      by_cases hname : name = name'
      · simp [hname]
      · simp [hname]
    · by_cases heq : name = n
      · subst heq
        simp only [insertIn, hlt, if_true, if_false]
        by_cases hname : name = name'
        · simp [hname]
        · simp [hname]
      · simp only [insertIn, hlt, heq, if_false, List.find?_cons, ih]
        by_cases hname : name = name'
        · simp [hname, show n ≠ name' from fun h => heq (hname.trans h.symm)]
        · simp [hname]

@[simp] theorem get?_insert (p : Properties) (name value name' : String) :
    (p.insert name value).get? name' = if name = name' then some value else p.get? name' := by
  show ((insertIn name value p.entries).find? fun e => e.1 = name').map Prod.snd = _
  rw [find?_insertIn]
  by_cases hname : name = name'
  · simp [hname]
  · simp [hname, get?]

/-- Properties set one after the other hold the last text of every name. -/
theorem get?_ofList (texts : List (String × String)) (name : String) :
    (ofList texts).get? name = last? texts name := by
  induction texts using List.reverseRecOn with
  | nil => rfl
  | append_singleton texts e ih =>
    have hset : ofList (texts ++ [e]) = (ofList texts).insert e.1 e.2 := by
      simp [ofList, List.foldl_append]
    rw [hset, get?_insert, last?_concat, ih]

/-! ## Equality -/

theorem nodup_entries (p : Properties) : p.entries.Nodup :=
  p.ascending.imp fun {a b} hlt (heq : a = b) => String.lt_irrefl b.1 (heq ▸ hlt)

/-- What is listed is what can be looked up. -/
theorem mem_entries_iff (p : Properties) (e : String × String) :
    e ∈ p.entries ↔ p.get? e.1 = some e.2 := by
  obtain ⟨es, hes⟩ := p
  show e ∈ es ↔ (es.find? fun e' => e'.1 = e.1).map Prod.snd = some e.2
  induction es with
  | nil => simp
  | cons head rest ih =>
    obtain ⟨hfirst, hrest⟩ := List.pairwise_cons.1 hes
    rw [List.mem_cons, ih hrest, List.find?_cons]
    by_cases hname : head.1 = e.1
    · -- no later entry has the name of the first one
      have hnone : rest.find? (fun e' => e'.1 = e.1) = none := by
        apply List.find?_eq_none.2
        intro e' he' hsame
        have hlt := hfirst e' he'
        rw [of_decide_eq_true hsame, hname] at hlt
        exact String.lt_irrefl _ hlt
      simp only [hname, hnone, Prod.ext_iff, decide_true, Option.map_none, Option.map_some,
        Option.some.injEq, reduceCtorEq, or_false, true_and]
      exact eq_comm
    · have hne : e ≠ head := fun h => hname (h ▸ rfl)
      simp [hname, hne]

/-- Properties with the same texts under the same names are the same. -/
theorem ext_get? {p q : Properties} (h : ∀ name, p.get? name = q.get? name) : p = q := by
  have hperm : p.entries.Perm q.entries := by
    apply (List.perm_ext_iff_of_nodup p.nodup_entries q.nodup_entries).2
    intro e
    rw [mem_entries_iff, mem_entries_iff, h]
  have hentries : p.entries = q.entries := by
    apply hperm.eq_of_pairwise _ p.ascending q.ascending
    intro a b _ _ hab hba
    exact absurd (String.lt_trans hab hba) (String.lt_irrefl _)
  cases p
  cases q
  congr

/-! ## Properties in their own order -/

/-- A name beyond all others is listed last. -/
theorem insertIn_of_forall_lt {name value : String} {es : List (String × String)}
    (h : ∀ e ∈ es, e.1 < name) : insertIn name value es = es ++ [(name, value)] := by
  induction es with
  | nil => rfl
  | cons e rest ih =>
    obtain ⟨n, v⟩ := e
    obtain ⟨hn, hrest⟩ := List.forall_mem_cons.1 h
    have hlt : ¬name < n := fun hlt => String.lt_irrefl _ (String.lt_trans hn hlt)
    have hne : name ≠ n := fun heq => String.lt_irrefl _ (heq ▸ hn)
    simp [insertIn, hlt, hne, ih hrest]

theorem entries_ofList {es : List (String × String)} (h : es.Pairwise fun a b => a.1 < b.1) :
    (ofList es).entries = es := by
  induction es using List.reverseRecOn with
  | nil => rfl
  | append_singleton es e ih =>
    obtain ⟨hes, -, hlast⟩ := List.pairwise_append.1 h
    have hset : (ofList (es ++ [e])).entries = insertIn e.1 e.2 (ofList es).entries := by
      simp [ofList, List.foldl_append, insert]
    rw [hset, ih hes]
    exact insertIn_of_forall_lt fun e' he' => hlast e' he' e (List.mem_singleton_self e)

/-- Setting properties in their own order gives them again. -/
theorem ofList_entries (p : Properties) : ofList p.entries = p := by
  have hentries := entries_ofList p.ascending
  cases p
  cases hof : ofList _
  simp_all

end Rendezvous.Properties
