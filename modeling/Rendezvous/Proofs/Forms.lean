import Rendezvous.Json.Spelling
import Rendezvous.Proofs.Complaints
import Rendezvous.Proofs.NamedTexts

/-!
# Forms that read exactly the spellings of a term

A form that reads exactly the spellings of a term, and writes every term as one of them, is
faithful: it reads back what it writes, and a value that was read and written anew means what it
meant before.  This holds of the forms that have no fields: texts, properties and choices.

* `faithful_of_read_iff`: faithfulness from what is read and what is written;
* `faithful_through_text`, `faithful_properties`: texts under a name of their own, and properties;
* `read_choice_iff`: what is read as a choice.
-/

namespace Rendezvous.Json.Form

/-! ## Readings that go well -/

section Except

variable {ε α β : Type} {p : Except ε α}

theorem bind_eq_ok {f : α → Except ε β} {b : β} :
    p >>= f = .ok b ↔ ∃ a, p = .ok a ∧ f a = .ok b := by
  constructor
  · exact Csv.exists_ok_of_bind
  · rintro ⟨a, rfl, h⟩
    exact h

theorem map_eq_ok {f : α → β} {b : β} : p.map f = .ok b ↔ ∃ a, p = .ok a ∧ f a = b := by
  cases p with
  | error e => simp [Except.map]
  | ok a => simp [Except.map]

end Except

theorem renew_eq_ok {α : Type} {f : Form α} {v w : Value} :
    f.renew v = .ok w ↔ ∃ a, f.read v = .ok a ∧ f.write a = w :=
  map_eq_ok

/-- A form is faithful if it reads exactly the spellings of a term and writes one of them. -/
theorem faithful_of_read_iff {α : Type} {f : Form α} {SpelledBy : α → Value → Prop}
    (hread : ∀ a v, f.read v = .ok a ↔ SpelledBy a v) (hwrite : ∀ a, SpelledBy a (f.write a)) :
    f.Faithful SpelledBy := by
  have hback : f.RoundTrips := fun a => (hread a (f.write a)).2 (hwrite a)
  constructor
  · exact hread
  · exact hback
  · intro v w hrenew
    obtain ⟨a, ha, rfl⟩ := renew_eq_ok.1 hrenew
    exact (hback a).trans ha.symm
  · intro v w hrenew
    obtain ⟨a, -, rfl⟩ := renew_eq_ok.1 hrenew
    apply renew_eq_ok.2
    exact ⟨a, hback a, rfl⟩

/-! ## Texts -/

theorem read_text {v : Value} {s : String} : text.read v = .ok s ↔ v = .text s := by
  cases v with
  | text s' =>
    show Except.ok s' = Except.ok s ↔ _
    simp
  | null | boolean b | number n | list items | record ms =>
    exact iff_of_false (fun h => nomatch h) (fun h => nomatch h)

/-- A text under a name of its own is spelled by the text. -/
theorem faithful_through_text {α : Type} {wrap : String → α} {unwrap : α → String}
    (hwrap : ∀ a, wrap (unwrap a) = a) (hunwrap : ∀ s, unwrap (wrap s) = s) :
    (text.through wrap unwrap).Faithful fun a v => v = .text (unwrap a) := by
  apply faithful_of_read_iff
  · intro a v
    show (text.read v).map wrap = .ok a ↔ v = .text (unwrap a)
    simp only [map_eq_ok, read_text]
    constructor
    · rintro ⟨s, hs, rfl⟩
      rw [hunwrap, hs]
    · intro h
      exact ⟨unwrap a, h, hwrap a⟩
  · intro a
    rfl

/-! ## Properties -/

/-- A text as a member. -/
def textMember (e : String × String) : String × Value := (e.1, .text e.2)

/-- Properties are read by setting one text after the other. -/
theorem foldlM_insert_eq_ok {p q : Properties} {ms : List (String × Value)} :
    ms.foldlM (fun p m => (text.read m.2).map (p.insert m.1)) p = .ok q ↔
      ∃ texts : List (String × String), ms = texts.map textMember ∧
        texts.foldl (fun p e => p.insert e.1 e.2) p = q := by
  -- on the members still to come, with whatever is set by then
  induction ms generalizing p with
  | nil =>
    constructor
    · intro h
      exact ⟨[], rfl, Except.ok.inj h⟩
    · rintro ⟨texts, hnil, h⟩
      rw [List.map_eq_nil_iff.1 hnil.symm] at h
      exact congrArg Except.ok h
  | cons m ms ih =>
    simp only [List.foldlM_cons, bind_eq_ok, map_eq_ok, read_text, ih]
    constructor
    · rintro ⟨-, ⟨s, hs, rfl⟩, texts, rfl, h⟩
      exact ⟨(m.1, s) :: texts, by simp [textMember, ← hs], h⟩
    · rintro ⟨texts, hms, h⟩
      obtain ⟨e, texts, rfl, rfl, rfl⟩ := List.map_eq_cons_iff.1 hms.symm
      exact ⟨_, ⟨e.2, rfl, rfl⟩, texts, rfl, h⟩

theorem ofList_eq_iff {p : Properties} {texts : List (String × String)} :
    Properties.ofList texts = p ↔ ∀ name, p.get? name = Properties.last? texts name := by
  constructor
  · rintro rfl name
    exact Properties.get?_ofList texts name
  · intro h
    apply Properties.ext_get?
    intro name
    rw [Properties.get?_ofList, h]

theorem faithful_properties : properties.Faithful Properties.SpelledBy := by
  apply faithful_of_read_iff
  · intro p v
    cases v with
    | record ms =>
      show readProperties ms = .ok p ↔ ∃ texts : List (String × String), _
      unfold readProperties
      simp only [foldlM_insert_eq_ok, ← ofList_eq_iff]
      exact Iff.rfl
    | null | boolean b | number n | text s | list items =>
      exact iff_of_false (fun h => nomatch h) id
  · intro p
    refine ⟨p.entries, rfl, ?_⟩
    exact ofList_eq_iff.1 p.ofList_entries

/-! ## Choices -/

namespace Variant

variable {α : Type} {variant : Variant α} {name name' : String} {a : α} {v : Value}

theorem spelledBy_text :
    variant.SpelledBy name a (.text name') ↔ name = name' ∧ variant.read none = .ok a := by
  cases variant with
  | plain b =>
    show a = b ∧ _ ↔ name = name' ∧ Except.ok b = Except.ok a
    simp [and_comm, eq_comm]
  | ofText make =>
    show (∃ s, a = make s ∧ _) ↔ name = name' ∧ Except.error _ = Except.ok a
    simp

theorem spelledBy_record :
    variant.SpelledBy name a (.record [(name', v)]) ↔
      name = name' ∧ variant.read (some v) = .ok a := by
  cases variant with
  | plain b =>
    have hread : (plain b).read (some v) = .ok a ↔ v = .null ∧ b = a := by
      cases v with
      | null =>
        show Except.ok b = Except.ok a ↔ _
        simp
      | boolean _ | number _ | text _ | list _ | record _ =>
        exact iff_of_false (fun h => nomatch h) (fun h => nomatch h.1)
    rw [hread]
    show a = b ∧ _ ↔ _
    simp only [reduceCtorEq, Value.record.injEq, List.cons.injEq, Prod.mk.injEq, false_or, and_true]
    grind
  | ofText make =>
    show (∃ s, a = make s ∧ _) ↔ name = name' ∧ (text.read v).map make = .ok a
    simp only [map_eq_ok, read_text, Value.record.injEq, List.cons.injEq, Prod.mk.injEq, and_true]
    grind

/-- A variant is spelled by a text or by a record with one member. -/
theorem SpelledBy.cases (h : variant.SpelledBy name a v) :
    v = .text name ∨ ∃ content, v = .record [(name, content)] := by
  cases variant with
  | plain b => exact h.2.imp_right fun hv => ⟨_, hv⟩
  | ofText make =>
    obtain ⟨s, -, hv⟩ := h
    exact .inr ⟨_, hv⟩

end Variant

section Choice

variable {α : Type} {variants : List (String × Variant α)} {pick : α → String × Option String}
  {a : α} {v : Value}

/-- The variant of a name is the only one in the list. -/
theorem find?_name_eq_some (hnames : (variants.map Prod.fst).Nodup) {name : String}
    {p : String × Variant α} :
    variants.find? (fun q => q.1 = name) = some p ↔ p ∈ variants ∧ p.1 = name := by
  induction variants with
  | nil => simp
  | cons q rest ih =>
    obtain ⟨hfirst, hrest⟩ := List.nodup_cons.1 hnames
    rw [List.find?_cons, List.mem_cons]
    by_cases hname : q.1 = name
    · -- no later variant has the name of the first one
      have hlater : p ∈ rest → p.1 ≠ name := by
        rintro hp rfl
        exact hfirst (hname ▸ List.mem_map_of_mem hp)
      simp only [hname, decide_true, Option.some.injEq]
      constructor
      · rintro rfl
        exact ⟨.inl rfl, hname⟩
      · rintro ⟨rfl | hp, hpname⟩
        · rfl
        · exact absurd hpname (hlater hp)
    · simp only [hname, decide_false, ih hrest]
      constructor
      · rintro ⟨hp, hpname⟩
        exact ⟨.inr hp, hpname⟩
      · rintro ⟨rfl | hp, hpname⟩
        · exact absurd hpname hname
        · exact ⟨hp, hpname⟩

/-- What is read under a name is read as the variant of that name. -/
theorem select_iff (hnames : (variants.map Prod.fst).Nodup) {name : String}
    {content? : Option Value} :
    select variants name content? = .ok a ↔
      ∃ p ∈ variants, p.1 = name ∧ p.2.read content? = .ok a := by
  unfold select
  cases hfind : variants.find? fun p => p.1 = name with
  | none =>
    apply iff_of_false
    · rintro ⟨⟩
    · rintro ⟨p, hp, hname, -⟩
      rw [(find?_name_eq_some hnames).2 ⟨hp, hname⟩] at hfind
      cases hfind
  | some p =>
    constructor
    · intro h
      obtain ⟨hp, hname⟩ := (find?_name_eq_some hnames).1 hfind
      exact ⟨p, hp, hname, h⟩
    · rintro ⟨p', hp', hname, h⟩
      rw [(find?_name_eq_some hnames).2 ⟨hp', hname⟩] at hfind
      exact Option.some.inj hfind ▸ h

/-- What is read as a choice is a spelling of one of its variants. -/
theorem read_choice_iff (hnames : (variants.map Prod.fst).Nodup) :
    (choice variants pick).read v = .ok a ↔ ∃ p ∈ variants, p.2.SpelledBy p.1 a v := by
  -- a value of another kind is refused and spells no variant
  have hother : (∀ name, v ≠ .text name) → (∀ name content, v ≠ .record [(name, content)]) →
      ¬∃ p ∈ variants, p.2.SpelledBy p.1 a v := by
    rintro htext hrecord ⟨p, -, h⟩
    obtain hv | ⟨content, hv⟩ := h.cases
    · exact htext _ hv
    · exact hrecord _ _ hv
  cases v with
  | text name =>
    simp only [Variant.spelledBy_text]
    exact select_iff hnames
  | record ms =>
    cases ms with
    | nil => exact iff_of_false (by rintro ⟨⟩) (hother (by simp) (by simp))
    | cons m rest =>
      cases rest with
      | nil =>
        obtain ⟨name, content⟩ := m
        simp only [Variant.spelledBy_record]
        exact select_iff hnames
      | cons m' rest => exact iff_of_false (by rintro ⟨⟩) (hother (by simp) (by simp))
  | null | boolean b | number n | list items =>
    exact iff_of_false (by rintro ⟨⟩) (hother (by simp) (by simp))

end Choice

end Rendezvous.Json.Form
