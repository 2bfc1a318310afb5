import Mathlib.Data.List.Perm.Basic
import Rendezvous.Proofs.Forms

/-!
# Records are read as they are spelled

A record is read member by member into a draft.  What has been entered and what is still to come
complete a field in one way only: the content that is known and no member of the name any more, or
one member of the name, or no member at all and the content that the field holds without.  One more
member moves a content from what is to come to what is known, and at the end of the members the
draft is complete exactly if every field is.

* `Draft.completedBy_cons`: one member;
* `Draft.completedBy_iff`: all members, from any draft on;
* `Row.listedBy_iff`: contents without names;
* `faithful_record`: the form of a record is faithful to the ways to spell it, if the forms of its
  fields read what they write and no two fields have one name.
-/

namespace Rendezvous.Json.Form

/-! ## One field -/

namespace Field

variable {f : Field} {m : String × Value} {ms ms' : List (String × Value)} {content : f.Content}

theorem named_cons (f : Field) (m : String × Value) (ms : List (String × Value)) :
    f.named (m :: ms) = if m.1 = f.name then m :: f.named ms else f.named ms := by
  by_cases hname : m.1 = f.name
  · simp [named, hname]
  · simp [named, hname]

/-- Only the members of its name matter to a field, and of these not even the order. -/
theorem GivenBy.of_perm (hperm : (f.named ms).Perm (f.named ms')) (h : f.GivenBy ms content) :
    f.GivenBy ms' content := by
  unfold GivenBy at h ⊢
  -- no member and one member stand in one order only, and more are never the content of a field
  split at h
  · rename_i hnone
    rw [hnone] at hperm
    rw [List.nil_perm.1 hperm]
    exact h
  · rename_i m hone
    rw [hone] at hperm
    rw [← List.singleton_perm.1 hperm]
    exact h
  · exact h.elim

theorem givenBy_cons_of_ne (hname : m.1 ≠ f.name) :
    f.GivenBy (m :: ms) content ↔ f.GivenBy ms content := by
  unfold GivenBy
  rw [named_cons, if_neg hname]

theorem givenBy_cons (hname : m.1 = f.name) :
    f.GivenBy (m :: ms) content ↔ f.form.read m.2 = .ok content ∧ f.named ms = [] := by
  unfold GivenBy
  rw [named_cons, if_pos hname]
  cases f.named ms with
  | nil => simp
  | cons m' rest => simp

/-- Members complete a field of which `content?` is known. -/
def CompletedBy (f : Field) (content? : Option f.Content) (members : List (String × Value))
    (content : f.Content) : Prop :=
  match content? with
  | some known => known = content ∧ f.named members = []
  | none => f.GivenBy members content

theorem completedBy_cons_of_ne {content? : Option f.Content} (hname : m.1 ≠ f.name) :
    f.CompletedBy content? (m :: ms) content ↔ f.CompletedBy content? ms content := by
  cases content? with
  | none => exact givenBy_cons_of_ne hname
  | some known =>
    unfold CompletedBy
    rw [named_cons, if_neg hname]

theorem not_completedBy_cons {known : f.Content} (hname : m.1 = f.name) :
    ¬f.CompletedBy (some known) (m :: ms) content := by
  rintro ⟨-, hnone⟩
  rw [named_cons, if_pos hname] at hnone
  exact List.cons_ne_nil _ _ hnone

theorem completedBy_nil {content? : Option f.Content} :
    f.CompletedBy content? [] content ↔ (content? <|> f.absent?) = some content := by
  cases content? with
  | none => exact Iff.rfl
  | some known => simp [CompletedBy, named]

end Field

/-! ## Drafts -/

namespace Draft

variable {fs : List Field} {d : Draft fs} {row : Row fs} {m : String × Value}
  {ms : List (String × Value)}

/-- A member of another name is left to the other fields. -/
theorem enter_of_ne {f : Field} {content? : Option f.Content} {d' : Draft (f :: fs)}
    (hname : m.1 ≠ f.name) :
    enter (f :: fs) (content?, d) m = .ok d' ↔
      ∃ d₁, enter fs d m = .ok d₁ ∧ (content?, d₁) = d' := by
  have henter : enter (f :: fs) (content?, d) m = (enter fs d m).map fun d => (content?, d) :=
    if_neg hname
  rw [henter]
  exact map_eq_ok

/-- A member of its name is read into a field of which nothing is known. -/
theorem enter_of_eq {f : Field} {content? : Option f.Content} {d' : Draft (f :: fs)}
    (hname : m.1 = f.name) :
    enter (f :: fs) (content?, d) m = .ok d' ↔
      content? = none ∧ ∃ content, f.form.read m.2 = .ok content ∧ (some content, d) = d' := by
  cases content? with
  | none =>
    have henter : enter (f :: fs) (none, d) m =
        (f.form.read m.2).map fun content => (some content, d) := if_pos hname
    rw [henter, and_iff_right rfl]
    exact map_eq_ok
  | some known =>
    have henter : enter (f :: fs) (some known, d) m = .error (.duplicateField m.1) := if_pos hname
    simp [henter]

theorem complete_cons {f : Field} {content? : Option f.Content} {content : f.Content} :
    complete (f :: fs) (content?, d) = .ok (content, row) ↔
      (content? <|> f.absent?) = some content ∧ complete fs d = .ok row := by
  show (match content? <|> f.absent? with
    | some content => (complete fs d).map fun row => (content, row)
    | none => .error (.missingField f.name)) = .ok (content, row) ↔ _
  cases content? <|> f.absent? with
  | none => simp
  | some content' =>
    simp only [map_eq_ok, Option.some.injEq]
    constructor
    · rintro ⟨row', hrow, hsame⟩
      obtain ⟨rfl, rfl⟩ := Prod.mk.inj hsame
      exact ⟨rfl, hrow⟩
    · rintro ⟨rfl, hrow⟩
      exact ⟨row, hrow, rfl⟩

/-- Members complete every field of a draft. -/
def CompletedBy (members : List (String × Value)) : (fs : List Field) → Draft fs → Row fs → Prop
  | [], _, _ => True
  | f :: fs, (content?, d), (content, row) =>
      f.CompletedBy content? members content ∧ CompletedBy members fs d row

theorem completedBy_nil : CompletedBy [] fs d row ↔ d.complete fs = .ok row := by
  induction fs with
  | nil => exact iff_of_true trivial rfl
  | cons f fs ih =>
    obtain ⟨content?, d⟩ := d
    obtain ⟨content, row⟩ := row
    show f.CompletedBy content? [] content ∧ CompletedBy [] fs d row ↔ _
    rw [Field.completedBy_nil, ih]
    exact complete_cons.symm

theorem completedBy_cons_of_not_mem (hname : m.1 ∉ names fs) :
    CompletedBy (m :: ms) fs d row ↔ CompletedBy ms fs d row := by
  induction fs with
  | nil => exact Iff.rfl
  | cons f fs ih =>
    obtain ⟨content?, d⟩ := d
    obtain ⟨content, row⟩ := row
    obtain ⟨hf, hfs⟩ : m.1 ≠ f.name ∧ m.1 ∉ names fs := by simpa [names] using hname
    exact and_congr (Field.completedBy_cons_of_ne hf) (ih hfs)

/-- One member is read into the field of its name, which must not be known before. -/
theorem completedBy_cons (hnames : (names fs).Nodup) :
    CompletedBy (m :: ms) fs d row ↔ ∃ d', enter fs d m = .ok d' ∧ CompletedBy ms fs d' row := by
  induction fs with
  | nil => exact iff_of_true trivial ⟨d, rfl, trivial⟩
  | cons f fs ih =>
    obtain ⟨content?, d⟩ := d
    obtain ⟨content, row⟩ := row
    obtain ⟨hfirst, hrest⟩ := List.nodup_cons.1 hnames
    show f.CompletedBy content? (m :: ms) content ∧ CompletedBy (m :: ms) fs d row ↔ _
    by_cases hname : m.1 = f.name
    · -- the member belongs to this field and hence to no later one
      rw [completedBy_cons_of_not_mem (hname ▸ hfirst)]
      simp only [enter_of_eq hname]
      constructor
      · rintro ⟨hfield, hlater⟩
        cases content? with
        | some known => exact absurd hfield (Field.not_completedBy_cons hname)
        | none =>
          obtain ⟨hread, hnone⟩ := (Field.givenBy_cons hname).1 hfield
          exact ⟨_, ⟨rfl, content, hread, rfl⟩, ⟨rfl, hnone⟩, hlater⟩
      · rintro ⟨-, ⟨rfl, content', hread, rfl⟩, ⟨rfl, hnone⟩, hlater⟩
        exact ⟨(Field.givenBy_cons hname).2 ⟨hread, hnone⟩, hlater⟩
    · rw [Field.completedBy_cons_of_ne hname, ih hrest]
      simp only [enter_of_ne hname]
      constructor
      · rintro ⟨hfield, d', henter, hlater⟩
        exact ⟨_, ⟨d', henter, rfl⟩, hfield, hlater⟩
      · rintro ⟨-, ⟨d', henter, rfl⟩, hfield, hlater⟩
        exact ⟨hfield, d', henter, hlater⟩

/-- All members: by induction on them, with the draft as it is before the first of them. -/
theorem completedBy_iff (hnames : (names fs).Nodup) :
    CompletedBy ms fs d row ↔
      ∃ d', ms.foldlM (enter fs) d = .ok d' ∧ d'.complete fs = .ok row := by
  induction ms generalizing d with
  | nil =>
    rw [completedBy_nil]
    constructor
    · intro h
      exact ⟨d, rfl, h⟩
    · rintro ⟨d', heq, h⟩
      exact Except.ok.inj heq ▸ h
  | cons m ms ih =>
    rw [completedBy_cons hnames]
    simp only [List.foldlM_cons, bind_eq_ok, ih]
    constructor
    · rintro ⟨d₁, henter, d', hlater, h⟩
      exact ⟨d', ⟨d₁, henter, hlater⟩, h⟩
    · rintro ⟨d', ⟨d₁, henter, hlater⟩, h⟩
      exact ⟨d₁, henter, d', hlater, h⟩

end Draft

/-! ## Rows -/

namespace Row

variable {fs : List Field} {row : Row fs} {m : String × Value} {ms ms' : List (String × Value)}

theorem givenBy_iff : row.GivenBy ms fs ↔ Draft.CompletedBy ms fs (Draft.empty fs) row := by
  induction fs with
  | nil => exact Iff.rfl
  | cons f fs ih => exact and_congr Iff.rfl ih

theorem givenBy_cons_of_not_mem (hname : m.1 ∉ names fs) :
    row.GivenBy (m :: ms) fs ↔ row.GivenBy ms fs := by
  rw [givenBy_iff, givenBy_iff, Draft.completedBy_cons_of_not_mem hname]

/-- Neither members of other names nor the order matter to a row. -/
theorem GivenBy.of_perm (h : row.GivenBy ms fs)
    (hperm : ∀ f ∈ fs, (f.named ms).Perm (f.named ms')) : row.GivenBy ms' fs := by
  induction fs with
  | nil => trivial
  | cons f fs ih =>
    obtain ⟨hf, hfs⟩ := List.forall_mem_cons.1 hperm
    exact ⟨h.1.of_perm hf, ih h.2 hfs⟩

theorem named_known {f : Field} (hf : f ∈ fs) (ms : List (String × Value)) :
    f.named (known fs ms) = f.named ms := by
  unfold Field.named known
  rw [List.filter_filter]
  apply List.filter_congr
  intro m _
  have hmem : f.name ∈ names fs := List.mem_map_of_mem hf
  by_cases hname : m.1 = f.name
  · simp [hname, hmem]
  · simp [hname]

/-- The members that a row is written as have the names of the fields. -/
theorem named_toMembers {f : Field} (hname : f.name ∉ names fs) (row : Row fs) :
    f.named (row.toMembers fs) = [] := by
  induction fs with
  | nil => rfl
  | cons f' fs ih =>
    obtain ⟨hf, hfs⟩ : f.name ≠ f'.name ∧ f.name ∉ names fs := by simpa [names] using hname
    show f.named ((f'.name, f'.form.write row.1) :: row.2.toMembers fs) = []
    rw [Field.named_cons, if_neg hf.symm]
    exact ih hfs row.2

/-- What a row is written as gives the row. -/
theorem givenBy_toMembers (hnames : (names fs).Nodup) (hforms : ∀ f ∈ fs, f.form.RoundTrips)
    (row : Row fs) : row.GivenBy (row.toMembers fs) fs := by
  induction fs with
  | nil => trivial
  | cons f fs ih =>
    obtain ⟨content, row⟩ := row
    obtain ⟨hfirst, hrest⟩ := List.nodup_cons.1 hnames
    obtain ⟨hf, hfs⟩ := List.forall_mem_cons.1 hforms
    constructor
    · apply (Field.givenBy_cons rfl).2
      exact ⟨hf content, named_toMembers hfirst row⟩
    · apply (givenBy_cons_of_not_mem hfirst).2
      exact ih hrest hfs row

/-- The contents that a row is written as list the row. -/
theorem listedBy_toMembers (hforms : ∀ f ∈ fs, f.form.RoundTrips) (row : Row fs) :
    row.ListedBy ((row.toMembers fs).map Prod.snd) fs := by
  induction fs with
  | nil => exact rfl
  | cons f fs ih =>
    obtain ⟨hf, hfs⟩ := List.forall_mem_cons.1 hforms
    exact ⟨hf row.1, ih hfs row.2⟩

/-- Items are read into the fields one after the other, and none is left. -/
theorem listedBy_iff (expected : String) {items : List Value} {n : Nat} :
    row.ListedBy items fs ↔ ofItems expected fs n items = .ok (row, []) := by
  induction fs generalizing items n with
  | nil =>
    constructor
    · rintro rfl
      rfl
    · intro h
      exact (Prod.mk.inj (Except.ok.inj h)).2
  | cons f fs ih =>
    obtain ⟨content, row⟩ := row
    cases items with
    | nil =>
      show f.absent? = some content ∧ row.ListedBy [] fs ↔ (match f.absent? with
        | some content =>
            (ofItems expected fs (n + 1) []).map fun (p : Row fs × List Value) =>
              ((content, p.1), p.2)
        | none => .error (.length n expected)) = .ok ((content, row), [])
      cases f.absent? with
      | none => simp
      | some content' =>
        simp only [ih (n := n + 1), map_eq_ok, Option.some.injEq]
        constructor
        · rintro ⟨rfl, hlater⟩
          exact ⟨(row, []), hlater, rfl⟩
        · rintro ⟨⟨row', rest⟩, hlater, hsame⟩
          obtain ⟨hrow, rfl⟩ := Prod.mk.inj hsame
          obtain ⟨rfl, rfl⟩ := Prod.mk.inj hrow
          exact ⟨rfl, hlater⟩
    | cons v items =>
      show f.form.read v = .ok content ∧ row.ListedBy items fs ↔
        (f.form.read v >>= fun content => ofItems expected fs (n + 1) items >>= fun p =>
          pure ((content, p.1), p.2)) = .ok ((content, row), [])
      simp only [ih (n := n + 1), bind_eq_ok]
      constructor
      · rintro ⟨hread, hlater⟩
        exact ⟨content, hread, (row, []), hlater, rfl⟩
      · rintro ⟨content', hread, ⟨row', rest⟩, hlater, hsame⟩
        obtain ⟨hrow, rfl⟩ := Prod.mk.inj (Except.ok.inj hsame)
        obtain ⟨rfl, rfl⟩ := Prod.mk.inj hrow
        exact ⟨hread, hlater⟩

end Row

/-! ## Records -/

section Record

variable {α : Type} {name : String} {fields : List Field} {ofRow : Row fields → α}
  {toRow : α → Row fields}

theorem read_record (hnames : (names fields).Nodup) {ms : List (String × Value)} {a : α} :
    (record name fields ofRow toRow).read (.record ms) = .ok a ↔
      ∃ row : Row fields, row.GivenBy ms fields ∧ ofRow row = a := by
  show (ms.foldlM (Draft.enter fields) (Draft.empty fields) >>= fun d =>
    d.complete fields >>= fun row => pure (ofRow row)) = .ok a ↔ _
  simp only [bind_eq_ok, Row.givenBy_iff, Draft.completedBy_iff hnames]
  constructor
  · rintro ⟨d, henter, row, hcomplete, hsame⟩
    exact ⟨row, ⟨d, henter, hcomplete⟩, Except.ok.inj hsame⟩
  · rintro ⟨row, ⟨d, henter, hcomplete⟩, rfl⟩
    exact ⟨d, henter, row, hcomplete, rfl⟩

theorem read_list {items : List Value} {a : α} :
    (record name fields ofRow toRow).read (.list items) = .ok a ↔
      ∃ row : Row fields, row.ListedBy items fields ∧ ofRow row = a := by
  show (Row.ofItems ("struct " ++ name ++ " with " ++ elements fields.length) fields 0 items >>=
    fun p => if p.2.isEmpty then pure (ofRow p.1)
      else .error (.length items.length "fewer elements in array")) = .ok a ↔ _
  simp only [bind_eq_ok, Row.listedBy_iff ("struct " ++ name ++ " with " ++ elements fields.length)
    (n := 0)]
  constructor
  · rintro ⟨⟨row, rest⟩, hitems, hsame⟩
    cases rest with
    | nil => exact ⟨row, hitems, Except.ok.inj hsame⟩
    | cons v rest => cases hsame
  · rintro ⟨row, hitems, rfl⟩
    exact ⟨(row, []), hitems, rfl⟩

/-- Nothing is read as a record but its spellings. -/
theorem read_record_iff (name : String) (hnames : (names fields).Nodup)
    (hof : ∀ a, ofRow (toRow a) = a) (hto : ∀ row, toRow (ofRow row) = row) (a : α) (v : Value) :
    (record name fields ofRow toRow).read v = .ok a ↔ (toRow a).SpelledBy fields v := by
  -- the only row that makes `a` is its own
  have hrow : ∀ P : Row fields → Prop, (∃ row, P row ∧ ofRow row = a) ↔ P (toRow a) := by
    intro P
    constructor
    · rintro ⟨row, h, rfl⟩
      exact (hto row).symm ▸ h
    · intro h
      exact ⟨toRow a, h, hof a⟩
  cases v with
  | record ms => exact (read_record hnames).trans (hrow _)
  | list items => exact read_list.trans (hrow _)
  | null | boolean b | number n | text s => exact iff_of_false (fun h => nomatch h) id

/-- Fields with forms that read what they write, under names of their own, make a record with a
form that is faithful to all its spellings. -/
theorem faithful_record (hnames : (names fields).Nodup) (hforms : ∀ f ∈ fields, f.form.RoundTrips)
    (hof : ∀ a, ofRow (toRow a) = a) (hto : ∀ row, toRow (ofRow row) = row) :
    (record name fields ofRow toRow).FaithfulRecord fields toRow := by
  have hread := read_record_iff name hnames hof hto
  constructor
  · apply faithful_of_read_iff hread
    intro a
    exact Row.givenBy_toMembers hnames hforms (toRow a)
  · intro ms ms' hperm a h
    apply (hread a (.record ms')).2
    apply Row.GivenBy.of_perm ((hread a (.record ms)).1 h)
    intro f hf
    rw [← Row.named_known hf ms, ← Row.named_known hf ms']
    exact hperm.filter _
  · intro a
    apply (hread a _).2
    exact Row.listedBy_toMembers hforms (toRow a)

end Record

end Rendezvous.Json.Form
