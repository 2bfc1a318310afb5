import Rendezvous.Csv.Strict
import Rendezvous.Proofs.CsvRecords

/-!
# Written records are strict

A field that is written as it is has nothing in it that the strict reader would refuse or take for
the end of the field, and one that stands in quotes is closed only by its last quote.  So the comma
or the line feed after a field ends this field, and a record is read as what it was written from.

* `foldlM_fieldPieces`: a field and what ends it;
* `foldlM_recordPieces`: a record, whatever follows;
* `strictRecords?_records`: the records of a file.
-/

namespace Rendezvous.Csv.Strict

variable {s : Strict} {b d : UInt8}

/-! ## Fields -/

/-- Bytes in a field without quotes. -/
theorem foldlM_plain (hspot : s.spot = .plain) (bs : List UInt8)
    (hplain : bs.any isSpecial = false) :
    bs.foldlM step? s = some { s with field := bs.reverse ++ s.field } := by
  induction bs generalizing s with
  | nil => rfl
  | cons b bs ih =>
    obtain ⟨hb, hbs⟩ : isSpecial b = false ∧ bs.any isSpecial = false := by simpa using hplain
    have hstep : s.step? b = some (s.keep .plain b) := by simp [step?, hspot, unquoted?, hb]
    rw [List.foldlM_cons, hstep]
    refine (ih rfl hbs).trans ?_
    simp [keep, hspot]

/-- A byte between quotes, as it is written there. -/
theorem foldlM_quotedByte (hspot : s.spot = .quoted) (b : UInt8) :
    (quotedByte b).foldlM step? s = some (s.keep .quoted b) := by
  by_cases hb : b = quote
  · simp [quotedByte, hb, step?, hspot, keep]
  · simp [quotedByte, hb, step?, hspot]

/-- Bytes between quotes. -/
theorem foldlM_quotedBytes (hspot : s.spot = .quoted) (bs : List UInt8) :
    (bs.map quotedByte).flatten.foldlM step? s =
      some { s with field := bs.reverse ++ s.field } := by
  induction bs generalizing s with
  | nil => rfl
  | cons b bs ih =>
    rw [List.map_cons, List.flatten_cons, List.foldlM_append, foldlM_quotedByte hspot]
    refine (ih (s := s.keep .quoted b) rfl).trans ?_
    simp [keep, hspot]

theorem foldlM_one (s : Strict) (b : UInt8) : [b].foldlM step? s = s.step? b := by
  rw [List.foldlM_cons]
  cases s.step? b <;> rfl

section Ends

variable {fields : List (List UInt8)} {records : List (List (List UInt8))} {spot : Spot}

/-- A comma or a line feed ends a field, wherever in the field the reader is. -/
theorem delimit?_spot (hd : d = comma ∨ d = lineFeed) (spot : Spot) (field : List UInt8) :
    ({ spot, fields, field, records } : Strict).delimit? d
      = ({ fields, field, records } : Strict).delimit? d := by
  rcases hd with rfl | rfl <;> rfl

/-- A field, and the comma or the line feed that ends it. -/
theorem foldlM_fieldPieces (hspot : spot = .line ∨ spot = .start)
    (hd : d = comma ∨ d = lineFeed) (bs : List UInt8) :
    ((fieldPieces bs).flatten ++ [d]).foldlM step? { spot, fields, records }
      = ({ fields, field := bs.reverse, records } : Strict).delimit? d := by
  have hquote : d ≠ quote := by rcases hd with rfl | rfl <;> decide
  have hspecial : isSpecial d = true := by rcases hd with rfl | rfl <;> decide
  unfold fieldPieces
  by_cases hany : bs.any isSpecial = true
  · -- the field stands in quotes
    have hopen : ({ spot, fields, records } : Strict).step? quote
        = some { spot := .quoted, fields, records } := by
      rcases hspot with rfl | rfl <;> rfl
    have hinside : (bs.map quotedByte).flatten.foldlM step? { spot := .quoted, fields, records }
        = some { spot := .quoted, fields, field := bs.reverse, records } := by
      simpa using foldlM_quotedBytes (s := { spot := .quoted, fields, records }) rfl bs
    have hclose : ({ spot := .quoted, fields, field := bs.reverse, records } : Strict).step? quote
        = some { spot := .closed, fields, field := bs.reverse, records } := rfl
    have hbytes : ([quote] :: (bs.map quotedByte ++ [[quote]])).flatten ++ [d]
        = quote :: ((bs.map quotedByte).flatten ++ quote :: [d]) := by simp
    rw [if_pos hany, hbytes]
    simp only [List.foldlM_cons, List.foldlM_append, Option.bind_eq_bind, Option.bind_some, hopen,
      hinside, hclose]
    -- the last quote has closed the field, since what follows is no quote
    simp [step?, hquote, delimit?_spot hd]
  · -- the field is written as it is, and its first byte decides that there are no quotes
    rw [if_neg hany, ← List.flatMap_def, List.flatMap_singleton']
    cases bs with
    | nil =>
      rw [List.nil_append, foldlM_one]
      rcases hspot with rfl | rfl <;> simp [step?, hquote, unquoted?, hspecial, delimit?_spot hd]
    | cons b bs =>
      obtain ⟨hb, hbs⟩ : isSpecial b = false ∧ bs.any isSpecial = false := by simpa using hany
      have hbquote : b ≠ quote := by
        rintro rfl
        exact absurd hb (by decide)
      have hfirst : ({ spot, fields, records } : Strict).step? b
          = some { spot := .plain, fields, field := [b], records } := by
        rcases hspot with rfl | rfl <;> simp [step?, hbquote, unquoted?, hb, keep]
      have hrest : bs.foldlM step? { spot := .plain, fields, field := [b], records }
          = some { spot := .plain, fields, field := bs.reverse ++ [b], records } :=
        foldlM_plain rfl bs hbs
      simp only [List.cons_append, List.foldlM_cons, List.foldlM_append, Option.bind_eq_bind,
        Option.bind_some, hfirst, hrest]
      simp [step?, unquoted?, hspecial, delimit?_spot hd]

end Ends

/-! ## Records -/

/-- A record is read as its fields. -/
theorem foldlM_recordPieces {spot : Spot} (hspot : spot = .line ∨ spot = .start)
    (fields : List (List UInt8)) (records : List (List (List UInt8))) (cell : String)
    (cells : List String) :
    (recordPieces (cell :: cells)).flatten.foldlM step? { spot, fields, records }
      = some { records := (fields.reverse ++ (cell :: cells).map bytesOf) :: records } := by
  induction cells generalizing spot fields cell with
  | nil =>
    rw [flatten_recordPieces_one, foldlM_fieldPieces hspot (.inr rfl)]
    simp [delimit?, endRecord, show lineFeed ≠ comma by decide]
  | cons cell' cells ih =>
    have hdelimit : ({ fields, field := (bytesOf cell).reverse, records } : Strict).delimit? comma
        = some { spot := .start, fields := bytesOf cell :: fields, records } := by
      simp [delimit?, endField]
    rw [flatten_recordPieces_cons, List.append_cons, List.foldlM_append,
      foldlM_fieldPieces hspot (.inl rfl), hdelimit]
    refine (ih (.inr rfl) (bytesOf cell :: fields) cell').trans ?_
    simp

/-- Records are read one after the other. -/
theorem foldlM_records (records : List (List (List UInt8))) (rows : List (List String))
    (hrows : ∀ row ∈ rows, row ≠ []) :
    (rows.flatMap recordPieces).flatten.foldlM step? { records }
      = some { records := (rows.map (·.map bytesOf)).reverse ++ records } := by
  induction rows generalizing records with
  | nil => rfl
  | cons row rows ih =>
    obtain ⟨cell, cells, rfl⟩ := List.exists_cons_of_ne_nil (hrows row (by simp))
    rw [List.flatMap_cons, List.flatten_append, List.foldlM_append,
      foldlM_recordPieces (.inl rfl)]
    refine (ih _ fun row hrow => hrows row (by simp [hrow])).trans ?_
    simp

end Rendezvous.Csv.Strict

namespace Rendezvous.Csv

/-- The records of a file are read as the texts that they were written from, if all of them have
the same number of fields. -/
theorem strictRecords?_records (rows : List (List String)) (width : Nat)
    (hrows : ∀ row ∈ rows, row ≠ []) (hwidth : ∀ row ∈ rows, row.length = width) :
    strictRecords? (rows.flatMap recordPieces).flatten = some (rows.map (·.map bytesOf)) := by
  have hread := Strict.foldlM_records [] rows hrows
  have hall : (rows.map (·.map bytesOf)).all
      (fun fields => fields.length = ((rows.map (·.map bytesOf)).headD []).length) = true := by
    cases rows with
    | nil => rfl
    | cons row rows =>
      simp only [List.forall_mem_cons] at hwidth
      simpa [hwidth.1] using hwidth.2
  rw [List.append_nil] at hread
  simp only [strictRecords?, hread, Option.bind_eq_bind, Option.bind_some, Strict.finish?,
    List.reverse_reverse, hall, if_true]

/-- A quote in a field without quotes, a quote that is never closed, something after a closing
quote, and records of two lengths. -/
example : ∀ text ∈ ["a\"b\n", "\"a\n", "\"a\"b\n", "a,b\nc\n"],
    strictRecords? (Text.encode text.toList) = none := by
  decide

end Rendezvous.Csv
