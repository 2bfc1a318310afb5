import Rendezvous.Csv.Print

/-!
# Reading back comma-separated values

The scanner takes a field that was written as it is through its plain mode, and one that stands in
quotes through its quoted mode; either way it ends up outside quotes with the bytes of the field, so
the comma or the line feed after it ends the field.  A record of several fields is therefore read as
these fields, also if some of them are empty.

* `At.recordPieces`: what a record does to a scanner between two records;
* `finish_records`: the records of a file are read as the fields that they were written from.
-/

namespace Rendezvous.Csv

/-- What a scanner has made of the bytes so far, apart from their places. -/
structure At (s : Scan) (mode : Mode) (fields : List (List UInt8)) (field : List UInt8)
    (records : List (List (List UInt8))) : Prop where
  mode : s.mode = mode
  fields : s.fields = fields
  field : s.field = field
  records : s.records.map Record.fields = records

variable {s : Scan} {mode : Mode} {fields : List (List UInt8)} {field : List UInt8}
  {records : List (List (List UInt8))} {b : UInt8}

/-! ## Single bytes -/

/-- Outside quotes a byte that is no quote is taken as it is, unless it ends what has not begun. -/
theorem take_eq_unquoted (hquoted : s.mode ≠ .quoted) (hb : b ≠ quote)
    (hbetween : s.mode = .between → isTerminator b = false) : s.take b = s.unquoted b := by
  unfold Scan.take
  cases hmode : s.mode with
  | between => simp [hbetween hmode, hb]
  | start | quoteSeen => simp [hb]
  | plain => rfl
  | quoted => exact absurd hmode hquoted

namespace At

/-- Counting a byte changes nothing but places. -/
theorem count (h : At s mode fields field records) (b : UInt8) :
    At (s.count b) mode fields field records :=
  ⟨h.mode, h.fields, h.field, h.records⟩

/-- A quote at the beginning of a field. -/
theorem open_quote (h : At s mode fields field records) (hmode : mode = .between ∨ mode = .start) :
    At (s.step quote) .quoted fields field records := by
  have hs := h.count quote
  have hterm : isTerminator quote = false := by decide
  have hstep : s.step quote = { s.count quote with mode := .quoted } := by
    rcases hmode with rfl | rfl <;> simp [Scan.step, Scan.take, hs.mode, hterm]
  rw [hstep]
  exact ⟨rfl, hs.fields, hs.field, hs.records⟩

/-- A quote after the last byte between quotes. -/
theorem close_quote (h : At s .quoted fields field records) :
    At (s.step quote) .quoteSeen fields field records := by
  have hs := h.count quote
  have hstep : s.step quote = { s.count quote with mode := .quoteSeen } := by
    simp [Scan.step, Scan.take, hs.mode]
  rw [hstep]
  exact ⟨rfl, hs.fields, hs.field, hs.records⟩

/-- The second of two quotes between quotes. -/
theorem double_quote (h : At s .quoteSeen fields field records) :
    At (s.step quote) .quoted fields (quote :: field) records := by
  have hs := h.count quote
  have hstep : s.step quote = (s.count quote).keep .quoted quote := by
    simp [Scan.step, Scan.take, hs.mode]
  rw [hstep]
  exact ⟨rfl, hs.fields, congrArg _ hs.field, hs.records⟩

/-- A byte between quotes that is no quote. -/
theorem kept_byte (h : At s .quoted fields field records) (hb : b ≠ quote) :
    At (s.step b) .quoted fields (b :: field) records := by
  have hs := h.count b
  have hstep : s.step b = (s.count b).keep .quoted b := by
    simp [Scan.step, Scan.take, hs.mode, hb]
  rw [hstep]
  exact ⟨rfl, hs.fields, congrArg _ hs.field, hs.records⟩

/-- A byte without a meaning of its own, outside quotes. -/
theorem plain_byte (h : At s mode fields field records) (hmode : mode ≠ .quoted)
    (hb : isSpecial b = false) : At (s.step b) .plain fields (b :: field) records := by
  obtain ⟨⟨hcomma, hquote⟩, hterm⟩ : (b ≠ comma ∧ b ≠ quote) ∧ isTerminator b = false := by
    simpa [isSpecial] using hb
  have hs := h.count b
  have hstep : s.step b = (s.count b).keep .plain b := by
    rw [Scan.step, take_eq_unquoted (hs.mode ▸ hmode) hquote fun _ => hterm]
    simp [Scan.unquoted, hcomma, hterm]
  rw [hstep]
  exact ⟨rfl, hs.fields, congrArg _ hs.field, hs.records⟩

/-- A comma outside quotes. -/
theorem comma (h : At s mode fields field records) (hmode : mode ≠ .quoted) :
    At (s.step Csv.comma) .start (field.reverse :: fields) [] records := by
  have hs := h.count Csv.comma
  have hterm : isTerminator Csv.comma = false := by decide
  have hstep : s.step Csv.comma = (s.count Csv.comma).endField .start := by
    rw [Scan.step, take_eq_unquoted (hs.mode ▸ hmode) (by decide) fun _ => hterm]
    simp [Scan.unquoted]
  rw [hstep]
  exact ⟨rfl, by simp [Scan.endField, hs.fields, hs.field], rfl, hs.records⟩

/-- A line feed outside quotes, inside a record. -/
theorem lineFeed (h : At s mode fields field records) (hmode : mode ≠ .quoted)
    (hinside : mode ≠ .between) :
    At (s.step Csv.lineFeed) .between [] [] ((field.reverse :: fields).reverse :: records) := by
  have hs := h.count Csv.lineFeed
  have hterm : isTerminator Csv.lineFeed = true := by decide
  have hcomma : Csv.lineFeed ≠ Csv.comma := by decide
  have hstep : s.step Csv.lineFeed = (s.count Csv.lineFeed).endRecord := by
    rw [Scan.step, take_eq_unquoted (hs.mode ▸ hmode) (by decide)
      fun hbetween => absurd (hs.mode.symm.trans hbetween) hinside]
    simp [Scan.unquoted, hcomma, hterm]
  rw [hstep]
  exact ⟨rfl, rfl, rfl, by simp [Scan.endRecord, Scan.present, hs.fields, hs.field, hs.records]⟩

/-! ## Fields -/

/-- A byte between quotes, as it is written there. -/
theorem quotedByte (h : At s .quoted fields field records) (b : UInt8) :
    At ((Csv.quotedByte b).foldl Scan.step s) .quoted fields (b :: field) records := by
  by_cases hb : b = quote
  · simpa [Csv.quotedByte, hb] using h.close_quote.double_quote
  · simpa [Csv.quotedByte, hb] using h.kept_byte hb

/-- Bytes between quotes. -/
theorem quotedBytes (h : At s .quoted fields field records) (bs : List UInt8) :
    At ((bs.map Csv.quotedByte).flatten.foldl Scan.step s) .quoted fields (bs.reverse ++ field)
      records := by
  induction bs generalizing s field with
  | nil => simpa using h
  | cons b bs ih => simpa using ih (h.quotedByte b)

/-- Bytes in a field without quotes. -/
theorem plainBytes (h : At s .plain fields field records) (bs : List UInt8)
    (hplain : bs.any isSpecial = false) :
    At (bs.foldl Scan.step s) .plain fields (bs.reverse ++ field) records := by
  induction bs generalizing s field with
  | nil => simpa using h
  | cons b bs ih =>
    obtain ⟨hb, hbs⟩ : isSpecial b = false ∧ bs.any isSpecial = false := by simpa using hplain
    simpa using ih (h.plain_byte (by simp) hb) hbs

/-- A field in quotes, up to what ends it. -/
theorem quotedField (h : At s mode fields [] records) (hmode : mode = .between ∨ mode = .start)
    (bs : List UInt8) :
    At ((quote :: ((bs.map Csv.quotedByte).flatten ++ [quote])).foldl Scan.step s) .quoteSeen fields
      bs.reverse records := by
  simpa using ((h.open_quote hmode).quotedBytes bs).close_quote

/-- A field, up to what ends it. -/
theorem fieldPieces (h : At s mode fields [] records) (hmode : mode = .between ∨ mode = .start)
    (bs : List UInt8) :
    ∃ mode', mode' ≠ .quoted ∧ (mode ≠ .between → mode' ≠ .between) ∧
      At ((Csv.fieldPieces bs).flatten.foldl Scan.step s) mode' fields bs.reverse records := by
  have hquoted : mode ≠ .quoted := by rcases hmode with rfl | rfl <;> simp
  unfold Csv.fieldPieces
  by_cases hspecial : bs.any isSpecial
  · refine ⟨.quoteSeen, by simp, by simp, ?_⟩
    rw [if_pos hspecial]
    simpa using h.quotedField hmode bs
  · rw [if_neg hspecial]
    rw [← List.flatMap_def, List.flatMap_singleton']
    cases bs with
    -- nothing is written of an empty field, so the scanner is still where it was
    | nil => exact ⟨mode, hquoted, id, h⟩
    | cons b bs =>
      obtain ⟨hb, hbs⟩ : isSpecial b = false ∧ bs.any isSpecial = false := by simpa using hspecial
      have hfirst := h.plain_byte hquoted hb
      exact ⟨.plain, by simp, by simp, by simpa using hfirst.plainBytes bs hbs⟩

end At

/-! ## Records -/

/-- The bytes of a text. -/
abbrev bytesOf (s : String) : List UInt8 := Text.encode s.toList

theorem flatten_recordPieces_one (cell : String) :
    (recordPieces [cell]).flatten = (fieldPieces (bytesOf cell)).flatten ++ [lineFeed] := by
  simp [recordPieces]

theorem flatten_recordPieces_cons (cell cell' : String) (cells : List String) :
    (recordPieces (cell :: cell' :: cells)).flatten
      = (fieldPieces (bytesOf cell)).flatten
        ++ comma :: (recordPieces (cell' :: cells)).flatten := by
  simp [recordPieces, List.intercalate_cons_cons]

namespace At

/-- The rest of a record after a comma. -/
theorem laterPieces (h : At s .start fields [] records) (cell : String) (cells : List String) :
    At ((Csv.recordPieces (cell :: cells)).flatten.foldl Scan.step s) .between [] []
      ((fields.reverse ++ (cell :: cells).map bytesOf) :: records) := by
  induction cells generalizing s fields cell with
  | nil =>
    obtain ⟨mode, hquoted, hbetween, hfield⟩ := h.fieldPieces (.inr rfl) (bytesOf cell)
    rw [flatten_recordPieces_one, List.foldl_append]
    simpa using hfield.lineFeed hquoted (hbetween (by simp))
  | cons cell' cells ih =>
    obtain ⟨mode, hquoted, -, hfield⟩ := h.fieldPieces (.inr rfl) (bytesOf cell)
    rw [flatten_recordPieces_cons, List.foldl_append, List.foldl_cons]
    simpa using ih (hfield.comma hquoted) cell'

/-- A record of several fields is read as these fields. -/
theorem recordPieces (h : At s .between [] [] records) (cell cell' : String)
    (cells : List String) :
    At ((Csv.recordPieces (cell :: cell' :: cells)).flatten.foldl Scan.step s) .between [] []
      ((cell :: cell' :: cells).map bytesOf :: records) := by
  obtain ⟨mode, hquoted, -, hfield⟩ := h.fieldPieces (.inl rfl) (bytesOf cell)
  rw [flatten_recordPieces_cons, List.foldl_append, List.foldl_cons]
  simpa using (hfield.comma hquoted).laterPieces cell' cells

/-- Records of several fields are read one after the other. -/
theorem records_of_cells (h : At s .between [] [] records) (rows : List (List String))
    (hrows : ∀ row ∈ rows, 2 ≤ row.length) :
    At ((rows.flatMap Csv.recordPieces).flatten.foldl Scan.step s) .between [] []
      ((rows.map (·.map bytesOf)).reverse ++ records) := by
  induction rows generalizing s records with
  | nil => simpa using h
  | cons row rows ih =>
    obtain ⟨cell, cell', cells, rfl⟩ : ∃ cell cell' cells, row = cell :: cell' :: cells := by
      match row, hrows row (by simp) with
      | cell :: cell' :: cells, _ => exact ⟨cell, cell', cells, rfl⟩
    have hfirst := h.recordPieces cell cell' cells
    simpa using ih hfirst fun row hrow => hrows row (by simp [hrow])

end At

/-- Without a byte order mark everything is read. -/
theorem afterMark_of_head {bs : List UInt8} (hmark : bs.head? ≠ some 0xEF) :
    afterMark bs = ({}, bs) := by
  unfold afterMark
  split
  · simp at hmark
  · rfl

/-- Bytes after which the scanner is between two records have these records. -/
theorem fields_finish {bs : List UInt8} {rows : List (List (List UInt8))}
    (hmark : bs.head? ≠ some 0xEF) (hat : At (bs.foldl Scan.step {}) .between [] [] rows.reverse) :
    (scan bs).finish.map Record.fields = rows := by
  rw [scan, afterMark_of_head hmark, Scan.finish, hat.mode]
  simp [Scan.complete, List.map_reverse, hat.records]

/-- The records of a file are read as the texts that they were written from, unless the file begins
with a byte order mark. -/
theorem finish_records (rows : List (List String)) (hrows : ∀ row ∈ rows, 2 ≤ row.length)
    (hmark : (rows.flatMap recordPieces).flatten.head? ≠ some 0xEF) :
    (scan (rows.flatMap recordPieces).flatten).finish.map Record.fields
      = rows.map (·.map bytesOf) := by
  have hstart : At {} .between [] [] [] := ⟨rfl, rfl, rfl, rfl⟩
  have hat := hstart.records_of_cells rows hrows
  rw [List.append_nil] at hat
  exact fields_finish hmark hat

end Rendezvous.Csv
