import Rendezvous.Proofs.CsvRecords
import Rendezvous.Proofs.TextRecords
import Rendezvous.Proofs.Utf8
import Rendezvous.Report.Read

/-!
# Reports can be read back

Whatever the keys and details of the rows are, a report that was written can be read as these rows:
the fields of comma-separated values and the texts of JSON records are read back as they were
written, and neither has anything in it that would end a row too early.

* `read_document`: a report is read as its rows;
* `Given.write`, `Given.flush`: a writer on an unlimited sink stores the report of the rows that it
  is given, buffered or not.
-/

namespace Rendezvous.Report

/-- The records of some rows in comma-separated values; there are no names without rows. -/
def table (rows : List Row) : List (List String) :=
  (if rows.isEmpty then [] else [columns]) ++ rows.map Row.cells

/-- The report of some rows. -/
def document : Format → List Row → List UInt8
  | .csv, rows => ((table rows).flatMap Csv.recordPieces).flatten
  | .json, rows => rows.flatMap fun r => Writer.jsonRow r ++ [Csv.lineFeed]

/-! ## Comma-separated values -/

theorem text?_encode (s : String) : text? (Text.encode s.toList) = some s := by
  simp [text?, Text.decode_encode, Except.toOption]

/-- What is read item by item, if every item is read back. -/
theorem mapM_map_eq_some {α β : Type} {read? : β → Option α} {write : α → β}
    (h : ∀ a, read? (write a) = some a) (as : List α) : (as.map write).mapM read? = some as := by
  induction as with
  | nil => rfl
  | cons a as ih =>
    rw [List.map_cons, List.mapM_cons, h, ih]
    rfl

theorem mapM_text?_bytesOf (cells : List String) :
    (cells.map Csv.bytesOf).mapM text? = some cells :=
  mapM_map_eq_some text?_encode cells

/-- Records with the fields of rows are read as these rows. -/
theorem mapM_ofCells? {records : List Csv.Record} {rows : List Row}
    (h : records.map Csv.Record.fields = rows.map fun r => r.cells.map Csv.bytesOf) :
    (records.mapM fun r => (cells? r).bind Row.ofCells?) = some rows := by
  induction rows generalizing records with
  | nil => simp_all
  | cons r rows ih =>
    obtain ⟨record, records, rfl⟩ : ∃ record records', records = record :: records' := by
      cases records <;> simp_all
    simp only [List.map_cons, List.cons.injEq] at h
    have hcells : cells? record = some r.cells := by rw [cells?, h.1, mapM_text?_bytesOf]
    simp [hcells, Row.ofCells?, Row.cells, ih h.2]

/-- The records of a table are as wide as the names of the columns. -/
theorem length_of_mem_table {rows : List Row} {cells : List String} (h : cells ∈ table rows) :
    cells.length = columns.length := by
  rcases List.mem_append.1 h with h | h
  · split at h
    · simp at h
    · rw [List.mem_singleton.1 h]
  · obtain ⟨r, -, rfl⟩ := List.mem_map.1 h
    rfl

/-- The names of the columns do not begin with a byte order mark. -/
theorem head?_document (rows : List Row) : (document .csv rows).head? ≠ some 0xEF := by
  have hcolumns : (Csv.recordPieces columns).flatten.head? = some 0x6B := by decide
  cases rows with
  | nil => simp [document, table]
  | cons r rows => simp [document, table, List.flatMap_cons, List.head?_append, hcolumns]

/-- Records with the fields of a table are read as its rows. -/
theorem readCsv_of_fields {bs : List UInt8} {rows : List Row}
    (h : (Csv.scan bs).finish.map Csv.Record.fields = (table rows).map (·.map Csv.bytesOf)) :
    readCsv bs = some rows := by
  unfold readCsv
  generalize (Csv.scan bs).finish = records at h
  cases rows with
  | nil => simp_all [table]
  | cons r rows =>
    cases records with
    | nil => simp [table] at h
    | cons header records =>
      obtain ⟨hheader, hrecords⟩ : header.fields = columns.map Csv.bytesOf ∧
          records.map Csv.Record.fields
            = (r :: rows).map fun r => r.cells.map Csv.bytesOf := by
        simpa [table, Function.comp_def] using h
      have hnames : cells? header = some columns := by rw [cells?, hheader, mapM_text?_bytesOf]
      simp only [hnames, if_true, mapM_ofCells? hrecords]

theorem readCsv_document (rows : List Row) : readCsv (document .csv rows) = some rows := by
  have hwidth : ∀ cells ∈ table rows, 2 ≤ cells.length := fun cells hmem => by
    rw [length_of_mem_table hmem]
    decide
  exact readCsv_of_fields (Csv.finish_records (table rows) hwidth (head?_document rows))

/-! ## JSON -/

/-- The line of a row. -/
def line (r : Row) : List Char := Json.textRecord (columns.zip r.cells)

theorem document_json (rows : List Row) :
    document .json rows = Text.encode (rows.flatMap fun r => line r ++ ['\n']) := by
  have hline : Text.encode ['\n'] = [Csv.lineFeed] := by decide
  induction rows with
  | nil => rfl
  | cons r rows ih =>
    simp only [document, Text.encode, List.flatMap_cons, List.flatMap_append] at ih hline ⊢
    rw [ih, hline]
    rfl

/-- Lines without line breaks of their own are read one after the other. -/
theorem lines?_flatMap (ls : List (List Char)) (h : ∀ l ∈ ls, '\n' ∉ l) :
    lines? (ls.flatMap fun l => l ++ ['\n']) = some ls := by
  have hparts : (ls.flatMap fun l => l ++ ['\n']).splitOn '\n' = ls ++ [[]] := by
    -- ending every line is the same as separating the lines and one more that is empty
    have hjoin : (ls.flatMap fun l => l ++ ['\n']) = ['\n'].intercalate (ls ++ [[]]) := by
      induction ls with
      | nil => rfl
      | cons l ls ih =>
        rw [List.cons_append, List.intercalate_cons_of_ne_nil (by simp), List.flatMap_cons,
          ih fun l hl => h l (by simp [hl])]
    rw [hjoin]
    refine List.splitOn_intercalate '\n' ?_ (by simp)
    simpa [or_imp, forall_and] using h
  simp [lines?, hparts]

theorem ofMembers?_line (r : Row) :
    (Json.textRecord? (line r)).bind Row.ofMembers? = some r := by
  rw [line, Json.textRecord?_textRecord]
  rfl

theorem readJson_document (rows : List Row) : readJson (document .json rows) = some rows := by
  have hlines := lines?_flatMap (rows.map line) (by
    intro l hl
    obtain ⟨r, -, rfl⟩ := List.mem_map.1 hl
    exact Json.not_mem_textRecord _ (by decide))
  rw [List.flatMap_map] at hlines
  have hrows : (rows.map line).mapM (fun l => (Json.textRecord? l).bind Row.ofMembers?)
      = some rows := mapM_map_eq_some ofMembers?_line rows
  simp only [readJson, document_json, Text.decode_encode, Except.toOption, hlines,
    Option.bind_eq_bind, Option.bind_some, hrows]

/-- A report is read as its rows. -/
theorem read_document (f : Format) (rows : List Row) : read f (document f rows) = some rows := by
  cases f with
  | csv => exact readCsv_document rows
  | json => exact readJson_document rows

/-! ## Unlimited sinks -/

theorem Sink.put_unlimited {s : Sink} (hroom : s.room? = none) (bs : List UInt8) :
    s.put bs = (true, { s with taken := s.taken ++ bs }) := by
  simp [Sink.put, hroom]

namespace Writer

variable {w : Writer}

theorem empty_unlimited (hroom : w.sink.room? = none) :
    w.empty = (true,
      { w with
        sink := { w.sink with taken := w.sink.taken ++ w.buffer.toList }
        buffer := #[] }) := by
  simp [empty, Sink.put_unlimited hroom]

/-- Pieces are stored or wait to be. -/
theorem store_unlimited (pieces : List Csv.Piece) (hroom : w.sink.room? = none) :
    ∃ taken buffer, store pieces w
        = (true, { w with sink := { w.sink with taken }, buffer }) ∧
      taken.toList ++ buffer.toList
        = w.sink.taken.toList ++ w.buffer.toList ++ pieces.flatten := by
  induction pieces generalizing w with
  | nil => exact ⟨w.sink.taken, w.buffer, rfl, by simp⟩
  | cons piece pieces ih =>
    by_cases hfits : w.buffer.size + piece.length ≤ bufferSize
    · obtain ⟨taken, buffer, hstore, hall⟩ := ih (w := { w with buffer := w.buffer ++ piece }) hroom
      exact ⟨taken, buffer, by simp [store, hfits, hstore], by simp [hall]⟩
    · have hempty := empty_unlimited hroom
      obtain ⟨taken, buffer, hstore, hall⟩ := ih
        (w := { w.empty.2 with buffer := w.empty.2.buffer ++ piece }) (by simp [hempty, hroom])
      refine ⟨taken, buffer, ?_, by simp [hall, hempty]⟩
      rw [store, if_neg hfits]
      rw [hempty] at hstore ⊢
      exact hstore

end Writer

/-! ## Writers -/

theorem document_csv_append (rows : List Row) (r : Row) :
    document .csv (rows ++ [r]) = document .csv rows
      ++ ((if rows.isEmpty then Csv.recordPieces columns else [])
        ++ Csv.recordPieces r.cells).flatten := by
  cases rows <;> simp [document, table]

theorem document_json_append (rows : List Row) (r : Row) :
    document .json (rows ++ [r])
      = document .json rows ++ (Writer.jsonRow r ++ [Csv.lineFeed]) := by
  simp [document]

/-- A writer on an unlimited sink that has been given some rows. -/
structure Given (w : Writer) (f : Format) (rows : List Row) : Prop where
  format : w.format = f
  room : w.sink.room? = none
  /-- JSON goes past the buffer. -/
  direct : f = .json → w.buffer = #[]
  headed : f = .csv → w.headed = !rows.isEmpty
  written : w.sink.taken.toList ++ w.buffer.toList = document f rows

namespace Given

variable {w : Writer} {f : Format} {rows : List Row}

theorem init (f : Format) : Given { format := f } f [] where
  format := rfl
  room := rfl
  direct _ := rfl
  headed _ := rfl
  written := by cases f <;> rfl

theorem write_csv (h : Given w .csv rows) (r : Row) :
    (w.write r).1 = none ∧ Given (w.write r).2 .csv (rows ++ [r]) := by
  obtain ⟨taken, buffer, hstore, hall⟩ := Writer.store_unlimited (w.rowPieces r) h.room
  have hwrite : w.write r = (none,
      { w with sink := { w.sink with taken }, buffer, headed := true }) := by
    simp [Writer.write, h.format, hstore]
  rw [hwrite]
  refine ⟨rfl, h.format, h.room, by simp, by simp, ?_⟩
  rw [document_csv_append, ← h.written, hall, Writer.rowPieces, h.headed rfl]
  cases rows <;> rfl

theorem write_json (h : Given w .json rows) (r : Row) :
    (w.write r).1 = none ∧ Given (w.write r).2 .json (rows ++ [r]) := by
  have hwrite : w.write r = (none,
      { w with
        sink :=
          { w.sink with taken := w.sink.taken ++ Writer.jsonRow r ++ [Csv.lineFeed] } }) := by
    simp [Writer.write, h.format, Sink.put, h.room]
  have hbuffer := h.direct rfl
  have hwritten := h.written
  rw [hwrite]
  refine ⟨rfl, h.format, h.room, fun _ => hbuffer, by simp, ?_⟩
  rw [document_json_append, ← hwritten]
  simp [hbuffer]

/-- A row is added to the report. -/
theorem write (h : Given w f rows) (r : Row) :
    (w.write r).1 = none ∧ Given (w.write r).2 f (rows ++ [r]) := by
  cases f with
  | csv => exact h.write_csv r
  | json => exact h.write_json r

/-- In the end the report is in the sink. -/
theorem flush (h : Given w f rows) :
    (w.flush).1 = none ∧ (w.flush).2.sink.taken.toList = document f rows := by
  rw [← h.written]
  simp [Writer.flush, Writer.empty_unlimited h.room]

end Given

end Rendezvous.Report
