import Rendezvous.Proofs.Columns
import Rendezvous.Proofs.CsvRecords
import Rendezvous.Proofs.Scanning

/-!
# Rows are read one by one

In a file whose fields all stand in quotes nothing inside a field can end it: a quote inside is
doubled, and everything else is taken as it is.  So each row is read as its own fields, whatever the
rows around it are, and whether it is a request depends on the names and on this row alone.

* `At.enclosedRecord`: a row in quotes is read as its fields;
* `getElem?_requests_of_enclosed`: the requests of a file in quotes;
* `rows_are_read_one_by_one`: what comes of each row, and that it comes of no other.
-/

namespace Rendezvous.Csv

open Text (trimmed)

/-! ## Files in quotes -/

/-- A character between quotes. -/
def doubled (c : Char) : List Char := if c = '"' then ['"', '"'] else [c]

/-- A field in quotes. -/
def enclosed (s : String) : List Char := '"' :: (s.toList.flatMap doubled ++ ['"'])

/-- A record of fields in quotes. -/
def enclosedRecord (fields : List String) : List Char :=
  [','].intercalate (fields.map enclosed) ++ ['\n']

/-- A file of fields in quotes. -/
def enclosedFile (records : List (List String)) : List Char := records.flatMap enclosedRecord

theorem enclosedRecord_one (cell : String) : enclosedRecord [cell] = enclosed cell ++ ['\n'] := by
  simp [enclosedRecord]

theorem enclosedRecord_cons (cell cell' : String) (cells : List String) :
    enclosedRecord (cell :: cell' :: cells)
      = enclosed cell ++ ',' :: enclosedRecord (cell' :: cells) := by
  simp [enclosedRecord, List.intercalate_cons_cons]

/-- A record in quotes begins with a quote. -/
theorem exists_enclosedRecord_eq (cell : String) (cells : List String) :
    ∃ cs, enclosedRecord (cell :: cells) = '"' :: cs := by
  cases cells with
  | nil => exact ⟨_, enclosedRecord_one cell⟩
  | cons cell' cells => exact ⟨_, enclosedRecord_cons cell cell' cells⟩

/-- A quote is a byte of no other character. -/
theorem quote_not_mem_utf8EncodeChar {c : Char} (hc : c ≠ '"') :
    quote ∉ String.utf8EncodeChar c := by
  intro hmem
  have hcode : c.toNat = '"'.toNat := Text.toNat_eq_of_mem_utf8EncodeChar hmem (by decide)
  exact hc (by rw [← Char.ofNat_toNat c, hcode, Char.ofNat_toNat])

/-- A character between quotes is written as its bytes are. -/
theorem encode_doubled (c : Char) :
    Text.encode (doubled c) = ((String.utf8EncodeChar c).map quotedByte).flatten := by
  unfold doubled
  split
  · rename_i hc
    subst hc
    decide
  · rename_i hc
    -- no byte of another character is a quote, so none is doubled
    have hplain : ∀ b ∈ String.utf8EncodeChar c, quotedByte b = [b] := by
      intro b hb
      have hne : b ≠ quote := fun h => quote_not_mem_utf8EncodeChar hc (h ▸ hb)
      simp [quotedByte, hne]
    rw [List.map_congr_left hplain, ← List.flatMap_def, List.flatMap_singleton']
    simp [Text.encode]

/-- A field in quotes as bytes. -/
theorem encode_enclosed (s : String) :
    Text.encode (enclosed s) = quote :: (((bytesOf s).map quotedByte).flatten ++ [quote]) := by
  have hquote : String.utf8EncodeChar '"' = [quote] := by decide
  have hinside : Text.encode (s.toList.flatMap doubled)
      = ((bytesOf s).map quotedByte).flatten := by
    unfold bytesOf
    induction s.toList with
    | nil => rfl
    | cons c cs ih =>
      have hcs : Text.encode (c :: cs) = String.utf8EncodeChar c ++ Text.encode cs := rfl
      rw [List.flatMap_cons, hcs, List.map_append, List.flatten_append, ← ih, ← encode_doubled]
      simp [Text.encode]
  rw [← hinside]
  simp [enclosed, Text.encode, hquote]

theorem encode_comma (cs : List Char) : Text.encode (',' :: cs) = comma :: Text.encode cs := rfl

theorem encode_lineFeed : Text.encode ['\n'] = [lineFeed] := by decide

namespace At

variable {s : Scan} {mode : Mode} {fields : List (List UInt8)} {records : List (List (List UInt8))}

/-- A record of fields in quotes is read as these fields. -/
theorem enclosedRecord (h : At s mode fields [] records) (hmode : mode = .between ∨ mode = .start)
    (cell : String) (cells : List String) :
    At ((Text.encode (Csv.enclosedRecord (cell :: cells))).foldl Scan.step s) .between [] []
      ((fields.reverse ++ (cell :: cells).map bytesOf) :: records) := by
  induction cells generalizing s mode fields cell with
  | nil =>
    have hfield := h.quotedField hmode (bytesOf cell)
    rw [enclosedRecord_one, Text.encode_append, encode_enclosed, encode_lineFeed, List.foldl_append]
    simpa using hfield.lineFeed (by simp) (by simp)
  | cons cell' cells ih =>
    have hfield := h.quotedField hmode (bytesOf cell)
    rw [enclosedRecord_cons, Text.encode_append, encode_enclosed, encode_comma, List.foldl_append,
      List.foldl_cons]
    simpa using ih (hfield.comma (by simp)) (.inr rfl) cell'

/-- Records of fields in quotes are read one after the other. -/
theorem enclosedFile (h : At s .between [] [] records) (rows : List (List String))
    (hrows : ∀ row ∈ rows, row ≠ []) :
    At ((Text.encode (Csv.enclosedFile rows)).foldl Scan.step s) .between [] []
      ((rows.map (·.map bytesOf)).reverse ++ records) := by
  induction rows generalizing s records with
  | nil => exact h
  | cons row rows ih =>
    obtain ⟨cell, cells, rfl⟩ := List.exists_cons_of_ne_nil (hrows row (by simp))
    have hfirst := h.enclosedRecord (.inl rfl) cell cells
    have hfile : Csv.enclosedFile ((cell :: cells) :: rows)
        = Csv.enclosedRecord (cell :: cells) ++ Csv.enclosedFile rows := rfl
    rw [hfile, Text.encode_append, List.foldl_append]
    simpa using ih hfirst fun row hrow => hrows row (by simp [hrow])

end At

/-- The records of a file in quotes are its rows. -/
theorem fields_of_enclosed (rows : List (List String)) (hrows : ∀ row ∈ rows, row ≠ []) :
    (scan (Text.encode (enclosedFile rows))).finish.map Record.fields
      = rows.map (·.map bytesOf) := by
  have hstart : At {} .between [] [] [] := ⟨rfl, rfl, rfl, rfl⟩
  have hat := hstart.enclosedFile rows hrows
  rw [List.append_nil] at hat
  refine fields_finish ?_ hat
  cases rows with
  | nil => simp [enclosedFile, Text.encode]
  | cons row rows =>
    obtain ⟨cell, cells, rfl⟩ := List.exists_cons_of_ne_nil (hrows row (by simp))
    obtain ⟨cs, hcs⟩ := exists_enclosedRecord_eq cell cells
    -- the file begins with a quote, so it does not begin with a byte order mark
    have hquote : Text.encode (enclosedFile ((cell :: cells) :: rows))
        = quote :: Text.encode (cs ++ enclosedFile rows) := by
      rw [enclosedFile, List.flatMap_cons, hcs]
      rfl
    rw [hquote, List.head?_cons]
    decide

/-! ## Rows -/

/-- The texts of a record that was written are those that were written, without the blanks around
them. -/
theorem Record.texts_of_fields {r : Record} {cells : List String}
    (h : r.fields = cells.map bytesOf) : r.texts = (cells.map trimmed).map some := by
  rw [texts, h, List.map_map, List.map_map]
  exact List.map_congr_left fun cell _ => trimmedText?_encode cell

variable {header row : List String} {rows : List (List String)}

/-- The requests of a file in quotes are those of its rows under the names of the header. -/
theorem getElem?_requests_of_enclosed (hheader : header ≠ []) (hrows : ∀ row ∈ rows, row ≠ [])
    (i : Nat) : ∃ place : Place, place.record = i + 1 ∧
      (requests { bytes := Text.encode (enclosedFile (header :: rows)) })[i]?
        = rows[i]?.map fun row =>
            (requestOf (header.map trimmed) (row.map trimmed)).mapError (.fault place) := by
  have hfields := fields_of_enclosed (header :: rows) (List.forall_mem_cons.2 ⟨hheader, hrows⟩)
  obtain ⟨first, records, hfinish, hfirst, hrest⟩ := List.map_eq_cons_iff.1 hfields
  have hnames : first.names? = some (header.map trimmed) := by
    rw [Record.names?, Record.cells_eq_ok.2 (Record.texts_of_fields hfirst)]
    rfl
  have hrequests : requests { bytes := Text.encode (enclosedFile (header :: rows)) }
      = records.map (Record.request (some (header.map trimmed))) := by
    simp [requests_eq, Source.records, hfinish, hnames]
  -- the records after the first are the rows, so they are in the same places
  have hrow := congrArg (fun rows => rows[i]?) hrest
  simp only [List.getElem?_map] at hrow
  rw [hrequests, List.getElem?_map]
  cases hrecord : records[i]? with
  | none =>
    have hnone : rows[i]? = none := by simpa [hrecord] using hrow.symm
    exact ⟨{ record := i + 1 }, rfl, by simp [hnone]⟩
  | some record =>
    rw [hrecord] at hrow
    obtain ⟨row, hsome, hrow⟩ := Option.map_eq_some_iff.1 hrow.symm
    refine ⟨record.place, record_eq_of_getElem? (by rw [hfinish]; exact hrecord), ?_⟩
    rw [hsome, Option.map_some, Option.map_some,
      Record.request_of_texts (Record.texts_of_fields hrow.symm)]

/-- An error, whatever place it names. -/
def ReadError.unplaced : ReadError → ReadError
  | .fault _ f => .fault {} f
  | .notText _ field index => .notText {} field index
  | .source text => .source text

/-- What comes of a record, whatever place it is in. -/
def unplaced (x : Except ReadError DataRequest) : Except ReadError DataRequest :=
  x.mapError ReadError.unplaced

theorem unplaced_fault (place : Place) (p : Except Fault DataRequest) :
    unplaced (p.mapError (.fault place)) = p.mapError (.fault {}) := by
  cases p <;> rfl

/-- What comes of a row whose names are known, wherever the row is. -/
theorem result_of_once {names : List String}
    (honce : ∀ name ∈ requestColumns, names.count name = 1) (cells : List String) (place : Place) :
    let result := (requestOf names cells).mapError (ReadError.fault place)
    ((∃ r, result = .ok r) ↔ names.length ≤ cells.length) ∧
      (∀ r, result = .ok r → ∀ p ∈ namedFields r, ∀ c : Nat,
        names[c]? = some p.1 → cells[c]? = some p.2) ∧
      ((∀ r, result ≠ .ok r) → result = .error (.fault place .endOfRow)) := by
  rcases requestOf_of_once honce cells with ⟨hlength, r, hrequest⟩ | ⟨hshort, herror⟩
  · rw [hrequest]
    refine ⟨iff_of_true ⟨r, rfl⟩ hlength, fun r' hr p hp c hc => ?_, fun h => absurd rfl (h r)⟩
    cases hr
    exact getElem?_of_requestOf hrequest hp hc
  · rw [herror]
    exact ⟨iff_of_false (fun ⟨r, hr⟩ => by cases hr) (Nat.not_le_of_lt hshort),
      fun r hr => (by cases hr), fun _ => rfl⟩

/-- In a file in quotes whose header has each name of a request once, every row gives one result, in
order: a request if the row has a field for every column, and then the one with the fields under its
names, and else an error about this row.  Another row in the place of one changes no other result.
-/
theorem rows_are_read_one_by_one (header : List String) (rows : List (List String))
    (hnames : ∀ name ∈ requestColumns, (header.map trimmed).count name = 1)
    (hrows : ∀ row ∈ rows, row ≠ []) :
    let results (rows : List (List String)) : List (Except ReadError DataRequest) :=
      requests { bytes := Text.encode (enclosedFile (header :: rows)) }
    (results rows).length = rows.length ∧
    (∀ (i : Nat) row, rows[i]? = some row → ∃ result, (results rows)[i]? = some result ∧
      ((∃ r, result = .ok r) ↔ header.length ≤ row.length) ∧
      (∀ r, result = .ok r → ∀ p ∈ namedFields r, ∀ c : Nat,
        (header.map trimmed)[c]? = some p.1 → (row.map trimmed)[c]? = some p.2) ∧
      ((∀ r, result ≠ .ok r) →
        ∃ place : Place, place.record = i + 1 ∧ result = .error (.fault place .endOfRow))) ∧
    ∀ (i : Nat) row, row ≠ [] → ∀ j, j ≠ i →
      (results (rows.set i row))[j]?.map unplaced = (results rows)[j]?.map unplaced := by
  intro results
  have hheader : header ≠ [] := by
    rintro rfl
    exact absurd (hnames "key" (by decide)) (by decide)
  have hresults {rows : List (List String)} (hrows : ∀ row ∈ rows, row ≠ []) (i : Nat) :=
    getElem?_requests_of_enclosed hheader hrows i
  refine ⟨?_, fun i row hrow => ?_, fun i row hrow j hj => ?_⟩
  · -- a place has a result if and only if it has a row
    have hnone : ∀ i : Nat, (results rows)[i]? = none ↔ rows[i]? = none := by
      intro i
      obtain ⟨place, -, hresult⟩ := hresults hrows i
      rw [hresult, Option.map_eq_none_iff]
    simp only [List.getElem?_eq_none_iff] at hnone
    exact Nat.le_antisymm ((hnone _).2 (Nat.le_refl _)) ((hnone _).1 (Nat.le_refl _))
  · obtain ⟨place, hplace, hresult⟩ := hresults hrows i
    rw [hrow, Option.map_some] at hresult
    obtain ⟨hok, hfields, herror⟩ := result_of_once hnames (row.map trimmed) place
    rw [List.length_map, List.length_map] at hok
    exact ⟨_, hresult, hok, hfields, fun h => ⟨place, hplace, herror h⟩⟩
  · have hset : ∀ row' ∈ rows.set i row, row' ≠ [] := by
      intro row' hmem
      rcases List.mem_or_eq_of_mem_set hmem with hmem | rfl
      · exact hrows row' hmem
      · exact hrow
    -- both files have the same row in this place, though perhaps not after as many bytes
    obtain ⟨place, -, hresult⟩ := hresults hrows j
    obtain ⟨place', -, hresult'⟩ := hresults hset j
    rw [hresult, hresult', List.getElem?_set_ne (Ne.symm hj), Option.map_map, Option.map_map]
    simp only [Function.comp_def, unplaced_fault]

/-- Permuted columns, a row with quotes, commas and line breaks in its fields, and a row that is too
short between two others. -/
theorem rows_are_read_one_by_one_of_odd_fields :
    let header := ["provider", "n,o", "\u00a0key ", "asset"]
    let rows :=
      [["p\n1", "", " k\"1\" ", "a,1"], ["p2", "\"\n"], ["p3", "", "k3", "a3", "more\r\n"]]
    let results := requests { bytes := Text.encode (enclosedFile (header :: rows)) }
    (∀ name ∈ requestColumns, (header.map trimmed).count name = 1) ∧ (∀ row ∈ rows, row ≠ []) ∧
      results.length = 3 ∧
      (∃ r, results[0]? = some (.ok r)) ∧
      (∃ place : Place, place.record = 2 ∧ results[1]? = some (.error (.fault place .endOfRow))) ∧
      ∃ r, results[2]? = some (.ok r) := by
  intro header rows results
  have hnames : ∀ name ∈ requestColumns, (header.map trimmed).count name = 1 := by decide
  have hrows : ∀ row ∈ rows, row ≠ [] := by decide
  obtain ⟨hlength, hresult, -⟩ := rows_are_read_one_by_one header rows hnames hrows
  obtain ⟨first, hfirst, hok, -⟩ := hresult 0 _ rfl
  obtain ⟨second, hsecond, hshort, -, herror⟩ := hresult 1 _ rfl
  obtain ⟨third, hthird, hok', -⟩ := hresult 2 _ rfl
  obtain ⟨r, rfl⟩ := hok.2 (by decide)
  obtain ⟨r', rfl⟩ := hok'.2 (by decide)
  have hnot : ∀ r, second ≠ .ok r := fun r hr => absurd (hshort.1 ⟨r, hr⟩) (by decide)
  obtain ⟨place, hplace, rfl⟩ := herror hnot
  exact ⟨hnames, hrows, hlength, ⟨r, hfirst⟩, ⟨place, hplace, hsecond⟩, ⟨r', hthird⟩⟩

end Rendezvous.Csv
