import Mathlib.Data.List.Count
import Rendezvous.Csv.Pull
import Rendezvous.Proofs.Cells
import Rendezvous.Proofs.Complaints

/-!
# Fields are taken by the names of their columns

A draft takes the fields of a record in the order of the columns and keeps those whose names it
knows, each of them once.  What it has in a column in the end is therefore the only field under that
name, so a request has exactly the fields that stand under its names, wherever these columns are.

* `byName_eq_ok`: what a draft has got from a record;
* `requestOf_eq_ok`: when the fields of a record make a request, and which;
* `fields_are_taken_by_name`: every request of a source whose first record is text.
-/

namespace Rendezvous.Csv

variable {name col text : String} {names cells : List String} {cell? : Option String}

/-! ## Fields under a name -/

/-- The fields in the columns of a name. -/
def fieldsOf (col : String) (names cells : List String) : List String :=
  ((names.zip cells).filter fun p => p.1 = col).map fun p => p.2

theorem fieldsOf_cons (col name text : String) (names cells : List String) :
    fieldsOf col (name :: names) (text :: cells)
      = (if name = col then [text] else []) ++ fieldsOf col names cells := by
  unfold fieldsOf
  by_cases h : name = col <;> simp [h]

theorem mem_fieldsOf : text ∈ fieldsOf col names cells ↔
    ∃ c : Nat, names[c]? = some col ∧ cells[c]? = some text := by
  have hzip : (col, text) ∈ names.zip cells ↔
      ∃ c : Nat, names[c]? = some col ∧ cells[c]? = some text := by
    simp [List.mem_iff_getElem?, List.getElem?_zip_eq_some]
  simp [fieldsOf, hzip]

theorem length_fieldsOf (hlength : names.length ≤ cells.length) :
    (fieldsOf col names cells).length = names.count col := by
  induction names generalizing cells with
  | nil => rfl
  | cons name names ih =>
    obtain ⟨text, cells, rfl⟩ := List.exists_cons_of_length_pos (Nat.zero_lt_of_lt hlength)
    rw [fieldsOf_cons, List.length_append, ih (Nat.le_of_succ_le_succ hlength), List.count_cons]
    by_cases h : name = col <;> simp [h, Nat.add_comm]

/-! ## Drafts -/

namespace Draft

variable {d d' : Draft}

/-- What a draft has in a column. -/
def column (d : Draft) : String → Option String
  | "key" => d.key?
  | "asset" => d.asset?
  | "provider" => d.provider?
  | _ => none

/-- A draft with a field in a column, if it is one of a request. -/
def fill (d : Draft) (name text : String) : Draft :=
  match name with
  | "key" => { d with key? := some text }
  | "asset" => { d with asset? := some text }
  | "provider" => { d with provider? := some text }
  | _ => d

theorem column_of_not_mem (d : Draft) (h : name ∉ requestColumns) : d.column name = none := by
  unfold column
  split <;> first | rfl | simp [requestColumns] at h

theorem column_empty (name : String) : ({} : Draft).column name = none := by
  unfold column
  split <;> rfl

theorem ext_column (h : ∀ col ∈ requestColumns, d.column col = d'.column col) : d = d' := by
  have hkey : d.key? = d'.key? := h "key" (by decide)
  have hasset : d.asset? = d'.asset? := h "asset" (by decide)
  have hprovider : d.provider? = d'.provider? := h "provider" (by decide)
  cases d
  cases d'
  simp_all

theorem column_fill (hcol : col ∈ requestColumns) :
    (d.fill name text).column col = if name = col then some text else d.column col := by
  simp only [requestColumns, List.mem_cons, List.not_mem_nil, or_false] at hcol
  unfold fill
  rcases hcol with rfl | rfl | rfl <;> split <;> simp_all [column]

/-- A draft takes a field into its column, unless the column has one or there is no field. -/
theorem enter_eq (d : Draft) (name : String) (cell? : Option String) :
    d.enter name cell? = (put name (d.column name) cell?).map (d.fill name) := by
  unfold enter
  split
  · rfl
  · rfl
  · rfl
  · -- the field of any other column is only looked for
    rename_i hkey hasset hprovider
    have hcolumn : d.column name = none := d.column_of_not_mem (by
      simpa [requestColumns] using ⟨hkey, hasset, hprovider⟩)
    have hfill : d.fill name = fun _ => d := by
      funext text
      simp only [fill]
    rw [hcolumn, hfill]
    cases cell? <;> rfl

theorem enter_eq_ok : d.enter name cell? = .ok d' ↔
    d.column name = none ∧ ∃ text, cell? = some text ∧ d' = d.fill name text := by
  rw [enter_eq]
  cases d.column name with
  | some old => simp [put, Except.map]
  | none => cases cell? <;> simp [put, Except.map, eq_comm]

/-- A request is complete if it has each of its fields. -/
theorem complete_eq_ok {r : DataRequest} : d.complete = .ok r ↔
    d.key? = some r.key.text ∧ d.asset? = some r.asset.text ∧ d.provider? = some r.provider := by
  obtain ⟨key?, asset?, provider?⟩ := d
  obtain ⟨⟨key⟩, ⟨asset⟩, provider⟩ := r
  cases key? <;> cases asset? <;> cases provider? <;> simp [complete]

end Draft

/-! ## Records -/

/-- A field whose column is still empty is taken into it. -/
theorem byName_cons {d : Draft} (hcolumn : d.column name = none) :
    byName d (name :: names) (text :: cells) = byName (d.fill name text) names cells := by
  have henter : d.enter name (some text) = .ok (d.fill name text) :=
    Draft.enter_eq_ok.2 ⟨hcolumn, text, rfl, rfl⟩
  simp [byName, henter, bind, Except.bind]

/-- What a draft has got from the fields of a record: one field for each column of a request whose
name has not occurred before, and no second one. -/
theorem byName_eq_ok {d d' : Draft} : byName d names cells = .ok d' ↔
    names.length ≤ cells.length ∧ ∀ col ∈ requestColumns,
      (d'.column col).toList = (d.column col).toList ++ fieldsOf col names cells := by
  -- the induction is on the names, and a draft that has taken a field goes on with the rest
  induction names generalizing d cells with
  | nil =>
    have hnone : ∀ col, fieldsOf col [] cells = [] := fun _ => rfl
    simp only [byName, Except.ok.injEq, hnone, List.append_nil, List.length_nil, Nat.zero_le,
      true_and]
    refine ⟨fun h _ _ => by rw [h], fun h => Draft.ext_column fun col hcol => ?_⟩
    simpa using congrArg List.head? (h col hcol).symm
  | cons name names ih =>
    cases cells with
    | nil =>
      -- there is no field for this column
      refine ⟨fun h => ?_, fun h => absurd h.1 (by simp)⟩
      obtain ⟨d₁, henter, -⟩ := exists_ok_of_bind h
      obtain ⟨-, text, htext, -⟩ := Draft.enter_eq_ok.1 henter
      cases htext
    | cons text cells =>
      cases hcolumn : d.column name with
      | some old =>
        -- the name has occurred before, so there would be two fields in its column
        have hname : name ∈ requestColumns := by
          by_contra hname
          rw [d.column_of_not_mem hname] at hcolumn
          cases hcolumn
        refine ⟨fun h => ?_, fun h => ?_⟩
        · obtain ⟨d₁, henter, -⟩ := exists_ok_of_bind h
          cases hcolumn.symm.trans (Draft.enter_eq_ok.1 henter).1
        · have htwo := congrArg List.length (h.2 name hname)
          have hone : (d'.column name).toList.length ≤ 1 := by cases d'.column name <;> simp
          simp [hcolumn, fieldsOf_cons] at htwo
          omega
      | none =>
        rw [byName_cons hcolumn, ih]
        -- what has been taken into the column was the first field under its name
        have hfill : ∀ col ∈ requestColumns, ((d.fill name text).column col).toList
            ++ fieldsOf col names cells
              = (d.column col).toList ++ fieldsOf col (name :: names) (text :: cells) := by
          intro col hcol
          rw [Draft.column_fill hcol, fieldsOf_cons]
          by_cases h : name = col
          · subst h
            simp [hcolumn]
          · simp [h]
        simp +contextual [hfill]

/-- If there are fewer fields than columns, a draft runs out of fields before anything else can go
wrong with names that occur only once. -/
theorem byName_of_short {d : Draft}
    (honce : ∀ col ∈ requestColumns, (d.column col).toList.length + names.count col ≤ 1)
    (hshort : cells.length < names.length) : byName d names cells = .error .endOfRow := by
  induction names generalizing d cells with
  | nil => simp at hshort
  | cons name names ih =>
    have hcolumn : d.column name = none := by
      by_cases hname : name ∈ requestColumns
      · have hone := honce name hname
        cases hcolumn : d.column name with
        | none => rfl
        | some old =>
          simp only [hcolumn, Option.toList_some, List.length_singleton, List.count_cons_self]
            at hone
          omega
      · exact d.column_of_not_mem hname
    cases cells with
    | nil =>
      have henter : d.enter name none = .error .endOfRow := by
        rw [Draft.enter_eq, hcolumn]
        rfl
      simp [byName, henter, bind, Except.bind]
    | cons text cells =>
      rw [byName_cons hcolumn]
      refine ih (fun col hcol => ?_) (Nat.lt_of_succ_lt_succ hshort)
      have hone := honce col hcol
      rw [Draft.column_fill hcol]
      by_cases h : name = col
      · subst h
        simpa [hcolumn, Nat.add_comm] using hone
      · simpa [h, List.count_cons] using hone

/-- What the fields of a record make under some names. -/
def requestOf (names cells : List String) : Except Fault DataRequest :=
  byName {} names cells >>= Draft.complete

/-- The fields of a request with the names of their columns. -/
def namedFields (r : DataRequest) : List (String × String) :=
  [("key", r.key.text), ("asset", r.asset.text), ("provider", r.provider)]

/-- The fields of a record make a request if no column lacks one and each name of a request has one
column, and it has what stands in these columns. -/
theorem requestOf_eq_ok {r : DataRequest} : requestOf names cells = .ok r ↔
    names.length ≤ cells.length ∧ ∀ p ∈ namedFields r, fieldsOf p.1 names cells = [p.2] := by
  constructor
  · intro h
    obtain ⟨d, hbyName, hcomplete⟩ := exists_ok_of_bind h
    obtain ⟨hlength, hcolumns⟩ := byName_eq_ok.1 hbyName
    obtain ⟨hkey, hasset, hprovider⟩ := Draft.complete_eq_ok.1 hcomplete
    refine ⟨hlength, ?_⟩
    simp only [requestColumns, List.forall_mem_cons, Draft.column_empty, Option.toList_none,
      List.nil_append] at hcolumns
    simp [namedFields, ← hcolumns.1, ← hcolumns.2.1, ← hcolumns.2.2.1, Draft.column, hkey, hasset,
      hprovider]
  · rintro ⟨hlength, hfields⟩
    let d : Draft :=
      { key? := some r.key.text, asset? := some r.asset.text, provider? := some r.provider }
    have hbyName : byName {} names cells = .ok d := by
      refine byName_eq_ok.2 ⟨hlength, ?_⟩
      simp only [namedFields, List.forall_mem_cons] at hfields
      simp [requestColumns, hfields.1, hfields.2.1, hfields.2.2.1, Draft.column, d]
    have hcomplete : d.complete = .ok r := Draft.complete_eq_ok.2 ⟨rfl, rfl, rfl⟩
    rw [requestOf, hbyName]
    exact hcomplete

/-- What a request has under a name stands in the column of the name. -/
theorem getElem?_of_requestOf {r : DataRequest} (h : requestOf names cells = .ok r)
    {p : String × String} (hp : p ∈ namedFields r) {c : Nat} (hc : names[c]? = some p.1) :
    cells[c]? = some p.2 := by
  obtain ⟨hlength, hfields⟩ := requestOf_eq_ok.1 h
  have hcells : c < cells.length :=
    Nat.lt_of_lt_of_le (List.getElem?_eq_some_iff.1 hc).1 hlength
  -- the field of this column is one of those under the name, and there is only one
  have hmem : cells[c] ∈ fieldsOf p.1 names cells :=
    mem_fieldsOf.2 ⟨c, hc, List.getElem?_eq_getElem hcells⟩
  rw [hfields p hp, List.mem_singleton] at hmem
  rw [List.getElem?_eq_getElem hcells, hmem]

/-- If each name of a request occurs once, the fields of a row make a request exactly if there are
enough of them; otherwise the row ends too early. -/
theorem requestOf_of_once (honce : ∀ name ∈ requestColumns, names.count name = 1)
    (cells : List String) :
    (names.length ≤ cells.length ∧ ∃ r, requestOf names cells = .ok r) ∨
      (cells.length < names.length ∧ requestOf names cells = .error .endOfRow) := by
  rcases Nat.lt_or_ge cells.length names.length with hshort | hlength
  · refine .inr ⟨hshort, ?_⟩
    have hbyName : byName {} names cells = .error .endOfRow := by
      refine byName_of_short (fun col hcol => ?_) hshort
      simp [Draft.column_empty, honce col hcol]
    rw [requestOf, hbyName]
    rfl
  · refine .inl ⟨hlength, ?_⟩
    have hone : ∀ name ∈ requestColumns, ∃ text, fieldsOf name names cells = [text] := by
      intro name hname
      rw [← List.length_eq_one_iff, length_fieldsOf hlength, honce name hname]
    obtain ⟨key, hkey⟩ := hone "key" (by decide)
    obtain ⟨asset, hasset⟩ := hone "asset" (by decide)
    obtain ⟨provider, hprovider⟩ := hone "provider" (by decide)
    refine ⟨{ key := ⟨key⟩, asset := ⟨asset⟩, provider }, requestOf_eq_ok.2 ⟨hlength, ?_⟩⟩
    simp [namedFields, hkey, hasset, hprovider]

namespace Record

variable {row header : Record} {r : DataRequest}

/-- The fields of a record as texts without the blanks around them; nothing for one that is not
text. -/
def texts (row : Record) : List (Option String) := row.fields.map trimmedText?

theorem cellsFrom_eq_ok {place : Place} {n : Nat} {fields : List (List UInt8)} :
    cellsFrom place n fields = .ok cells ↔ fields.map trimmedText? = cells.map some := by
  induction fields generalizing n cells with
  | nil => cases cells <;> simp [cellsFrom]
  | cons field fields ih =>
    rw [cellsFrom, List.map_cons, ← toOption_cell]
    cases cell field with
    | error index => cases cells <;> simp [Except.toOption]
    | ok text =>
      have hmap : (cellsFrom place (n + 1) fields).map (text :: ·) = .ok cells ↔
          ∃ rest, cellsFrom place (n + 1) fields = .ok rest ∧ text :: rest = cells := by
        cases cellsFrom place (n + 1) fields <;> simp [Except.map]
      change (cellsFrom place (n + 1) fields).map (text :: ·) = .ok cells ↔
        some text :: fields.map trimmedText? = cells.map some
      rw [hmap]
      cases cells with
      | nil => simp
      | cons text' cells => simp [ih, and_comm]

/-- The fields of a record can be read if all of them are texts. -/
theorem cells_eq_ok : row.cells = .ok cells ↔ row.texts = cells.map some := cellsFrom_eq_ok

/-- The names of a record of texts are these texts. -/
theorem exists_names (h : none ∉ header.texts) :
    ∃ names, header.names? = some names ∧ header.texts = names.map some := by
  obtain ⟨names, hnames⟩ : ∃ names : List String, header.texts = names.map some := by
    refine ⟨header.texts.map fun text? => text?.getD "", ?_⟩
    rw [List.map_map]
    refine (List.map_id _).symm.trans (List.map_congr_left fun text? hmem => ?_)
    cases text? with
    | none => exact absurd hmem h
    | some text => rfl
  exact ⟨names, by rw [names?, cells_eq_ok.2 hnames]; rfl, hnames⟩

/-- A record of texts makes the request that these texts make. -/
theorem request_of_texts (h : row.texts = cells.map some) :
    row.request (some names) = (requestOf names cells).mapError (.fault row.place) := by
  rw [request, cells_eq_ok.2 h]
  rfl

/-- A record makes a request under some names if its fields are texts that do. -/
theorem request_eq_ok : row.request (some names) = .ok r ↔
    ∃ cells, row.texts = cells.map some ∧ requestOf names cells = .ok r := by
  have hmapError : ∀ p : Except Fault DataRequest,
      p.mapError (ReadError.fault row.place) = .ok r ↔ p = .ok r := by
    intro p
    cases p <;> simp [Except.mapError]
  constructor
  · intro h
    obtain ⟨cells, hcells, hrequest⟩ := exists_ok_of_bind h
    exact ⟨cells, cells_eq_ok.1 hcells, (hmapError _).1 hrequest⟩
  · rintro ⟨cells, htexts, hrequest⟩
    rw [request_of_texts htexts, hmapError]
    exact hrequest

end Record

/-! ## Sources -/

variable {s : Source}

theorem requests_eq (s : Source) : requests s = match s.records with
    | [] => []
    | header :: rows => rows.map (Record.request header.names?)
        ++ s.broken?.toList.map fun text => .error (.source text) := by
  unfold requests Source.records
  cases s.broken? <;> rfl

/-- A request comes from the record in the same place after the first one. -/
theorem exists_row_of_ok {i : Nat} {r : DataRequest} (h : (requests s)[i]? = some (.ok r)) :
    ∃ header row, s.records.head? = some header ∧ s.records[i + 1]? = some row ∧
      row.request header.names? = .ok r := by
  rw [requests_eq] at h
  cases hrecords : s.records with
  | nil => simp [hrecords] at h
  | cons header rows =>
    simp only [hrecords, List.getElem?_append] at h
    split at h
    · rw [List.getElem?_map] at h
      obtain ⟨row, hrow, hrequest⟩ := Option.map_eq_some_iff.1 h
      exact ⟨header, row, rfl, by simpa using hrow, hrequest⟩
    · -- what follows the records is the break of the source
      obtain ⟨text, -, herror⟩ := List.mem_map.1 (List.mem_of_getElem? h)
      cases herror

/-- If the first record is text, every request has the fields that stand in the columns of its
names, each of which occurs exactly once; and if one of these names is missing or occurs more than
once, there are no requests. -/
theorem fields_are_taken_by_name (s : Source)
    (htext : ∀ header ∈ s.records.head?, none ∉ header.texts) :
    (∀ i r, (requests s)[i]? = some (.ok r) →
      ∃ header row, s.records.head? = some header ∧ s.records[i + 1]? = some row ∧
        ∀ p ∈ namedFields r, header.texts.count (some p.1) = 1 ∧
          ∀ c : Nat, header.texts[c]? = some (some p.1) → row.texts[c]? = some (some p.2)) ∧
    ((∀ header ∈ s.records.head?,
        ∃ name ∈ requestColumns, header.texts.count (some name) ≠ 1) →
      ∀ r, .ok r ∉ requests s) := by
  have hrows : ∀ i r, (requests s)[i]? = some (.ok r) →
      ∃ header row, s.records.head? = some header ∧ s.records[i + 1]? = some row ∧
        ∀ p ∈ namedFields r, header.texts.count (some p.1) = 1 ∧
          ∀ c : Nat, header.texts[c]? = some (some p.1) → row.texts[c]? = some (some p.2) := by
    intro i r h
    obtain ⟨header, row, hheader, hrow, hrequest⟩ := exists_row_of_ok h
    refine ⟨header, row, hheader, hrow, fun p hp => ?_⟩
    obtain ⟨names, hnames, htexts⟩ := Record.exists_names (htext header hheader)
    rw [hnames] at hrequest
    obtain ⟨cells, hcells, hof⟩ := Record.request_eq_ok.1 hrequest
    obtain ⟨hlength, hfields⟩ := requestOf_eq_ok.1 hof
    have hone := hfields p hp
    rw [htexts, hcells]
    constructor
    · have hinjective : Function.Injective (some : String → Option String) :=
        fun _ _ => Option.some.inj
      rw [List.count_map_of_injective _ _ hinjective, ← length_fieldsOf hlength, hone]
      rfl
    · intro c hc
      have hname : names[c]? = some p.1 := by simpa using hc
      simp [getElem?_of_requestOf hof hp hname]
  -- a request would have found the bad name exactly once
  refine ⟨hrows, fun hbad r hmem => ?_⟩
  obtain ⟨i, hi⟩ := List.mem_iff_getElem?.1 hmem
  obtain ⟨header, row, hheader, -, hnamed⟩ := hrows i r hi
  obtain ⟨name, hname, hcount⟩ := hbad header hheader
  obtain ⟨p, hp, rfl⟩ : ∃ p ∈ namedFields r, p.1 = name := by
    simpa [namedFields, requestColumns, eq_comm] using hname
  exact hcount (hnamed p hp).1

/-- Columns in another order, one of them without a name, and a record that is too short. -/
theorem fields_are_taken_by_name_of_permuted :
    let s : Source :=
      { bytes := Text.encode "provider, ,\"key\",asset\np1,x, k1 ,a1\np2,y,k2\n".toList }
    let r : DataRequest := { key := ⟨"k1"⟩, asset := ⟨"a1"⟩, provider := "p1" }
    (∀ header ∈ s.records.head?, none ∉ header.texts) ∧ (requests s)[0]? = some (.ok r) ∧
      ∃ header row, s.records.head? = some header ∧ s.records[1]? = some row ∧
        header.texts = [some "provider", some "", some "key", some "asset"] ∧
        ∀ p ∈ namedFields r, header.texts.count (some p.1) = 1 ∧
          ∀ c : Nat, header.texts[c]? = some (some p.1) → row.texts[c]? = some (some p.2) := by
  intro s r
  have htext : ∀ header ∈ s.records.head?, none ∉ header.texts := by decide
  have hfirst : (requests s)[0]? = some (.ok r) := rfl
  obtain ⟨header, row, hheader, hrow, hnamed⟩ := (fields_are_taken_by_name s htext).1 0 r hfirst
  have hnames : s.records.head?.map Record.texts
      = some [some "provider", some "", some "key", some "asset"] := by decide
  rw [hheader] at hnames
  exact ⟨htext, hfirst, header, row, hheader, hrow, Option.some.inj hnames, hnamed⟩

/-- The names of the columns are passed over if one of them is no text, here because of a byte
`0xE9`; then the fields are taken in their order, whatever the other names say. -/
theorem unreadable_name_hides_the_others :
    let s : Source :=
      { bytes := Text.encode "provider,key,asset,caf".toList ++ 0xE9 ::
          Text.encode "\np1,k1,a1,x\n".toList }
    s.records.head?.map Record.texts = some [some "provider", some "key", some "asset", none] ∧
      requests s = [.ok { key := ⟨"p1"⟩, asset := ⟨"k1"⟩, provider := "a1" }] :=
  ⟨by decide, rfl⟩

end Rendezvous.Csv
