import Rendezvous.Csv.Scan
import Rendezvous.Protocol
import Rendezvous.Text.Blank
import Rendezvous.Text.Utf8

/-!
# Requests from comma-separated values

The first record names the columns; every record after it is one request, with its key, its asset
and its provider in the columns of these names.  Blanks around names and fields are not part of
them.  A record that is not a request is reported and does not disturb the others.

If the names cannot be read as text, the first three fields are taken in order.  If the source
breaks, the records that were complete by then are still read and the break is reported last;
without a complete first record there is nothing to read at all.
-/

namespace Rendezvous.Csv

/-- What keeps a record from being a request. -/
inductive Fault
  /-- A named column has no field. -/
  | endOfRow
  | missingField (name : String)
  | duplicateField (name : String)
  /-- Too few fields where columns have no names. -/
  | tooShort (count : Nat)
deriving DecidableEq, Repr

/-- The fault as a line of text. -/
def Fault.message : Fault → String
  | .endOfRow => "expected field, but got end of row"
  | .missingField name => "missing field `" ++ name ++ "`"
  | .duplicateField name => "duplicate field `" ++ name ++ "`"
  | .tooShort count =>
      "invalid length " ++ toString count ++ ", expected struct DataRequest with 3 elements"

/-- What can go wrong while requests are read. -/
inductive ReadError
  | fault (place : Place) (f : Fault)
  /-- A field is not text from byte `index` on. -/
  | notText (place : Place) (field index : Nat)
  /-- The source broke. -/
  | source (text : String)
deriving DecidableEq, Repr

/-- The error as a line of text. -/
def ReadError.message : ReadError → String
  | .fault place f =>
      "CSV error: CSV deserialize error: record " ++ toString place.record ++ " (line: "
        ++ toString place.line ++ ", byte: " ++ toString place.byte ++ "): " ++ f.message
  | .notText place field index =>
      "CSV error: CSV parse error: record " ++ toString place.record ++ " (line "
        ++ toString place.line ++ ", field: " ++ toString field ++ ", byte: " ++ toString place.byte
        ++ "): invalid utf-8: invalid UTF-8 in field " ++ toString field ++ " near byte index "
        ++ toString index
  | .source text => "CSV error: " ++ text

/-! ### Fields as text -/

/-- The bytes that are blank by themselves. -/
def isBlankByte (b : UInt8) : Bool := b = 0x20 || (0x09 ≤ b && b ≤ 0x0D)

/-- Bytes without the blanks around them. -/
def trimBytes (bs : List UInt8) : List UInt8 :=
  ((bs.dropWhile isBlankByte).reverse.dropWhile isBlankByte).reverse

/-- A field as text, without the blanks around it; or where it stops being text. -/
def cell (field : List UInt8) : Except Nat String :=
  (Text.decode (trimBytes field)).map fun cs => String.ofList (Text.trim cs)

/-- The fields of a record as text, the first of them with number `n`. -/
def cellsFrom (place : Place) : Nat → List (List UInt8) → Except ReadError (List String)
  | _, [] => .ok []
  | n, field :: fields =>
      match cell field with
      | .error index => .error (.notText place n index)
      | .ok text => (cellsFrom place (n + 1) fields).map (text :: ·)

/-- The fields of a record as text. -/
def Record.cells (r : Record) : Except ReadError (List String) := cellsFrom r.place 0 r.fields

/-- The names of the columns, if they can be read as text. -/
def Record.names? (r : Record) : Option (List String) := r.cells.toOption

/-! ### Requests -/

/-- What is known of a request. -/
structure Draft where
  key? : Option String := none
  asset? : Option String := none
  provider? : Option String := none

namespace Draft

/-- Puts a field into the column of a name, unless that name has occurred before. -/
def put (name : String) (old? : Option String) (cell? : Option String) : Except Fault String :=
  match old?, cell? with
  | some _, _ => .error (.duplicateField name)
  | none, none => .error .endOfRow
  | none, some text => .ok text

/-- Takes the field of the column `name`. -/
def enter (d : Draft) (name : String) (cell? : Option String) : Except Fault Draft :=
  match name with
  | "key" => (put name d.key? cell?).map fun text => { d with key? := some text }
  | "asset" => (put name d.asset? cell?).map fun text => { d with asset? := some text }
  | "provider" => (put name d.provider? cell?).map fun text => { d with provider? := some text }
  | _ => if cell?.isSome then .ok d else .error .endOfRow

/-- The request, if nothing is missing. -/
def complete (d : Draft) : Except Fault DataRequest :=
  match d.key?, d.asset?, d.provider? with
  | some key, some asset, some provider => .ok { key := ⟨key⟩, asset := ⟨asset⟩, provider }
  | none, _, _ => .error (.missingField "key")
  | _, none, _ => .error (.missingField "asset")
  | _, _, none => .error (.missingField "provider")

end Draft

/-- Takes the fields of all columns in their order. -/
def byName : Draft → List String → List String → Except Fault Draft
  | d, [], _ => .ok d
  | d, name :: names, cells => do
      let d ← d.enter name cells.head?
      byName d names cells.tail

/-- The request whose fields come in order. -/
def byPosition : List String → Except Fault DataRequest
  | key :: asset :: provider :: _ => .ok { key := ⟨key⟩, asset := ⟨asset⟩, provider }
  | cells => .error (.tooShort cells.length)

/-- The request of a record. -/
def Record.request (names? : Option (List String)) (r : Record) : Except ReadError DataRequest := do
  let cells ← r.cells
  let request : Except Fault DataRequest :=
    match names? with
    | some names => byName {} names cells >>= Draft.complete
    | none => byPosition cells
  request.mapError (.fault r.place)

/-- A source of bytes: what it yields, and what it says if it breaks instead of ending. -/
structure Source where
  bytes : List UInt8
  broken? : Option String := none

/-- Everything that is read from a source. -/
def requests (s : Source) : List (Except ReadError DataRequest) :=
  let records := match s.broken? with
    | none => (scan s.bytes).finish
    | some _ => (scan s.bytes).complete
  match records with
  | [] => []
  | header :: rows =>
      rows.map (Record.request header.names?)
        ++ s.broken?.toList.map fun text => .error (.source text)

end Rendezvous.Csv
