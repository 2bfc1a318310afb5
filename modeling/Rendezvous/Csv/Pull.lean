import Rendezvous.Csv.Requests

/-!
# Reading requests one at a time

Whoever reads requests asks for one after the other, and a source is read no further than that
takes.  A look for a record scans until a record has ended.  The first record is looked for when the
reading begins, and its names are kept if it was found.  The look that comes to the point where the
source breaks says so; every look after the end of a source or after a break finds nothing.
-/

namespace Rendezvous.Csv

/-- The records that can be read from a source. -/
def Source.records (s : Source) : List Record :=
  match s.broken? with
  | none => (scan s.bytes).finish
  | some _ => (scan s.bytes).complete

/-- Where the reading of a source stands. -/
structure Cursor where
  /-- The scanner, from which every finished record has been taken. -/
  scan : Scan
  /-- The bytes that are still to be scanned. -/
  rest : List UInt8
  broken? : Option String := none
  /-- Whether the source has ended or broken. -/
  ended : Bool := false

/-- What a look for a record comes to. -/
inductive Finding
  | record (r : Record)
  | nothing
  /-- The source broke. -/
  | broken (text : String)

namespace Cursor

/-- The beginning of a source. -/
def init (s : Source) : Cursor :=
  let (scan, rest) := afterMark s.bytes
  { scan, rest, broken? := s.broken? }

/-- The look that comes to the end of a source; the end ends a record that has begun. -/
def atEnd (broken? : Option String) (s : Scan) : Finding :=
  match broken?, s.mode with
  | some text, _ => .broken text
  | none, .between => .nothing
  | none, _ => .record s.present

/-- Scans until a record has ended. -/
def seekFrom (broken? : Option String) : Scan → List UInt8 → Finding × Cursor
  | s, [] => (atEnd broken? s, { scan := s, rest := [], broken?, ended := true })
  | s, b :: bs =>
      match (s.step b).records with
      | [] => seekFrom broken? (s.step b) bs
      | r :: _ => (.record r, { scan := { s.step b with records := [] }, rest := bs, broken? })

/-- Looks for the next record. -/
def seek (c : Cursor) : Finding × Cursor :=
  if c.ended then (.nothing, c) else seekFrom c.broken? c.scan c.rest

end Cursor

/-- Requests that are being read. -/
structure Stream where
  cursor : Cursor
  /-- The names of the columns, if they can be read as text. -/
  names? : Option (List String)

namespace Stream

/-- Begins to read requests. -/
def opened (s : Source) : Stream :=
  match (Cursor.init s).seek with
  | (.record header, cursor) => { cursor, names? := header.names? }
  | (_, cursor) => { cursor, names? := none }

/-- Reads a request; nothing if there is no more to come. -/
def next? (st : Stream) : Option (Except ReadError DataRequest × Stream) :=
  match st.cursor.seek with
  | (.record r, cursor) => some (r.request st.names?, { st with cursor })
  | (.broken text, cursor) => some (.error (.source text), { st with cursor })
  | (.nothing, _) => none

/-- Reading on until there is no more to come yields these items and ends. -/
inductive Yields : Stream → List (Except ReadError DataRequest) → Prop
  | ended {st : Stream} (h : st.next? = none) : Yields st []
  | item {st st' : Stream} {x : Except ReadError DataRequest}
      {xs : List (Except ReadError DataRequest)} (h : st.next? = some (x, st'))
      (rest : Yields st' xs) : Yields st (x :: xs)

end Stream

end Rendezvous.Csv
