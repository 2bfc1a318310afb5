import Rendezvous.Csv.Print

/-!
# Reading comma-separated values strictly

The scanner makes something of all bytes.  The strict reader takes only what all readers agree on:

* a field has no quotes, commas or ends of lines in it, or it stands in quotes as a whole and every
  quote inside is doubled;
* a line ends with a line feed or with a carriage return and a line feed; the last line need not be
  ended;
* every line is a record, and all records have the same number of fields.
-/

namespace Rendezvous.Csv

/-- Where the strict reader is. -/
inductive Spot
  /-- At the beginning of a record. -/
  | line
  /-- At the beginning of a field after a comma. -/
  | start
  /-- In a field without quotes. -/
  | plain
  /-- Between quotes. -/
  | quoted
  /-- After a quote between quotes: the closing one, or the first of two. -/
  | closed
  /-- After a carriage return that has to be followed by a line feed. -/
  | returned
deriving DecidableEq, Repr

/-- The state of the strict reader. -/
structure Strict where
  spot : Spot := .line
  /-- The finished fields of the present record, latest first. -/
  fields : List (List UInt8) := []
  /-- The bytes of the present field, latest first. -/
  field : List UInt8 := []
  /-- The finished records, latest first. -/
  records : List (List (List UInt8)) := []
deriving DecidableEq, Repr

namespace Strict

/-- Keeps a byte for the present field. -/
def keep (s : Strict) (spot : Spot) (b : UInt8) : Strict := { s with spot, field := b :: s.field }

/-- Ends the present field. -/
def endField (s : Strict) : Strict :=
  { s with spot := .start, fields := s.field.reverse :: s.fields, field := [] }

/-- Ends the present record. -/
def endRecord (s : Strict) : Strict :=
  { records := (s.field.reverse :: s.fields).reverse :: s.records }

/-- Reads what follows a field. -/
def delimit? (s : Strict) (b : UInt8) : Option Strict :=
  if b = comma then some s.endField
  else if b = lineFeed then some s.endRecord
  else if b = carriageReturn then some { s with spot := .returned }
  else none

/-- Reads a byte in a field without quotes, or what follows the field. -/
def unquoted? (s : Strict) (b : UInt8) : Option Strict :=
  if isSpecial b then s.delimit? b else some (s.keep .plain b)

/-- Reads a byte. -/
def step? (s : Strict) (b : UInt8) : Option Strict :=
  match s.spot with
  | .line | .start => if b = quote then some { s with spot := .quoted } else s.unquoted? b
  | .plain => s.unquoted? b
  | .quoted => some (if b = quote then { s with spot := .closed } else s.keep .quoted b)
  | .closed => if b = quote then some (s.keep .quoted b) else s.delimit? b
  | .returned => if b = lineFeed then some s.endRecord else none

/-- All records, if nothing more is to come. -/
def finish? (s : Strict) : Option (List (List (List UInt8))) :=
  match s.spot with
  | .line => some s.records.reverse
  | .start | .plain | .closed => some s.endRecord.records.reverse
  | .quoted | .returned => none

end Strict

/-- The records of strictly separated values. -/
def strictRecords? (bs : List UInt8) : Option (List (List (List UInt8))) := do
  let records ← (← bs.foldlM Strict.step? {}).finish?
  let width := (records.headD []).length
  if records.all fun fields => fields.length = width then some records else none

end Rendezvous.Csv
