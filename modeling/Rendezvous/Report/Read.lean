import Rendezvous.Json.Read
import Rendezvous.Report.Writer

/-!
# Reading a report back

A report in comma-separated values is empty or has a record with the names of the columns before its
rows; a report in JSON has one record a line, and every line is ended.  Contents are taken as they
are.  Whatever else there is makes the report unreadable.
-/

namespace Rendezvous.Report

/-- The row with these contents. -/
def Row.ofCells? : List String → Option Row
  | [key, status, detail] => some { key, status, detail }
  | _ => none

/-- The row with these members, in any order. -/
def Row.ofMembers? (ms : List (String × String)) : Option Row := do
  let cells ← columns.mapM fun name => List.lookup name ms
  if ms.length = columns.length then Row.ofCells? cells else none

/-- The text that the bytes are, if they are text. -/
def text? (bs : List UInt8) : Option String := (Text.decode bs).toOption.map String.ofList

/-- The contents of a record. -/
def cells? (r : Csv.Record) : Option (List String) := r.fields.mapM text?

/-- The rows of a report in comma-separated values. -/
def readCsv (bs : List UInt8) : Option (List Row) :=
  match (Csv.scan bs).finish with
  | [] => some []
  | header :: records =>
      if cells? header = some columns then
        records.mapM fun r => (cells? r).bind Row.ofCells?
      else none

/-- The lines of a text in which every line is ended. -/
def lines? (cs : List Char) : Option (List (List Char)) :=
  let parts := cs.splitOn '\n'
  if parts.getLast? = some [] then some parts.dropLast else none

/-- The rows of a report in JSON. -/
def readJson (bs : List UInt8) : Option (List Row) := do
  let cs ← (Text.decode bs).toOption
  let lines ← lines? cs
  lines.mapM fun line => (Json.textRecord? line).bind Row.ofMembers?

/-- The rows of a report. -/
def read : Format → List UInt8 → Option (List Row)
  | .csv => readCsv
  | .json => readJson

end Rendezvous.Report
