import Rendezvous.Csv.Print
import Rendezvous.Json.Quoted
import Rendezvous.Report.Row
import Rendezvous.Report.Sink

/-!
# Writing a report

A report is written as comma-separated values under the names of the columns, or as one JSON record
a line.  Comma-separated values go through a buffer, so a full sink may be noticed only when the
buffer is emptied; JSON goes to the sink at once.
-/

namespace Rendezvous.Report

/-- How a report is written. -/
inductive Format
  | csv
  | json
deriving DecidableEq, Repr

/-- Where a full sink was noticed. -/
inductive WriteError
  /-- While a row of comma-separated values was written. -/
  | csv
  /-- Inside a JSON record. -/
  | json
  /-- Between rows or at the end. -/
  | io
deriving DecidableEq, Repr

/-- What a full sink says. -/
def fullSink : String := "sink full"

/-- The error as a line of text. -/
def WriteError.message : WriteError → String
  | .csv => "CSV error: " ++ fullSink
  | .json => "JSON error: " ++ fullSink
  | .io => "IO error: " ++ fullSink

/-- How many bytes the buffer holds. -/
def bufferSize : Nat := 8192

/-- A report that is being written. -/
structure Writer where
  format : Format
  sink : Sink := {}
  /-- The bytes that wait for the sink. -/
  buffer : Array UInt8 := #[]
  /-- Whether the names of the columns have been written. -/
  headed : Bool := false

namespace Writer

/-- Hands the buffer to the sink; tells whether there was room. -/
def empty (w : Writer) : Bool × Writer :=
  let (fits, sink) := w.sink.put w.buffer.toList
  (fits, { w with sink, buffer := #[] })

/-- Puts pieces into the buffer and empties it before a piece that does not fit. -/
def store : List Csv.Piece → Writer → Bool × Writer
  | [], w => (true, w)
  | piece :: pieces, w =>
      if w.buffer.size + piece.length ≤ bufferSize then
        store pieces { w with buffer := w.buffer ++ piece }
      else
        match w.empty with
        | (true, w) => store pieces { w with buffer := w.buffer ++ piece }
        | (false, w) => (false, w)

/-- The pieces of a row; the first row follows the names of the columns. -/
def rowPieces (w : Writer) (r : Row) : List Csv.Piece :=
  (if w.headed then [] else Csv.recordPieces columns) ++ Csv.recordPieces r.cells

/-- A row as a JSON record. -/
def jsonRow (r : Row) : List UInt8 :=
  Text.encode (Json.textRecord (columns.zip r.cells))

/-- Writes one row. -/
def write (w : Writer) (r : Row) : Option WriteError × Writer :=
  match w.format with
  | .csv =>
      let (fits, w) := store (w.rowPieces r) w
      (if fits then none else some .csv, { w with headed := true })
  | .json =>
      match w.sink.put (jsonRow r) with
      | (false, sink) => (some .json, { w with sink })
      | (true, sink) =>
          let (fits, sink) := sink.put [Csv.lineFeed]
          (if fits then none else some .io, { w with sink })

/-- Hands everything to the sink. -/
def flush (w : Writer) : Option WriteError × Writer :=
  let (fits, w) := w.empty
  (if fits then none else some .io, w)

/-- Writes rows until one fails, and flushes if none does; what each step came to. -/
def writeAll : List Row → Writer → List (Option WriteError) × Writer
  | [], w =>
      let (e?, w) := w.flush
      ([e?], w)
  | r :: rows, w =>
      match w.write r with
      | (some e, w) => ([some e], w)
      | (none, w) =>
          let (steps, w) := writeAll rows w
          (none :: steps, w)

/-- What has been written, as text; a character that was cut is shown as a replacement character. -/
def output (w : Writer) : String := String.ofList (Text.decodeLossy w.sink.taken.toList)

end Writer

end Rendezvous.Report
