import Rendezvous.Csv.Scan
import Rendezvous.Text.Utf8

/-!
# Writing comma-separated values

A field stands in quotes if it has a comma, a quote or an end of line in it; a quote inside is
doubled.  A record ends with a line feed.  Output is made of pieces, which are never torn apart by
whoever stores them: a doubled quote is one piece, every other byte is a piece of its own.
-/

namespace Rendezvous.Csv

/-- Bytes that stay together. -/
abbrev Piece := List UInt8

/-- Whether a byte has a meaning of its own between fields. -/
def isSpecial (b : UInt8) : Bool := b = comma || b = quote || isTerminator b

/-- A byte inside quotes. -/
def quotedByte (b : UInt8) : Piece := if b = quote then [quote, quote] else [b]

/-- A field. -/
def fieldPieces (field : List UInt8) : List Piece :=
  if field.any isSpecial then [quote] :: (field.map quotedByte ++ [[quote]])
  else field.map fun b => [b]

/-- A record; it has at least one field that is not empty, or several fields. -/
def recordPieces (fields : List String) : List Piece :=
  let field (s : String) : List Piece := fieldPieces (Text.encode s.toList)
  [[comma]].intercalate (fields.map field) ++ [[lineFeed]]

end Rendezvous.Csv
