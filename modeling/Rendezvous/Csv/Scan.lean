/-!
# Records of comma-separated values

The scanner splits bytes into records and records into fields, one byte at a time.

* A record ends with a line feed or a carriage return; further ones before the next record are
  passed over.
* A field that begins with a quote ends with the next single quote; a doubled quote stands for one.
  Whatever follows the closing quote belongs to the field as it is.  A quote further inside a field
  is not special.
* A byte order mark at the very beginning is passed over.

Every record knows its place: its number, the line and the byte at which the scanner stood when the
record before it ended.
-/

namespace Rendezvous.Csv

/-- Where a record begins. -/
structure Place where
  /-- How many records come before it. -/
  record : Nat := 0
  /-- The number of its line, from one on. -/
  line : Nat := 1
  /-- How many bytes come before it. -/
  byte : Nat := 0
deriving DecidableEq, Repr

/-- A record as it was read. -/
structure Record where
  place : Place
  fields : List (List UInt8)
deriving DecidableEq, Repr

/-- Where the scanner is. -/
inductive Mode
  /-- Between two records. -/
  | between
  /-- At the beginning of a field. -/
  | start
  /-- In a field, where quotes are not special. -/
  | plain
  /-- Between quotes. -/
  | quoted
  /-- After a quote between quotes: the closing one, or the first of two. -/
  | quoteSeen
deriving DecidableEq, Repr

/-- A quote. -/
def quote : UInt8 := 0x22

/-- What stands between two fields. -/
def comma : UInt8 := 0x2C

def lineFeed : UInt8 := 0x0A

def carriageReturn : UInt8 := 0x0D

/-- Whether a byte ends a record. -/
def isTerminator (b : UInt8) : Bool := b = lineFeed || b = carriageReturn

/-- The state of the scanner. -/
structure Scan where
  mode : Mode := .between
  /-- Where the present record begins. -/
  place : Place := {}
  /-- The line and the byte that come next. -/
  line : Nat := 1
  byte : Nat := 0
  /-- The finished fields of the present record, latest first. -/
  fields : List (List UInt8) := []
  /-- The bytes of the present field, latest first. -/
  field : List UInt8 := []
  /-- The finished records, latest first. -/
  records : List Record := []

namespace Scan

/-- Keeps a byte for the present field. -/
def keep (s : Scan) (mode : Mode) (b : UInt8) : Scan := { s with mode, field := b :: s.field }

/-- Ends the present field. -/
def endField (s : Scan) (mode : Mode) : Scan :=
  { s with mode, fields := s.field.reverse :: s.fields, field := [] }

/-- The present record with its last field. -/
def present (s : Scan) : Record :=
  { place := s.place, fields := (s.field.reverse :: s.fields).reverse }

/-- Ends the present record. -/
def endRecord (s : Scan) : Scan :=
  { s with
    mode := .between
    place := { record := s.place.record + 1, line := s.line, byte := s.byte }
    fields := []
    field := []
    records := s.present :: s.records }

/-- What a byte does outside quotes. -/
def unquoted (s : Scan) (b : UInt8) : Scan :=
  if b = comma then s.endField .start
  else if isTerminator b then s.endRecord
  else s.keep .plain b

/-- What a byte does, once it has been counted. -/
def take (s : Scan) (b : UInt8) : Scan :=
  match s.mode with
  | .between =>
      if isTerminator b then s
      else if b = quote then { s with mode := .quoted }
      else s.unquoted b
  | .start => if b = quote then { s with mode := .quoted } else s.unquoted b
  | .plain => s.unquoted b
  | .quoted => if b = quote then { s with mode := .quoteSeen } else s.keep .quoted b
  | .quoteSeen => if b = quote then s.keep .quoted b else s.unquoted b

/-- Counts a byte. -/
def count (s : Scan) (b : UInt8) : Scan :=
  { s with byte := s.byte + 1, line := if b = lineFeed then s.line + 1 else s.line }

/-- Reads a byte. -/
def step (s : Scan) (b : UInt8) : Scan := (s.count b).take b

end Scan

/-- The scanner before the first byte, and the bytes that it is to read. -/
def afterMark : List UInt8 → Scan × List UInt8
  | 0xEF :: 0xBB :: 0xBF :: bs => ({ byte := 3 }, bs)
  | bs => ({}, bs)

/-- Reads bytes from the beginning. -/
def scan (bs : List UInt8) : Scan :=
  let (s, bs) := afterMark bs
  bs.foldl Scan.step s

/-- The records that have been ended. -/
def Scan.complete (s : Scan) : List Record := s.records.reverse

/-- All records, if nothing more is to come. -/
def Scan.finish (s : Scan) : List Record :=
  match s.mode with
  | .between => s.complete
  | _ => s.endRecord.complete

end Rendezvous.Csv
