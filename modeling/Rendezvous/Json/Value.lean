import Rendezvous.Binary64.Text
import Rendezvous.Text.Quoted

/-!
# JSON values

A value is null, a boolean, a number, a text, a list or a record of named members.  Numbers of at
most 64 bits are whole; all others are floating point numbers.
-/

namespace Rendezvous.Json

/-- A number. -/
inductive Number
  | whole (n : Int)
  | real (x : Binary64)
deriving DecidableEq, Repr

namespace Number

/-- The whole numbers that are kept as such. -/
def isWhole (n : Int) : Bool := -Int.pow 2 63 ≤ n && n < Int.pow 2 64

/-- A whole number, as far as it is kept as one. -/
def ofInt (n : Int) : Number :=
  if isWhole n then .whole n else .real (.ofDecimal (n < 0) n.natAbs 0)

end Number

/-- A JSON value. -/
inductive Value
  | null
  | boolean (b : Bool)
  | number (n : Number)
  | text (s : String)
  | list (items : List Value)
  | record (members : List (String × Value))
deriving Inhabited

namespace Value

/-- What kind of value it is; simple values are given in full. -/
def describe : Value → String
  | .null => "null"
  | .boolean b => "boolean `" ++ toString b ++ "`"
  | .number (.whole n) => "integer `" ++ toString n ++ "`"
  | .number (.real x) => "floating point `" ++ x.compact ++ "`"
  | .text s => "string " ++ Text.quoted s
  | .list _ => "sequence"
  | .record _ => "map"

end Value

/-- Why a value does not have the form that was asked for. -/
inductive Mismatch
  /-- Another kind of value. -/
  | kind (found expected : String)
  /-- The right kind of value, but not an admitted one. -/
  | value (found expected : String)
  | unknownVariant (name : String) (known : List String)
  | missingField (name : String)
  /-- A field of a record given by two members. -/
  | duplicateField (name : String)
  /-- A list too short or too long. -/
  | length (found : Nat) (expected : String)
deriving DecidableEq, Repr

namespace Mismatch

/-- A name as it stands in a line of text. -/
def cited (name : String) : String := "`" ++ name ++ "`"

/-- The admitted names as they stand in a line of text. -/
def choices : List String → String
  | [a] => cited a
  | [a, b] => cited a ++ " or " ++ cited b
  | names => "one of " ++ ", ".intercalate (names.map cited)

/-- The mismatch as a line of text. -/
def message : Mismatch → String
  | .kind found expected => "invalid type: " ++ found ++ ", expected " ++ expected
  | .value found expected => "invalid value: " ++ found ++ ", expected " ++ expected
  | .unknownVariant name known => "unknown variant " ++ cited name ++ ", expected " ++ choices known
  | .missingField name => "missing field " ++ cited name
  | .duplicateField name => "duplicate field " ++ cited name
  | .length found expected => "invalid length " ++ toString found ++ ", expected " ++ expected

/-- The mismatch as it is reported to whoever gave the value. -/
def report (m : Mismatch) : String := "JSON error: " ++ m.message

end Mismatch

end Rendezvous.Json
