import Rendezvous.Text.Shown

/-!
# Quoted text

Text inside a description of a value stands in double quotes.  Quote and backslash are escaped, so
are tab, line feed, carriage return and NUL; every other character that is not shown as it is
becomes its code point in braces.
-/

namespace Rendezvous.Text

/-- The digits of `n` in base sixteen, in lower case. -/
def hex (n : Nat) : List Char := Nat.toDigits 16 n

/-- One character inside quotes. -/
def quoteChar (c : Char) : List Char :=
  if c = '"' then ['\\', '"']
  else if c = '\\' then ['\\', '\\']
  else if c = '\t' then ['\\', 't']
  else if c = '\n' then ['\\', 'n']
  else if c = '\r' then ['\\', 'r']
  else if c = '\x00' then ['\\', '0']
  else if isShown c then [c]
  else ['\\', 'u', '\x7b'] ++ hex c.toNat ++ ['\x7d']

/-- A text in quotes. -/
def quoted (s : String) : String :=
  String.ofList ('"' :: (s.toList.flatMap quoteChar ++ ['"']))

/-- A value of a type with unnamed content. -/
def wrapped (name content : String) : String := name ++ "(" ++ content ++ ")"

/-- Pairs of a name and a description, with a colon between the two. -/
def pairs (fields : List (String × String)) : String :=
  ", ".intercalate (fields.map fun f => f.1 ++ ": " ++ f.2)

/-- A value of a type with named fields. -/
def record (name : String) (fields : List (String × String)) : String :=
  name ++ " \x7b " ++ pairs fields ++ " \x7d"

/-- A map. -/
def mapping (entries : List (String × String)) : String := "\x7b" ++ pairs entries ++ "\x7d"

end Rendezvous.Text
