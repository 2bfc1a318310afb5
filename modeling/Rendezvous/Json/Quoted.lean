import Rendezvous.Text.Quoted

/-!
# Texts in JSON

A text stands in double quotes.  Quote, backslash and the control characters below the space are
escaped, five of them by a letter; every other character stands for itself.
-/

namespace Rendezvous.Json

/-- A control character by its code point. -/
def escapeCode (n : Nat) : List Char :=
  let ds := Text.hex n
  ['\\', 'u'] ++ List.replicate (4 - ds.length) '0' ++ ds

/-- One character inside quotes. -/
def quoteChar (c : Char) : List Char :=
  if c = '"' then ['\\', '"']
  else if c = '\\' then ['\\', '\\']
  else if c = '\n' then ['\\', 'n']
  else if c = '\r' then ['\\', 'r']
  else if c = '\t' then ['\\', 't']
  else if c.toNat = 0x08 then ['\\', 'b']
  else if c.toNat = 0x0C then ['\\', 'f']
  else if c.toNat < 0x20 then escapeCode c.toNat
  else [c]

/-- A text in quotes. -/
def quoted (s : String) : List Char := '"' :: (s.toList.flatMap quoteChar ++ ['"'])

/-- A record of texts, without blanks. -/
def textRecord (members : List (String × String)) : List Char :=
  let member (m : String × String) : List Char := quoted m.1 ++ ':' :: quoted m.2
  ['\x7b'] ++ [','].intercalate (members.map member) ++ ['\x7d']

end Rendezvous.Json
