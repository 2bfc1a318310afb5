import Rendezvous.Json.Quoted

/-!
# Texts in TOML, written

Between double quotes a text is written as in JSON, and the delete character is escaped too.
-/

namespace Rendezvous.Toml

/-- One character inside quotes. -/
def quoteChar (c : Char) : List Char :=
  if c.toNat = 0x7F then Json.escapeCode 0x7F else Json.quoteChar c

/-- A text in quotes. -/
def quoted (s : String) : List Char := '"' :: (s.toList.flatMap quoteChar ++ ['"'])

end Rendezvous.Toml
