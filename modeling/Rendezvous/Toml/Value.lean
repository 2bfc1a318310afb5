import Rendezvous.Binary64

/-!
# TOML values

A TOML document is a table: named values, some of which are tables themselves.
-/

namespace Rendezvous.Toml

/-- A value in a document. -/
inductive Value
  | text (s : String)
  | whole (n : Int)
  | real (x : Binary64)
  | boolean (b : Bool)
  /-- A date, a time of day or both, as it is written. -/
  | moment (s : String)
  | list (items : List Value)
  | table (members : List (String × Value))
deriving Inhabited

end Rendezvous.Toml
