import Rendezvous.Settings.Tree
import Rendezvous.Text.Small
import Rendezvous.Toml.Document

/-!
# Where settings come from

A file is a TOML document.  Its names are taken in small letters.  A name at the top is a path: its
points lead into tables, and places in brackets lead into lists.

A variable of the environment names a setting by `CP_ADAPTER_` and the name of the setting in
letters of any size; two underscores lead into a table.  Its text is read as a boolean, a number or
a text, whichever comes first.
-/

namespace Rendezvous.Settings

/-! ### Paths -/

/-- Whether a character can stand in a part of a path. -/
def isPathChar (c : Char) : Bool := c.isAlphanum || c = '_' || c = '-' || c = ' '

/-- Whether a character can stand between a bracket and a number. -/
def isGap (c : Char) : Bool := c = ' ' || c = '\t'

/-- The step to an item that is written behind an opening bracket. -/
def item? (cs : List Char) : Option Step := do
  let cs := cs.dropWhile isGap
  let unsigned := if cs.head? = some '-' then cs.tail else cs
  let digits := unsigned.takeWhile Char.isDigit
  guard (!digits.isEmpty && (unsigned.dropWhile Char.isDigit).dropWhile isGap = [']'])
  let n : Int := Binary64.digitsValue digits
  let place := if cs.head? = some '-' then -n else n
  guard (-Int.pow 2 63 ≤ place && place < Int.pow 2 63)
  return .item place

/-- The steps that a part of a path makes: to the value of a name, and then to items. -/
def steps? (part : List Char) : Option (List Step) :=
  match (part.dropWhile isPathChar).splitOn '[' with
  | [] :: places => do
      let name := part.takeWhile isPathChar
      guard !name.isEmpty
      return .member (String.ofList name) :: (← places.mapM item?)
  | _ => none

/-- The path that a name stands for.  A name that is not written as a path is a single step. -/
def path (name : String) : List Step :=
  match (name.toList.splitOn '.').mapM steps? with
  | some steps => steps.flatten
  | none => [.member name]

/-! ### Files -/

mutual

/-- A value from a file, with names in small letters. -/
def ofToml (origin : Origin) : Toml.Value → Tree
  | .text s => .scalar origin (.text s)
  | .whole n => .scalar origin (.whole n)
  | .real x => .scalar origin (.real x)
  | .boolean b => .scalar origin (.boolean b)
  | .moment s => .scalar origin (.text s)
  | .list items => .list (some origin) (listOfToml origin items)
  | .table members => .table (some origin) (membersOfToml origin members)

/-- The items of a list from a file. -/
def listOfToml (origin : Origin) : List Toml.Value → List Tree
  | [] => []
  | v :: vs => ofToml origin v :: listOfToml origin vs

/-- The members of a table from a file. -/
def membersOfToml (origin : Origin) : List (String × Toml.Value) → List (String × Tree)
  | [] => []
  | (name, v) :: ms => (Text.small name, ofToml origin v) :: membersOfToml origin ms

end

/-- Lays a document over settings. -/
def overDocument (origin : Origin) (document : List (String × Toml.Value)) (ms : Members) :
    Members :=
  (membersOfToml origin document).foldl (fun ms (name, t) => overAt t (path name) ms) ms

/-! ### The environment -/

/-- What the names of variables begin with, in small letters. -/
def variablePrefix : List Char := ['c', 'p', '_', 'a', 'd', 'a', 'p', 't', 'e', 'r', '_']

/-- A point in the place of every two underscores. -/
def pointed : List Char → List Char
  | '_' :: '_' :: cs => '.' :: pointed cs
  | c :: cs => c :: pointed cs
  | [] => []

/-- The path to the setting that a variable names, if it names one. -/
def variablePath? (name : String) : Option (List Step) :=
  let cs := (Text.small name).toList
  if variablePrefix.isPrefixOf cs then
    some (path (String.ofList (pointed (cs.drop variablePrefix.length))))
  else none

/-- A whole number of at most 64 bits with a sign. -/
def whole? (cs : List Char) : Option Int := do
  let n ← Binary64.exponent? cs
  if -Int.pow 2 63 ≤ n && n < Int.pow 2 63 then some n else none

/-- What the text of a variable stands for. -/
def Scalar.ofText (s : String) : Scalar :=
  if Text.small s = "true" then .boolean true
  else if Text.small s = "false" then .boolean false
  else match whole? s.toList, Binary64.read? s.toList with
    | some n, _ => .whole n
    | none, some x => .real x
    | none, none => .text s

/-- Lays a variable over settings. -/
def overVariable (ms : Members) (v : String × String) : Members :=
  match variablePath? v.1 with
  | some path => overAt (.scalar .environment (.ofText v.2)) path ms
  | none => ms

end Rendezvous.Settings
