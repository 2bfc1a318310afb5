import Rendezvous.Toml.Value

/-!
# Tables under construction

A document builds its tables statement by statement, and a table can be built in several places.
How it came about decides what may still be added to it:

* a table that a header only passes through can get a header of its own later;
* a table with a header of its own cannot get a second one;
* a table that the points in a key made can be filled by further such keys, and by nothing else;
* a value is finished.
-/

namespace Rendezvous.Toml

/-- How a table came about. -/
inductive Made
  /-- A header passes through it. -/
  | passing
  /-- It has a header. -/
  | headed
  /-- By the points in a key. -/
  | dotted
deriving DecidableEq, Repr

/-- What a name stands for in a document that is being read. -/
inductive Item
  | value (v : Value)
  | table (made : Made) (members : List (String × Item))
  /-- A list of tables with headers, latest first; all but the latest are finished. -/
  | tables (finished : List Value) (members : List (String × Item))
deriving Inhabited

/-- Named items, in the order in which they were named. -/
abbrev Members := List (String × Item)

namespace Members

/-- The item of a name. -/
def find? (ms : Members) (name : String) : Option Item :=
  match ms with
  | [] => none
  | (n, item) :: ms => if n = name then some item else find? ms name

/-- Puts an item under a name, in the place of an older one or last. -/
def put (ms : Members) (name : String) (item : Item) : Members :=
  match ms with
  | [] => [(name, item)]
  | (n, old) :: rest => if n = name then (name, item) :: rest else (n, old) :: put rest name item

end Members

mutual

/-- The value of an item. -/
def Item.finish : Item → Value
  | .value v => v
  | .table _ members => .table (finishAll members)
  | .tables finished members => .list ((.table (finishAll members) :: finished).reverse)

/-- The values of named items. -/
def finishAll : List (String × Item) → List (String × Value)
  | [] => []
  | (name, item) :: ms => (name, item.finish) :: finishAll ms

end

/-- Changes the members of the table that a header leads to, and makes the tables that are missing
on the way.  In a list of tables the way goes on in the latest of them. -/
def within (change : Members → Option Members) : List String → Members → Option Members
  | [], ms => change ms
  | name :: path, ms =>
      match ms.find? name with
      | none => (within change path []).map fun inner => ms.put name (.table .passing inner)
      | some (.table made inner) =>
          (within change path inner).map fun inner => ms.put name (.table made inner)
      | some (.tables finished inner) =>
          (within change path inner).map fun inner => ms.put name (.tables finished inner)
      | some (.value _) => none

/-- Opens the table under a header. -/
def openTable (path : List String) (ms : Members) : Option Members :=
  match path.getLast? with
  | none => none
  | some name =>
      within (fun ms =>
        match ms.find? name with
        | none => some (ms.put name (.table .headed []))
        | some (.table .passing inner) => some (ms.put name (.table .headed inner))
        | some _ => none) path.dropLast ms

/-- Opens one more table in the list under a header. -/
def openListed (path : List String) (ms : Members) : Option Members :=
  match path.getLast? with
  | none => none
  | some name =>
      within (fun ms =>
        match ms.find? name with
        | none => some (ms.put name (.tables [] []))
        | some (.tables finished inner) =>
            some (ms.put name (.tables (.table (finishAll inner) :: finished) []))
        | some _ => none) path.dropLast ms

/-- Puts a value under a name that is not taken. -/
def define (name : String) (v : Value) (ms : Members) : Option Members :=
  match ms.find? name with
  | none => some (ms.put name (.value v))
  | some _ => none

/-- Puts a value under a name in a table that the points in a key made. -/
def defineIn (name : String) (v : Value) : List String → Members → Option Members
  | [], ms => define name v ms
  | last :: [], ms =>
      match ms.find? last with
      | none => some (ms.put last (.table .dotted [(name, .value v)]))
      | some (.table .dotted inner) =>
          (define name v inner).map fun inner => ms.put last (.table .dotted inner)
      | some _ => none
  | next :: path, ms =>
      match ms.find? next with
      | none => (defineIn name v path []).map fun inner => ms.put next (.table .dotted inner)
      | some (.table .headed _) | some (.value _) => none
      | some (.table made inner) =>
          (defineIn name v path inner).map fun inner => ms.put next (.table made inner)
      | some (.tables finished inner) =>
          (defineIn name v path inner).map fun inner => ms.put next (.tables finished inner)

/-- Puts a value under a key, whose points make tables. -/
def assign (key : List String) (v : Value) (ms : Members) : Option Members :=
  match key.getLast? with
  | none => none
  | some name => defineIn name v key.dropLast ms

end Rendezvous.Toml
