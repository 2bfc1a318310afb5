import Rendezvous.Json.Value
import Rendezvous.Properties

/-!
# Forms

A form is a way to write the values of a type as JSON values and to read them back.  Forms are built
up: texts, numbers and properties are written as they are, a choice by the name of the variant, and
a record by the names of its fields.  A record can also be read from a list, in the order of its
fields.

Members of a record are read in the order in which they are listed, members of unknown names are
passed over, a second member for a field is refused, and only then missing fields are noticed, in
the order of the fields.  Of two properties with one name the later one stands.
-/

namespace Rendezvous.Json

/-- A way to write the values of a type and to read them back. -/
structure Form (α : Type) where
  write : α → Value
  read : Value → Except Mismatch α

namespace Form

/-- Whatever is written can be read back. -/
def RoundTrips {α : Type} (f : Form α) : Prop := ∀ a, f.read (f.write a) = .ok a

/-- Texts. -/
def text : Form String where
  write := .text
  read
    | .text s => .ok s
    | v => .error (.kind v.describe "a string")

theorem roundTrips_text : text.RoundTrips := fun _ => rfl

/-- Another type whose values are written like those of `f`. -/
def through {α β : Type} (f : Form α) (wrap : α → β) (unwrap : β → α) : Form β where
  write b := f.write (unwrap b)
  read v := (f.read v).map wrap

/-- Booleans. -/
def boolean : Form Bool where
  write := .boolean
  read
    | .boolean b => .ok b
    | v => .error (.kind v.describe "a boolean")

/-- Whole numbers from zero on. -/
def natural : Form Nat where
  write n := .number (.ofInt n)
  read
    | .number (.whole (.ofNat n)) => .ok n
    | .number (.whole (.negSucc n)) =>
        .error (.value (Value.number (.whole (.negSucc n))).describe "u64")
    | v => .error (.kind v.describe "u64")

/-- Reads the texts of a record into properties. -/
def readProperties (members : List (String × Value)) : Except Mismatch Properties :=
  members.foldlM (fun p m => (text.read m.2).map (p.insert m.1)) .empty

/-- Properties, as a record of texts. -/
def properties : Form Properties where
  write p := .record (p.entries.map fun e => (e.1, .text e.2))
  read
    | .record members => readProperties members
    | v => .error (.kind v.describe "a map")

/-! ### Choices -/

/-- One of the ways in which a value can be given: by a name alone, or by a name and a text. -/
inductive Variant (α : Type)
  | plain (a : α)
  | ofText (make : String → α)

namespace Variant

/-- The value of a variant, given its content. -/
def read {α : Type} : Variant α → Option Value → Except Mismatch α
  | .plain a, none | .plain a, some .null => .ok a
  | .plain _, some v => .error (.kind v.describe "unit")
  | .ofText make, some v => (text.read v).map make
  | .ofText _, none => .error (.kind "unit variant" "newtype variant")

end Variant

/-- Reads the content of the variant with the given name. -/
def select {α : Type} (variants : List (String × Variant α)) (name : String)
    (content? : Option Value) : Except Mismatch α :=
  match variants.find? fun p => p.1 = name with
  | some p => p.2.read content?
  | none => .error (.unknownVariant name (variants.map Prod.fst))

/-- A choice between variants: a name, or a record with one member. -/
def choice {α : Type} (variants : List (String × Variant α)) (pick : α → String × Option String) :
    Form α where
  write a :=
    match pick a with
    | (name, none) => .text name
    | (name, some content) => .record [(name, .text content)]
  read
    | .text name => select variants name none
    | .record [(name, content)] => select variants name (some content)
    | .record _ => .error (.value "map" "map with a single key")
    | v => .error (.kind v.describe "string or map")

/-! ### Records -/

/-- A field of a record. -/
structure Field where
  name : String
  Content : Type
  form : Form Content
  /-- What the field holds if it is not given. -/
  absent? : Option Content := none

/-- The contents of all fields. -/
def Row : List Field → Type
  | [] => Unit
  | f :: fs => f.Content × Row fs

/-- The contents of the fields that are known so far. -/
def Draft : List Field → Type
  | [] => Unit
  | f :: fs => Option f.Content × Draft fs

namespace Draft

/-- Nothing is known. -/
def empty : (fs : List Field) → Draft fs
  | [] => ()
  | _ :: fs => (none, empty fs)

/-- Reads a member into the field of its name, unless that field is known already. -/
def enter : (fs : List Field) → Draft fs → String × Value → Except Mismatch (Draft fs)
  | [], d, _ => .ok d
  | f :: fs, (content?, d), (name, v) =>
      if name = f.name then
        match content? with
        | some _ => .error (.duplicateField name)
        | none => (f.form.read v).map fun content => (some content, d)
      else (enter fs d (name, v)).map fun d => (content?, d)

/-- The contents of all fields, if none is missing. -/
def complete : (fs : List Field) → Draft fs → Except Mismatch (Row fs)
  | [], _ => .ok ()
  | f :: fs, (content?, d) =>
      match content? <|> f.absent? with
      | some content => (complete fs d).map fun row => (content, row)
      | none => .error (.missingField f.name)

end Draft

namespace Row

/-- The contents under the names of the fields. -/
def toMembers : (fs : List Field) → Row fs → List (String × Value)
  | [], _ => []
  | f :: fs, (content, row) => (f.name, f.form.write content) :: toMembers fs row

/-- Reads items into the fields one after the other, the first of them into field `n`. -/
def ofItems (expected : String) :
    (fs : List Field) → Nat → List Value → Except Mismatch (Row fs × List Value)
  | [], _, items => .ok ((), items)
  | f :: fs, n, item :: items => do
      let content ← f.form.read item
      let (row, rest) ← ofItems expected fs (n + 1) items
      return ((content, row), rest)
  | f :: fs, n, [] =>
      match f.absent? with
      | some content =>
          (ofItems expected fs (n + 1) []).map fun (row, rest) => ((content, row), rest)
      | none => .error (.length n expected)

end Row

/-- How many elements a list has, in words. -/
def elements (n : Nat) : String :=
  toString n ++ if n = 1 then " element" else " elements"

/-- A record with the name `name`. -/
def record {α : Type} (name : String) (fields : List Field) (ofRow : Row fields → α)
    (toRow : α → Row fields) : Form α where
  write a := .record ((toRow a).toMembers fields)
  read
    | .record members => do
        let draft ← members.foldlM (Draft.enter fields) (Draft.empty fields)
        return ofRow (← draft.complete fields)
    | .list items => do
        let expected := "struct " ++ name ++ " with " ++ elements fields.length
        let (row, rest) ← Row.ofItems expected fields 0 items
        if rest.isEmpty then return ofRow row
        else .error (.length items.length "fewer elements in array")
    | v => .error (.kind v.describe ("struct " ++ name))

end Form

end Rendezvous.Json
