import Rendezvous.Binary64.Text
import Rendezvous.Text.Quoted

/-!
# Trees of settings

Every source of settings is a tree of named values.  A tree is laid over another value by value:
tables are merged, everything else takes the place of what was there.  Each value remembers where it
was given; a table that was merged comes from nowhere in particular, and neither does a list that
was made to hold an item.
-/

namespace Rendezvous.Settings

/-- Where a value was given. -/
inductive Origin
  | file (path : String)
  | environment
deriving DecidableEq, Repr

/-- The origin in a line of text. -/
def Origin.text : Origin → String
  | .file path => path
  | .environment => "the environment"

/-- A single value. -/
inductive Scalar
  | boolean (b : Bool)
  | whole (n : Int)
  | real (x : Binary64)
  | text (s : String)
deriving DecidableEq, Repr

/-- A value, a list or a table of named values, or the gap before an item of a list. -/
inductive Tree
  | nothing
  | scalar (origin : Origin) (s : Scalar)
  | list (origin? : Option Origin) (items : List Tree)
  | table (origin? : Option Origin) (members : List (String × Tree))
deriving Inhabited

/-- Named values. -/
abbrev Members := List (String × Tree)

namespace Members

/-- The value of a name. -/
def find? (ms : Members) (name : String) : Option Tree :=
  match ms with
  | [] => none
  | (n, t) :: ms => if n = name then some t else find? ms name

/-- Puts a value under a name, in the place of an older one or last. -/
def put (ms : Members) (name : String) (t : Tree) : Members :=
  match ms with
  | [] => [(name, t)]
  | (n, old) :: rest => if n = name then (name, t) :: rest else (n, old) :: put rest name t

end Members

/-- The members of a table; anything else has none. -/
def Tree.membersOf : Option Tree → Members
  | some (.table _ members) => members
  | _ => []

mutual

/-- A value laid over an older one. -/
def Tree.over : Tree → Option Tree → Tree
  | .table _ members, old? => .table none (overAll members (Tree.membersOf old?))
  | t, _ => t

/-- Named values laid over older ones. -/
def overAll : List (String × Tree) → Members → Members
  | [], old => old
  | (name, t) :: members, old => overAll members (old.put name (t.over (old.find? name)))

end

/-! ### Paths -/

/-- A step of a path. -/
inductive Step
  /-- To the value of a name in a table. -/
  | member (name : String)
  /-- To an item of a list; a negative place counts from the end. -/
  | item (place : Int)
deriving DecidableEq, Repr

/-- The items of a list; anything else has none. -/
def Tree.itemsOf : Option Tree → List Tree
  | some (.list _ items) => items
  | _ => []

/-- Where a list was given. -/
def Tree.listOrigin? : Option Tree → Option Origin
  | some (.list origin? _) => origin?
  | _ => none

/-- Where a table was given. -/
def Tree.tableOrigin? : Option Tree → Option Origin
  | some (.table origin? _) => origin?
  | _ => none

/-- The index of a place in a list of `length` items. -/
def index (length : Nat) (place : Int) : Nat :=
  (if place < 0 then length + place else place).toNat

/-- A list with `t` at an index, and gaps up to it if it was shorter. -/
def putItem (items : List Tree) (i : Nat) (t : Tree) : List Tree :=
  (items ++ List.replicate (i + 1 - items.length) Tree.nothing).set i t

/-- Lays a value over the one that a path leads to; tables and lists that are missing on the way are
made.  An item of a list is replaced and not merged. -/
def Tree.overAt (t : Tree) : List Step → Option Tree → Tree
  | [], old? => t.over old?
  | .member name :: path, old? =>
      let ms := membersOf old?
      .table (tableOrigin? old?) (ms.put name (t.overAt path (ms.find? name)))
  | .item place :: path, old? =>
      let items := itemsOf old?
      let i := index items.length place
      .list (listOrigin? old?)
        (putItem items i (if path.isEmpty then t else t.overAt path items[i]?))

/-- Lays a value over the one that a path leads to from a table. -/
def overAt (t : Tree) (path : List Step) (ms : Members) : Members :=
  Tree.membersOf (t.overAt path (some (.table none ms)))

end Rendezvous.Settings
