import Rendezvous.Settings.Basic
import Rendezvous.Settings.Tree
import Rendezvous.Text.Small

/-!
# From trees to settings

Numbers, booleans and texts stand in for each other as far as that makes sense: `"yes"` for true,
`1.6` for 2, `5` for `"5"`.  What does not make sense is reported with the name of the setting and
where it was given.
-/

namespace Rendezvous.Settings

/-- Why a tree is not one of settings. -/
inductive Misfit
  /-- A value of another kind under a name. -/
  | kind (found expected name : String) (origin? : Option Origin)
  /-- Something else in the place of a table. -/
  | notTable (found expected : String)
deriving DecidableEq, Repr

/-- The misfit as a line of text. -/
def Misfit.message : Misfit → String
  | .kind found expected name origin? =>
      "invalid type: " ++ found ++ ", expected " ++ expected ++ " for key `" ++ name ++ "`"
        ++ match origin? with
          | some origin => " in " ++ origin.text
          | none => ""
  | .notTable found expected => "invalid type: " ++ found ++ ", expected " ++ expected

/-! ### Single values -/

/-- What kind of value it is, with the size of numbers. -/
def Scalar.describe : Scalar → String
  | .boolean b => "boolean `" ++ toString b ++ "`"
  | .whole n => "64-bit integer `" ++ toString n ++ "`"
  | .real x => "floating point `" ++ x.plain ++ "`"
  | .text s => "string " ++ Text.quoted s

/-- What kind of value stands in the place of a table. -/
def Scalar.describeInPlace : Scalar → String
  | .whole n => "integer `" ++ toString n ++ "`"
  | .real x => "floating point `" ++ x.pointed ++ "`"
  | s => s.describe

/-- The largest number that a setting can have. -/
def largest : Nat := Nat.pow 2 64 - 1

/-- The number that a text of digits stands for, with or without a plus sign. -/
def natural? (cs : List Char) : Option Nat :=
  let ds := match cs with
    | '+' :: ds => ds
    | ds => ds
  if ds.isEmpty || !ds.all Char.isDigit then none
  else
    let n := Binary64.digitsValue ds
    if n ≤ largest then some n else none

/-- The words for true and the words for false, in small letters. -/
def yes : List String := ["true", "on", "yes"]

def no : List String := ["false", "off", "no"]

/-- A value as a number, or what it is and what it should be. -/
def Scalar.toNatural : Scalar → Except (String × String) Nat
  | .boolean b => .ok b.toNat
  | .whole (.ofNat n) => .ok n
  | .whole n => .error ((Scalar.whole n).describe, "an unsigned 64 bit or less integer")
  | .real x => .ok (x.clampRound largest)
  | .text s =>
      if yes.contains (Text.small s) then .ok 1
      else if no.contains (Text.small s) then .ok 0
      else match natural? s.toList with
        | some n => .ok n
        | none => .error ((Scalar.text s).describe, "an integer")

/-- A value as a boolean, or what it is and what it should be. -/
def Scalar.toBoolean : Scalar → Except (String × String) Bool
  | .boolean b => .ok b
  | .whole n => .ok (n ≠ 0)
  | .real x => .ok !x.isZero
  | .text s =>
      let s := Text.small s
      if s = "1" || yes.contains s then .ok true
      else if s = "0" || no.contains s then .ok false
      else .error ((Scalar.text s).describe, "a boolean")

/-- A value as a text. -/
def Scalar.toText : Scalar → String
  | .boolean b => toString b
  | .whole n => toString n
  | .real x => x.plain
  | .text s => s

/-! ### Values of a tree -/

/-- The value under a name, converted by `convert`; `expected` tells what it is for. -/
def Tree.scalar? {α : Type} (expected : String) (convert : Scalar → Except (String × String) α)
    (name : String) : Tree → Except Misfit α
  | .scalar origin s =>
      (convert s).mapError fun (found, expected) => .kind found expected name (some origin)
  | .nothing => .error (.kind "unit value" expected name none)
  | .list origin? _ => .error (.kind "sequence" expected name origin?)
  | .table origin? _ => .error (.kind "map" expected name origin?)

/-- A number. -/
def Tree.natural : String → Tree → Except Misfit Nat :=
  Tree.scalar? "an integer" Scalar.toNatural

/-- A boolean. -/
def Tree.boolean : String → Tree → Except Misfit Bool :=
  Tree.scalar? "a boolean" Scalar.toBoolean

/-- A text. -/
def Tree.text : String → Tree → Except Misfit String :=
  Tree.scalar? "a string" fun s => .ok s.toText

/-- What is read from a value that may be missing. -/
def orDefault {α : Type} (default : α) (read : Tree → Except Misfit α) :
    Option Tree → Except Misfit α
  | none => .ok default
  | some t => read t

/-- The settings for transfers.  A list gives them in order. -/
def readTransfer (t : Tree) : Except Misfit TransferSettings :=
  let d : TransferSettings := {}
  match t with
  | .nothing => .error (.notTable "unit value" "struct TransferConfig")
  | .scalar _ s => .error (.notTable s.describeInPlace "struct TransferConfig")
  | .list _ items => do
      let kind ← orDefault d.destinationType (Tree.text "transfer[0]") items[0]?
      return { destinationType := kind }
  | .table _ ms => do
      let kind ← orDefault d.destinationType (Tree.text "transfer.destination_type")
        (Members.find? ms "destination_type")
      return { destinationType := kind }

/-- The settings for logging.  A list gives them in order. -/
def readLogging (t : Tree) : Except Misfit LoggingSettings :=
  let d : LoggingSettings := {}
  match t with
  | .nothing => .error (.notTable "unit value" "struct LoggingConfig")
  | .scalar _ s => .error (.notTable s.describeInPlace "struct LoggingConfig")
  | .list _ items => do
      let filter ← orDefault d.filter (Tree.text "logging[0]") items[0]?
      let json ← orDefault d.json (Tree.boolean "logging[1]") items[1]?
      return { filter, json }
  | .table _ ms => do
      let filter ← orDefault d.filter (Tree.text "logging.filter") (Members.find? ms "filter")
      let json ← orDefault d.json (Tree.boolean "logging.json") (Members.find? ms "json")
      return { filter, json }

/-- The settings in a table.  Names that are no settings do not matter. -/
def ofMembers (ms : Members) : Except Misfit Settings := do
  let d : Settings := {}
  let number (name : String) (default : Nat) : Except Misfit Nat :=
    orDefault default (Tree.natural name) (ms.find? name)
  let caseTtlSecs ← number "case_ttl_secs" d.caseTtlSecs
  let sweepIntervalMs ← number "sweep_interval_ms" d.sweepIntervalMs
  let resultTtlSecs ← number "result_ttl_secs" d.resultTtlSecs
  let offerCacheTtlSecs ← number "offer_cache_ttl_secs" d.offerCacheTtlSecs
  let parkedEventTtlSecs ← number "parked_event_ttl_secs" d.parkedEventTtlSecs
  let transfer ← orDefault d.transfer readTransfer (ms.find? "transfer")
  let logging ← orDefault d.logging readLogging (ms.find? "logging")
  return { caseTtlSecs, sweepIntervalMs, resultTtlSecs, offerCacheTtlSecs, parkedEventTtlSecs,
           transfer, logging }

end Rendezvous.Settings
