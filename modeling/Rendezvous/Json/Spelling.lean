import Rendezvous.Json.Protocol

/-!
# The ways to spell a term

A term can be given by other values than the one it is written as: the members of a record come in
any order and among others, a field with a default may be left out, the contents of the fields may
be listed without their names, and a variant without a text may have null for its content.  A
spelling says which values stand for a term; of a record it says which members and items count, and
leaves each content to the form of its field.

A form is faithful to a spelling if it reads exactly the spellings of a term as that term and writes
every term as one of its spellings.
-/

namespace Rendezvous

namespace Json.Form

/-! ### Records -/

/-- The members with the name of the field. -/
def Field.named (f : Field) (members : List (String × Value)) : List (String × Value) :=
  members.filter fun m => m.1 = f.name

/-- Members give a field its content: by the only one of its name or, if there is none, by what the
field holds without. -/
def Field.GivenBy (f : Field) (members : List (String × Value)) (content : f.Content) : Prop :=
  match f.named members with
  | [] => f.absent? = some content
  | [m] => f.form.read m.2 = .ok content
  | _ :: _ :: _ => False

namespace Row

/-- Members give every field its content. -/
def GivenBy (members : List (String × Value)) : (fs : List Field) → Row fs → Prop
  | [], _ => True
  | f :: fs, (content, row) => f.GivenBy members content ∧ GivenBy members fs row

/-- Items are the contents of the fields in their order; only fields that may be left out lack one
at the end. -/
def ListedBy : List Value → (fs : List Field) → Row fs → Prop
  | items, [], _ => items = []
  | v :: items, f :: fs, (content, row) => f.form.read v = .ok content ∧ ListedBy items fs row
  | [], f :: fs, (content, row) => f.absent? = some content ∧ ListedBy [] fs row

/-- The values that stand for the contents of a record. -/
def SpelledBy (fs : List Field) (row : Row fs) : Value → Prop
  | .record members => row.GivenBy members fs
  | .list items => row.ListedBy items fs
  | _ => False

end Row

/-- The names of fields. -/
def names (fs : List Field) : List String := fs.map Field.name

/-- The members that are not passed over. -/
def known (fs : List Field) (members : List (String × Value)) : List (String × Value) :=
  members.filter fun m => m.1 ∈ names fs

/-! ### Choices -/

/-- The values that stand for a variant of the given name. -/
def Variant.SpelledBy {α : Type} (name : String) : Variant α → α → Value → Prop
  | .plain b, a, v => a = b ∧ (v = .text name ∨ v = .record [(name, .null)])
  | .ofText make, a, v => ∃ s, a = make s ∧ v = .record [(name, .text s)]

/-! ### Faithful forms -/

/-- A value read and written anew. -/
def renew {α : Type} (f : Form α) (v : Value) : Except Mismatch Value := (f.read v).map f.write

/-- The form reads exactly the spellings of a term as that term, and what it writes is read as it
was meant. -/
structure Faithful {α : Type} (f : Form α) (SpelledBy : α → Value → Prop) : Prop where
  /-- What is read as a term is what the term can be spelled by. -/
  read_iff : ∀ a v, f.read v = .ok a ↔ SpelledBy a v
  /-- Every term is read back from what it is written as. -/
  roundTrips : f.RoundTrips
  /-- A value that can be read means the same after it was renewed. -/
  read_renewed : ∀ v w, f.renew v = .ok w → f.read w = f.read v
  /-- To renew a value a second time changes nothing. -/
  renew_renewed : ∀ v w, f.renew v = .ok w → f.renew w = .ok w

/-- The form of a record with the given fields: faithful to the ways to spell it, of which it takes
the members in any order and among others, and the contents without their names. -/
structure FaithfulRecord {α : Type} (f : Form α) (fields : List Field) (toRow : α → Row fields) :
    Prop extends Faithful f fun a => (toRow a).SpelledBy fields where
  /-- Neither the order of the members nor members of other names matter. -/
  read_members : ∀ {ms ms'}, (known fields ms).Perm (known fields ms') →
    ∀ a, f.read (.record ms) = .ok a → f.read (.record ms') = .ok a
  /-- The contents as they are written are read without their names as well. -/
  read_items : ∀ a, f.read (.list (((toRow a).toMembers fields).map Prod.snd)) = .ok a

end Json.Form

open Json

/-- A record of texts stands for the properties that hold the last text of every name. -/
def Properties.SpelledBy (p : Properties) : Value → Prop
  | .record members =>
      ∃ texts : List (String × String), members = texts.map (fun e => (e.1, .text e.2)) ∧
        ∀ name, p.get? name = Properties.last? texts name
  | _ => False

/-- Timeouts are spelled by their name; every other reason by its name and its text. -/
def FailureReason.SpelledBy : FailureReason → Value → Prop
  | .timeout, v => v = .text "Timeout" ∨ v = .record [("Timeout", .null)]
  | .offerUnavailable text, v => v = .record [("OfferUnavailable", .text text)]
  | .negotiationFailed text, v => v = .record [("NegotiationFailed", .text text)]
  | .transferFailed text, v => v = .record [("TransferFailed", .text text)]
  | .internal text, v => v = .record [("Internal", .text text)]

end Rendezvous
