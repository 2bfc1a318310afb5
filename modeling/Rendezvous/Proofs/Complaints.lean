import Rendezvous.Csv.Requests

/-!
# Errors are told in one line

What can go wrong with a record is told in fixed words, in numbers and in the names of the columns
of a request.  Nothing that stands in a file comes into a message, so a message is always one line.

* `oneLine_of_requests`: the message of every error in a file is one line.
-/

namespace Rendezvous.Csv

/-- A text of a single line. -/
def OneLine (text : String) : Prop := '\n' ∉ text.toList

instance (text : String) : Decidable (OneLine text) := inferInstanceAs (Decidable (¬ _))

theorem oneLine_append {s t : String} : OneLine (s ++ t) ↔ OneLine s ∧ OneLine t := by
  simp [OneLine]

theorem oneLine_toString (n : Nat) : OneLine (toString n) := by
  intro hmem
  have hdigits : '\n' ∈ Nat.toDigits 10 n := by simpa using hmem
  have hdigit := Nat.isDigit_of_mem_toDigits (b := 10) (by decide) (by decide) hdigits
  revert hdigit
  decide

/-! ## Where errors come from -/

section Errors

variable {ε ε' α β : Type} {p : Except ε α} {e : ε}

/-- What comes of two steps comes of the second one, after the first one has gone well. -/
theorem exists_ok_of_bind {f : α → Except ε β} {b : β} (h : p >>= f = .ok b) :
    ∃ a, p = .ok a ∧ f a = .ok b := by
  cases p with
  | error e => cases h
  | ok a => exact ⟨a, rfl, h⟩

theorem error_of_bind {f : α → Except ε β} (h : p >>= f = .error e) :
    p = .error e ∨ ∃ a, p = .ok a ∧ f a = .error e := by
  cases p with
  | error e' => exact .inl (congrArg Except.error (Except.error.inj h))
  | ok a => exact .inr ⟨a, rfl, h⟩

theorem error_of_map {f : α → β} (h : p.map f = .error e) : p = .error e := by
  cases p with
  | error e' => exact congrArg Except.error (Except.error.inj h)
  | ok a => cases h

theorem error_of_mapError {f : ε → ε'} {e' : ε'} (h : p.mapError f = .error e') :
    ∃ e, p = .error e ∧ f e = e' := by
  cases p with
  | error e => exact ⟨e, rfl, Except.error.inj h⟩
  | ok a => cases h

end Errors

/-! ## Faults -/

/-- The names of the columns of a request. -/
def requestColumns : List String := ["key", "asset", "provider"]

/-- A fault that names no column but those of a request. -/
def Fault.IsOwn : Fault → Prop
  | .missingField name | .duplicateField name => name ∈ requestColumns
  | .endOfRow | .tooShort _ => True

theorem Fault.IsOwn.oneLine {f : Fault} (h : f.IsOwn) : OneLine f.message := by
  have hcolumns : ∀ name ∈ requestColumns, OneLine name := by decide
  cases f with
  | endOfRow => decide
  | missingField name | duplicateField name =>
    unfold message
    simp only [oneLine_append, hcolumns name h, and_true]
    decide
  | tooShort count =>
    unfold message
    simp only [oneLine_append, oneLine_toString, and_true]
    decide

/-- Putting a field into a column of a request can only go wrong with that column. -/
theorem Draft.isOwn_put {name : String} {old? cell? : Option String} {f : Fault}
    (hname : name ∈ requestColumns) (g : String → Draft)
    (h : (put name old? cell?).map g = .error f) : f.IsOwn := by
  unfold put at h
  split at h <;> cases h
  · exact hname
  · trivial

theorem Draft.isOwn_enter {d : Draft} {name : String} {cell? : Option String} {f : Fault}
    (h : d.enter name cell? = .error f) : f.IsOwn := by
  unfold enter at h
  split at h
  · exact isOwn_put (by decide) _ h
  · exact isOwn_put (by decide) _ h
  · exact isOwn_put (by decide) _ h
  · split at h <;> cases h
    trivial

theorem Draft.isOwn_complete {d : Draft} {f : Fault} (h : d.complete = .error f) : f.IsOwn := by
  unfold complete at h
  split at h <;> cases h <;> simp [Fault.IsOwn, requestColumns]

theorem isOwn_byName {d : Draft} {names cells : List String} {f : Fault}
    (h : byName d names cells = .error f) : f.IsOwn := by
  induction names generalizing d cells with
  | nil => cases h
  | cons name names ih =>
    rcases error_of_bind h with henter | ⟨d', -, hrest⟩
    · exact Draft.isOwn_enter henter
    · exact ih hrest

theorem isOwn_byPosition {cells : List String} {f : Fault} (h : byPosition cells = .error f) :
    f.IsOwn := by
  unfold byPosition at h
  split at h <;> cases h
  trivial

/-! ## Records -/

/-- An error that says nothing of what stands in the file. -/
def ReadError.IsOwn : ReadError → Prop
  | .fault _ f => f.IsOwn
  | .notText .. => True
  | .source _ => False

theorem ReadError.IsOwn.oneLine {e : ReadError} (h : e.IsOwn) : OneLine e.message := by
  cases e with
  | fault place f =>
    have hfault : OneLine f.message := Fault.IsOwn.oneLine h
    unfold message
    simp only [oneLine_append, oneLine_toString, hfault, and_true]
    decide
  | notText place field index =>
    unfold message
    simp only [oneLine_append, oneLine_toString, and_true]
    decide
  | source text => exact h.elim

theorem isOwn_cellsFrom {place : Place} {n : Nat} {fields : List (List UInt8)} {e : ReadError}
    (h : cellsFrom place n fields = .error e) : e.IsOwn := by
  induction fields generalizing n with
  | nil => cases h
  | cons field fields ih =>
    unfold cellsFrom at h
    split at h
    · cases h
      trivial
    · exact ih (error_of_map h)

theorem Record.isOwn_request {names? : Option (List String)} {r : Record} {e : ReadError}
    (h : r.request names? = .error e) : e.IsOwn := by
  rcases error_of_bind h with hcells | ⟨cells, -, hrequest⟩
  · exact isOwn_cellsFrom hcells
  · -- what is left is the fault of a record whose fields are texts
    obtain ⟨f, hf, rfl⟩ := error_of_mapError hrequest
    cases names? with
    | none => exact isOwn_byPosition hf
    | some names =>
      rcases error_of_bind hf with hnamed | ⟨d, -, hcomplete⟩
      · exact isOwn_byName hnamed
      · exact Draft.isOwn_complete hcomplete

/-- The message of every error in a file is one line. -/
theorem oneLine_of_requests {bytes : List UInt8} {e : ReadError}
    (h : .error e ∈ requests { bytes }) : OneLine e.message := by
  unfold requests at h
  dsimp only at h
  split at h
  · simp at h
  · rw [Option.toList_none, List.map_nil, List.append_nil] at h
    obtain ⟨r, -, hr⟩ := List.mem_map.1 h
    exact (Record.isOwn_request hr).oneLine

end Rendezvous.Csv
