import Mathlib.Data.List.Induction
import Rendezvous.Csv.Requests
import Rendezvous.Proofs.Utf8

/-!
# Fields as texts

Blanks of one byte are taken from a field before it is read as text, and all other blanks after
that.  This is the same as reading the whole field and taking the blanks from its ends then: a byte
below `0x80` is a character of its own wherever it stands, so bytes are text with it exactly if they
are text without it.

* `toOption_decode_cons`, `toOption_decode_concat`: a byte below `0x80` before or after some bytes;
* `toOption_cell`: a field is its text without the blanks around it.
-/

namespace Rendezvous.Text

/-- A text without the blanks at its ends. -/
def trimmed (s : String) : String := String.ofList (trim s.toList)

/-! ## Bytes that are characters of their own -/

/-- A reading that has one more byte, unless it fits nowhere. -/
def Reading.read? (r : Reading) (b : UInt8) : Option Reading := r.next? b.toNat

/-- A reading that goes on from some characters. -/
def Reading.after (r : Reading) (cs : List Char) (n : Nat) : Reading :=
  { r with chars := r.chars ++ cs, size := r.size + n }

/-- A reading in which the next byte of an unfinished character is never one below `0x80`. -/
def Reading.Bounded (r : Reading) : Prop := ∀ n l, r.lead? = some (n, l) → 0x80 ≤ l.low

variable {r r' : Reading} {b : UInt8} {bs : List UInt8}

theorem readBytes_eq (r : Reading) (bs : List UInt8) :
    (match bs.foldlM Reading.read? r with
    | some r' => readBytes r bs = (r'.lead?.isNone, r')
    | none => (readBytes r bs).1 = false) := by
  induction bs generalizing r with
  | nil => rfl
  | cons b bs ih =>
    rw [List.foldlM_cons, readBytes]
    change (match (r.next? b.toNat).bind fun r => bs.foldlM Reading.read? r with
      | some r' => _
      | none => _)
    cases hnext : r.next? b.toNat with
    | none => rfl
    | some r' => exact ih r'

/-- Bytes are text if they can be read up to the end of a character. -/
theorem toOption_decode (bs : List UInt8) :
    (decode bs).toOption = (bs.foldlM Reading.read? {}).bind fun r =>
      if r.lead?.isNone then some r.chars.reverse else none := by
  have hread := readBytes_eq {} bs
  unfold decode
  cases hfold : bs.foldlM Reading.read? ({} : Reading) with
  | none =>
    rw [hfold] at hread
    simp [hread, Except.toOption]
  | some r =>
    rw [hfold] at hread
    cases hlead : r.lead? <;> simp [hread, hlead, Except.toOption]

theorem lead?_low {n : Nat} {l : Lead} (h : lead? n = some l) : 0x80 ≤ l.low := by
  unfold lead? at h
  split_ifs at h <;> simp only [Option.some.injEq] at h <;> subst h <;> simp

theorem extend?_low {l l' : Lead} {n : Nat} (h : l.extend? n = some l') : l'.low = 0x80 := by
  unfold Lead.extend? at h
  split_ifs at h
  rw [← Option.some.inj h]

theorem Reading.Bounded.read? (h : r.read? b = some r') : r'.Bounded := by
  intro n l hl
  unfold Reading.read? next? at h
  -- the byte begins a character or goes on with one, and both set the bounds for the next byte
  split at h
  · split_ifs at h
    · cases h
      cases hl
    · obtain ⟨l', hlead, rfl⟩ := Option.map_eq_some_iff.1 h
      cases hl
      exact lead?_low hlead
  · obtain ⟨l', hextend, hr⟩ := Option.map_eq_some_iff.1 h
    split_ifs at hr <;> cases hr <;> cases hl
    exact Nat.le_of_eq (extend?_low hextend).symm

theorem Reading.Bounded.foldlM (hr : r.Bounded) (h : bs.foldlM Reading.read? r = some r') :
    r'.Bounded := by
  induction bs generalizing r with
  | nil =>
    cases h
    exact hr
  | cons b bs ih =>
    obtain ⟨r₁, hfirst, hrest⟩ := Option.bind_eq_some_iff.1 h
    exact ih (Reading.Bounded.read? hfirst) hrest

/-- A byte below `0x80` can only be read between two characters. -/
theorem Reading.Bounded.read?_ascii (hr : r.Bounded) (hb : b.toNat < 0x80) :
    r.read? b = if r.lead?.isNone then
      some { chars := Char.ofNat b.toNat :: r.chars, size := r.size + 1 } else none := by
  unfold Reading.read?
  cases hlead : r.lead? with
  | none => simp [next?_ascii hlead hb]
  | some p =>
    obtain ⟨n, l⟩ := p
    have hlow := hr n l hlead
    have hout : ¬ l.low ≤ b.toNat := by omega
    simp [Reading.next?, hlead, Lead.extend?, hout]

theorem Reading.read?_after (r : Reading) (cs : List Char) (n : Nat) (b : UInt8) :
    (r.after cs n).read? b = (r.read? b).map fun r => r.after cs n := by
  unfold Reading.read? Reading.next? Reading.after
  obtain ⟨chars, size, lead⟩ := r
  cases lead with
  | none => split_ifs <;> simp [Function.comp_def, Nat.add_right_comm]
  | some p =>
    obtain ⟨m, l⟩ := p
    cases hextend : l.extend? b.toNat with
    | none => simp [hextend]
    | some l' => by_cases hlast : l'.missing = 0 <;> simp [hextend, hlast]; omega

theorem Reading.foldlM_after (r : Reading) (cs : List Char) (n : Nat) (bs : List UInt8) :
    bs.foldlM Reading.read? (r.after cs n) = (bs.foldlM Reading.read? r).map (·.after cs n) := by
  induction bs generalizing r with
  | nil => rfl
  | cons b bs ih =>
    simp only [List.foldlM_cons, Reading.read?_after, Option.bind_eq_bind]
    cases r.read? b with
    | none => rfl
    | some r' => exact ih r'

/-- A byte below `0x80` before some bytes. -/
theorem toOption_decode_cons (hb : b.toNat < 0x80) (bs : List UInt8) :
    (decode (b :: bs)).toOption = (decode bs).toOption.map (Char.ofNat b.toNat :: ·) := by
  have hfirst : ({} : Reading).read? b = some (({} : Reading).after [Char.ofNat b.toNat] 1) :=
    next?_ascii rfl hb
  rw [toOption_decode, toOption_decode, List.foldlM_cons, hfirst]
  change ((bs.foldlM Reading.read? (({} : Reading).after [Char.ofNat b.toNat] 1)).bind _) = _
  rw [Reading.foldlM_after]
  cases bs.foldlM Reading.read? ({} : Reading) with
  | none => rfl
  | some r => cases hlead : r.lead? <;> simp [Reading.after, hlead]

/-- A byte below `0x80` after some bytes. -/
theorem toOption_decode_concat (hb : b.toNat < 0x80) (bs : List UInt8) :
    (decode (bs ++ [b])).toOption = (decode bs).toOption.map (· ++ [Char.ofNat b.toNat]) := by
  rw [toOption_decode, toOption_decode, List.foldlM_append]
  cases hfold : bs.foldlM Reading.read? ({} : Reading) with
  | none => rfl
  | some r =>
    have hr : r.Bounded := Reading.Bounded.foldlM (by intro n l hl; cases hl) hfold
    -- if the bytes before break off inside a character, the last byte does not go on with it
    have hlast : [b].foldlM Reading.read? r = r.read? b := by simp
    change (([b].foldlM Reading.read? r).bind _) = _
    rw [hlast, hr.read?_ascii hb]
    cases hlead : r.lead? <;> simp [hlead]

/-! ## Blanks at the ends -/

theorem trim_cons {c : Char} (hc : isBlank c = true) (cs : List Char) :
    trim (c :: cs) = trim cs := by
  simp [trim, trimStart, hc]

theorem trim_concat {c : Char} (hc : isBlank c = true) (cs : List Char) :
    trim (cs ++ [c]) = trim cs := by
  unfold trim trimStart
  rw [List.dropWhile_append]
  split_ifs with hall
  · -- nothing but blanks, so nothing is left
    rw [List.isEmpty_iff.1 hall, List.dropWhile_cons_of_pos hc]
    rfl
  · simp [hc]

end Rendezvous.Text

namespace Rendezvous.Csv

open Text (trimmed)

/-- A field as text without the blanks around it, if the field is text. -/
def trimmedText? (field : List UInt8) : Option String :=
  (Text.decode field).toOption.map fun cs => trimmed (String.ofList cs)

theorem isBlankByte_spec {b : UInt8} (h : isBlankByte b = true) :
    b.toNat < 0x80 ∧ Text.isBlank (Char.ofNat b.toNat) = true := by
  have hblank : ∀ n < 0x80, n = 0x20 ∨ 0x09 ≤ n ∧ n ≤ 0x0D →
      Text.isBlank (Char.ofNat n) = true := by decide
  have hrange : b.toNat = 0x20 ∨ 0x09 ≤ b.toNat ∧ b.toNat ≤ 0x0D := by
    simpa [isBlankByte, ← UInt8.toNat_inj, UInt8.le_iff_toNat_le] using h
  exact ⟨by omega, hblank _ (by omega) hrange⟩

/-- A blank before a field is not part of its text. -/
theorem trimmedText?_cons {b : UInt8} (hb : isBlankByte b = true) (field : List UInt8) :
    trimmedText? (b :: field) = trimmedText? field := by
  obtain ⟨hascii, hblank⟩ := isBlankByte_spec hb
  simp [trimmedText?, Text.toOption_decode_cons hascii, trimmed, Function.comp_def,
    Text.trim_cons hblank]

/-- A blank after a field is not part of its text. -/
theorem trimmedText?_concat {b : UInt8} (hb : isBlankByte b = true) (field : List UInt8) :
    trimmedText? (field ++ [b]) = trimmedText? field := by
  obtain ⟨hascii, hblank⟩ := isBlankByte_spec hb
  simp [trimmedText?, Text.toOption_decode_concat hascii, trimmed, Function.comp_def,
    Text.trim_concat hblank]

theorem trimmedText?_dropWhile (field : List UInt8) :
    trimmedText? (field.dropWhile isBlankByte) = trimmedText? field := by
  induction field with
  | nil => rfl
  | cons b field ih =>
    by_cases hb : isBlankByte b = true
    · rw [List.dropWhile_cons_of_pos hb, ih, trimmedText?_cons hb]
    · rw [List.dropWhile_cons_of_neg hb]

theorem trimmedText?_dropWhile_reverse (field : List UInt8) :
    trimmedText? (field.reverse.dropWhile isBlankByte).reverse = trimmedText? field := by
  induction field using List.reverseRecOn with
  | nil => rfl
  | append_singleton field b ih =>
    rw [List.reverse_append, List.reverse_singleton, List.singleton_append]
    by_cases hb : isBlankByte b = true
    · rw [List.dropWhile_cons_of_pos hb, ih, trimmedText?_concat hb]
    · rw [List.dropWhile_cons_of_neg hb]
      simp

/-- A field is its text without the blanks around it. -/
theorem toOption_cell (field : List UInt8) : (cell field).toOption = trimmedText? field := by
  have htrim : trimmedText? (trimBytes field) = trimmedText? field := by
    rw [trimBytes, trimmedText?_dropWhile_reverse, trimmedText?_dropWhile]
  rw [← htrim, cell, trimmedText?]
  cases Text.decode (trimBytes field) <;> simp [Except.map, Except.toOption, trimmed]

/-- A text that was written is read without the blanks around it. -/
theorem trimmedText?_encode (s : String) :
    trimmedText? (Text.encode s.toList) = some (trimmed s) := by
  simp [trimmedText?, Text.decode_encode, Except.toOption]

end Rendezvous.Csv
