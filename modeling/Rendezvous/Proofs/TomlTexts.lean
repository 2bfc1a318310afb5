import Rendezvous.Proofs.TextRecords
import Rendezvous.Toml.Document
import Rendezvous.Toml.Quoted

/-!
# Reading back texts in TOML

Every text can be written between double quotes such that it is read back, up to the closing quote
and whatever follows.  A document is read line by line.

* `text?_quoted`: a text is read as what it was written from;
* `line?_of_key`, `lines?_cons`: one line, and one line and the lines after it.
-/

namespace Rendezvous.Toml

variable {c e : Char} {cs rest : List Char}

/-! ## Texts -/

/-- An escape of one letter. -/
theorem basic_letter (he : escape? e = some c) :
    basic ('\\' :: e :: cs) = cons? (some c) (basic cs) := by
  have hu : e ≠ 'u' := by
    rintro rfl
    cases he
  have hU : e ≠ 'U' := by
    rintro rfl
    cases he
  rw [basic, he]
  · intros
    exact absurd ‹_› hu
  · intros
    exact absurd ‹_› hU

/-- A character that stands for itself. -/
theorem basic_plain (hquote : c ≠ '"') (hslash : c ≠ '\\') (hprintable : isPrintable c) :
    basic (c :: cs) = cons? (some c) (basic cs) := by
  rw [basic, if_pos hprintable]
  · exact hquote
  · intros
    exact absurd ‹_› hslash
  · intros
    exact absurd ‹_› hslash
  · intros
    exact absurd ‹_› hslash

/-- A character is read back from what it is written as. -/
theorem basic_quoteChar (c : Char) :
    basic (quoteChar c ++ cs) = cons? (some c) (basic cs) := by
  have letter {n : Nat} {e : Char} (hn : c.toNat = n) (he : escape? e = some (Char.ofNat n)) :
      basic ('\\' :: e :: cs) = cons? (some c) (basic cs) := by
    rw [← hn, Char.ofNat_toNat] at he
    exact basic_letter he
  have code {n : Nat} {a b : Char} (hn : c.toNat = n)
      (hcode : Json.escapeCode n = ['\\', 'u', '0', '0', a, b])
      (hhex : charOfHex? ['0', '0', a, b] = some (Char.ofNat n)) :
      basic (Json.escapeCode n ++ cs) = cons? (some c) (basic cs) := by
    rw [← hn, Char.ofNat_toNat] at hhex
    rw [hcode, ← hhex]
    exact basic.eq_3 _ _ _ _ _
  unfold quoteChar Json.quoteChar
  split_ifs with hdelete hquote hslash hn hr ht hb hf hcontrol
  · exact code hdelete rfl rfl
  · exact letter (n := 0x22) (by simp [hquote]) rfl
  · exact letter (n := 0x5C) (by simp [hslash]) rfl
  · exact letter (n := 0x0A) (by simp [hn]) rfl
  · exact letter (n := 0x0D) (by simp [hr]) rfl
  · exact letter (n := 0x09) (by simp [ht]) rfl
  · exact letter hb rfl
  · exact letter hf rfl
  · obtain ⟨a, b, hcode, hhex⟩ := Json.escapeCode_spec c.toNat hcontrol
    exact code rfl hcode hhex
  · refine basic_plain hquote hslash ?_
    have hspace : 0x20 ≤ c.toNat := Nat.le_of_not_lt hcontrol
    simp [isPrintable, hspace, hdelete]

/-- A text is read back up to its closing quote. -/
theorem basic_flatMap (cs : List Char) :
    basic (cs.flatMap quoteChar ++ '"' :: rest) = some (cs, rest) := by
  induction cs with
  | nil => rw [List.flatMap_nil, List.nil_append, basic]
  | cons c cs ih => rw [List.flatMap_cons, List.append_assoc, basic_quoteChar, ih]; rfl

/-- No quote comes first in what a character is written as. -/
theorem exists_quoteChar_eq (c : Char) : ∃ d ds, quoteChar c = d :: ds ∧ d ≠ '"' := by
  unfold quoteChar Json.quoteChar
  split_ifs with hdelete hquote hslash hn hr ht hb hf hcontrol
  case neg => exact ⟨c, [], rfl, hquote⟩
  -- all others are escaped
  all_goals exact ⟨'\\', _, rfl, by decide⟩

/-- A text in quotes is not taken for one of several lines, unless a quote follows it. -/
theorem text?_quoted (s : String) (hrest : rest.head? ≠ some '"') :
    text? (quoted s ++ rest) = some (s, rest) := by
  have hthree : ∀ cs, quoted s ++ rest ≠ '"' :: '"' :: '"' :: cs := by
    intro cs
    unfold quoted
    cases s.toList with
    | nil =>
      rintro heq
      obtain rfl : rest = '"' :: cs := by simpa using heq
      exact hrest rfl
    | cons c text =>
      obtain ⟨d, ds, hc, hd⟩ := exists_quoteChar_eq c
      simp [hc, hd]
  have hshort : text? (quoted s ++ rest) = shortText? (quoted s ++ rest) := by
    rw [text?]
    · exact fun cs heq => hthree cs heq
    · simp [quoted]
  have hquoted : quoted s ++ rest = '"' :: (s.toList.flatMap quoteChar ++ '"' :: rest) := by
    simp [quoted]
  rw [hshort, hquoted, shortText?, basic_flatMap]
  simp

theorem value?_quoted (n : Nat) (s : String) (hrest : rest.head? ≠ some '"') :
    value? (n + 1) (quoted s ++ rest) = some (.text s, rest) := by
  have htext := text?_quoted s hrest
  rw [quoted, List.cons_append] at htext ⊢
  have hsimple (cs : List Char) : value? (n + 1) ('"' :: cs) = simple? ('"' :: cs) := by
    rw [value?] <;> simp
  rw [hsimple, simple?, htext]
  rfl

/-! ## Lines -/

/-- A line that gives a value to a key. -/
theorem line?_of_key {d : Draft} {key : List String} {v : Value} {ms : Members}
    {rest' : List Char} (hheader : cs.head? ≠ some '[') (hkey : key? cs = some (key, '=' :: rest))
    (hvalue : value? (2 * (skipSpaces rest).length + 2) (skipSpaces rest) = some (v, rest'))
    (hassign : within (assign key v) d.header d.members = some ms) :
    line? d cs = some ({ d with members := ms }, rest') := by
  rw [line?]
  · simp [hkey, hvalue, hassign]
  · rintro cs rfl
    exact hheader rfl
  · rintro cs rfl
    exact hheader rfl

/-- A line and the lines after it. -/
theorem lines?_cons {n : Nat} {d d' : Draft} {rest rest' : List Char}
    (hblank : skipBlanks? cs = some cs) (hcs : cs ≠ []) (hline : line? d cs = some (d', rest))
    (hend : endLine? rest = some rest') : lines? (n + 1) d cs = lines? n d' rest' := by
  cases cs with
  | nil => exact absurd rfl hcs
  | cons c cs => simp [lines?, hblank, hline, hend]

end Rendezvous.Toml
