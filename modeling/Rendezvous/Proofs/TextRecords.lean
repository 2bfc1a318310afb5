import Mathlib.Tactic.SplitIfs
import Rendezvous.Json.Read

/-!
# Reading back records of texts

Every character of a text is written as itself or as an escape of its own, so a text can be read
back up to its closing quote, whatever follows.  Control characters are always escaped, so a record
has no line break in it.

* `textRecord?_textRecord`: a record is read as the members it was written from;
* `not_mem_textRecord`: a record has no control characters.
-/

namespace Rendezvous.Json

variable {c : Char} {cs rest : List Char}

/-! ## Texts -/

/-- What the digits of an escaped control character are. -/
theorem escapeCode_spec : ∀ n < 0x20, ∃ a b, escapeCode n = ['\\', 'u', '0', '0', a, b] ∧
    Toml.charOfHex? ['0', '0', a, b] = some (Char.ofNat n) := by
  have h : ∀ n < 0x20, escapeCode n = ['\\', 'u', '0', '0', (escapeCode n)[4]!, (escapeCode n)[5]!]
      ∧ Toml.charOfHex? ['0', '0', (escapeCode n)[4]!, (escapeCode n)[5]!]
        = some (Char.ofNat n) := by
    decide
  exact fun n hn => ⟨_, _, h n hn⟩

/-- An escape of one letter. -/
theorem afterQuote?_letter {e : Char} (he : escape? e = some c) :
    afterQuote? ('\\' :: e :: cs) = Toml.cons? (some c) (afterQuote? cs) := by
  have hu : e ≠ 'u' := by
    rintro rfl
    cases he
  rw [afterQuote?, he]
  intros
  exact absurd ‹_› hu

/-- A character that stands for itself. -/
theorem afterQuote?_plain (hquote : c ≠ '"') (hslash : c ≠ '\\') (hcontrol : ¬ c.toNat < 0x20) :
    afterQuote? (c :: cs) = Toml.cons? (some c) (afterQuote? cs) := by
  rw [afterQuote?, if_neg hcontrol]
  · exact hquote
  · intros
    exact absurd ‹_› hslash
  · intros
    exact absurd ‹_› hslash

/-- A character is read back from what it is written as. -/
theorem afterQuote?_quoteChar (c : Char) :
    afterQuote? (quoteChar c ++ cs) = Toml.cons? (some c) (afterQuote? cs) := by
  have letter {n : Nat} {e : Char} (hn : c.toNat = n) (he : escape? e = some (Char.ofNat n)) :
      afterQuote? ('\\' :: e :: cs) = Toml.cons? (some c) (afterQuote? cs) := by
    rw [← hn, Char.ofNat_toNat] at he
    exact afterQuote?_letter he
  unfold quoteChar
  split_ifs with hquote hslash hn hr ht hb hf hcontrol
  · exact letter (n := 0x22) (by simp [hquote]) rfl
  · exact letter (n := 0x5C) (by simp [hslash]) rfl
  · exact letter (n := 0x0A) (by simp [hn]) rfl
  · exact letter (n := 0x0D) (by simp [hr]) rfl
  · exact letter (n := 0x09) (by simp [ht]) rfl
  · exact letter hb rfl
  · exact letter hf rfl
  · obtain ⟨a, b, hcode, hhex⟩ := escapeCode_spec c.toNat hcontrol
    rw [Char.ofNat_toNat] at hhex
    rw [hcode, List.cons_append, List.cons_append, List.cons_append, List.cons_append,
      List.cons_append, List.cons_append, List.nil_append, afterQuote?, hhex]
  · exact afterQuote?_plain hquote hslash hcontrol

/-- A text is read back up to its closing quote. -/
theorem afterQuote?_flatMap (cs : List Char) :
    afterQuote? (cs.flatMap quoteChar ++ '"' :: rest) = some (cs, rest) := by
  induction cs with
  | nil => rw [List.flatMap_nil, List.nil_append, afterQuote?]
  | cons c cs ih => rw [List.flatMap_cons, List.append_assoc, afterQuote?_quoteChar, ih]; rfl

/-! ## Records -/

/-- A character that has to come next and does. -/
theorem after?_cons (hc : isBlank c = false) : after? c (c :: cs) = some cs := by
  simp [after?, skipBlanks, hc]

/-- A character that has to come next and does not. -/
theorem after?_of_ne {d : Char} (hc : isBlank c = false) (hne : c ≠ d) :
    after? d (c :: cs) = none := by
  simp [after?, skipBlanks, hc, hne]

theorem text?_quoted (s : String) : text? (quoted s ++ rest) = some (s, rest) := by
  have hafter : after? '"' (quoted s ++ rest)
      = some (s.toList.flatMap quoteChar ++ '"' :: rest) := by
    simp [quoted, after?_cons (c := '"') rfl]
  simp [text?, hafter, afterQuote?_flatMap]

/-- A member as it is written. -/
def memberText (m : String × String) : List Char := quoted m.1 ++ ':' :: quoted m.2

/-- Members as they are written. -/
def membersText (ms : List (String × String)) : List Char :=
  [','].intercalate (ms.map memberText)

theorem membersText_one (m : String × String) : membersText [m] = memberText m := by
  simp [membersText]

theorem membersText_cons (m m' : String × String) (ms : List (String × String)) :
    membersText (m :: m' :: ms) = memberText m ++ ',' :: membersText (m' :: ms) := by
  simp [membersText, List.intercalate_cons_cons]

theorem textRecord_eq (ms : List (String × String)) :
    textRecord ms = '\x7b' :: (membersText ms ++ ['\x7d']) := rfl

theorem textMember?_memberText (m : String × String) :
    textMember? (memberText m ++ rest) = some (m, rest) := by
  simp [textMember?, memberText, text?_quoted, after?_cons (c := ':') rfl]

/-- Members are read one after the other up to the brace. -/
theorem textMembers?_membersText (m : String × String) (ms : List (String × String))
    (rest : List Char) {n : Nat} (hn : ms.length < n) :
    textMembers? n (membersText (m :: ms) ++ '\x7d' :: rest) = some (m :: ms, rest) := by
  induction ms generalizing m n with
  | nil =>
    obtain ⟨n, rfl⟩ := Nat.exists_eq_add_one_of_ne_zero (Nat.ne_of_gt hn)
    simp [textMembers?, membersText_one, textMember?_memberText,
      after?_of_ne (c := '\x7d') (d := ',') rfl, after?_cons (c := '\x7d') rfl]
  | cons m' ms ih =>
    obtain ⟨n, rfl⟩ := Nat.exists_eq_add_one_of_ne_zero (Nat.ne_of_gt (Nat.zero_lt_of_lt hn))
    have hrest := ih m' (Nat.lt_of_succ_lt_succ hn)
    simp [textMembers?, membersText_cons, textMember?_memberText, after?_cons (c := ',') rfl, hrest]

/-- Every member takes some space, so their space bounds their number. -/
theorem length_le_membersText (ms : List (String × String)) :
    ms.length ≤ (membersText ms).length := by
  induction ms with
  | nil => simp
  | cons m ms ih =>
    cases ms with
    | nil => simp [membersText_one, memberText]; omega
    | cons m' ms =>
      simp only [membersText_cons, List.length_append, List.length_cons] at ih ⊢
      omega

/-- Members begin with the quote of the first name. -/
theorem exists_membersText_eq (m : String × String) (ms : List (String × String)) :
    ∃ cs, membersText (m :: ms) = '"' :: cs := by
  cases ms with
  | nil => exact ⟨_, membersText_one m⟩
  | cons m' ms => exact ⟨_, membersText_cons m m' ms⟩

/-- A record is read as the members it was written from. -/
theorem textRecord?_textRecord (ms : List (String × String)) :
    textRecord? (textRecord ms) = some ms := by
  cases ms with
  | nil => decide
  | cons m ms =>
    -- the record is not empty, so the reader goes on to the members
    have hopen : after? '\x7d' (membersText (m :: ms) ++ ['\x7d']) = none := by
      obtain ⟨cs, hcs⟩ := exists_membersText_eq m ms
      rw [hcs]
      exact after?_of_ne rfl (by decide)
    have hspace : ms.length < (membersText (m :: ms) ++ ['\x7d']).length := by
      have hlength := length_le_membersText (m :: ms)
      rw [List.length_cons] at hlength
      rw [List.length_append]
      omega
    have hmembers := textMembers?_membersText m ms [] hspace
    rw [textRecord?, textRecord_eq, after?_cons rfl]
    simp only [Option.bind_eq_bind, Option.bind_some, hopen, hmembers]
    rfl

/-! ## Control characters -/

variable {x : Char}

/-- No character is written with a control character. -/
theorem le_of_mem_quoteChar (h : x ∈ quoteChar c) : 0x20 ≤ x.toNat := by
  have hletters : ∀ e ∈ ['"', '\\', 'n', 'r', 't', 'b', 'f'], ∀ x ∈ ['\\', e], 0x20 ≤ x.toNat := by
    simp
  have hcode : ∀ n < 0x20, (escapeCode n).all fun x => 0x20 ≤ x.toNat := by decide
  unfold quoteChar at h
  split_ifs at h with hquote hslash hn hr ht hb hf hcontrol
  iterate 7 · exact hletters _ (by decide) x h
  · simpa using List.all_eq_true.1 (hcode _ hcontrol) x h
  · rw [List.mem_singleton.1 h]
    exact Nat.le_of_not_lt hcontrol

theorem le_of_mem_quoted {s : String} (h : x ∈ quoted s) : 0x20 ≤ x.toNat := by
  simp only [quoted, List.mem_cons, List.mem_append, List.mem_flatMap, List.not_mem_nil,
    or_false] at h
  rcases h with rfl | ⟨c, -, h⟩ | rfl
  · decide
  · exact le_of_mem_quoteChar h
  · decide

theorem le_of_mem_memberText {m : String × String} (h : x ∈ memberText m) : 0x20 ≤ x.toNat := by
  rcases List.mem_append.1 h with h | h
  · exact le_of_mem_quoted h
  · rcases List.mem_cons.1 h with rfl | h
    · decide
    · exact le_of_mem_quoted h

theorem le_of_mem_membersText {ms : List (String × String)} (h : x ∈ membersText ms) :
    0x20 ≤ x.toNat := by
  induction ms with
  | nil => simp [membersText] at h
  | cons m ms ih =>
    cases ms with
    | nil =>
      rw [membersText_one] at h
      exact le_of_mem_memberText h
    | cons m' ms =>
      rw [membersText_cons, List.mem_append, List.mem_cons] at h
      rcases h with h | rfl | h
      · exact le_of_mem_memberText h
      · decide
      · exact ih h

/-- A record has no control characters, so it has no line breaks. -/
theorem not_mem_textRecord (ms : List (String × String)) (hx : x.toNat < 0x20) :
    x ∉ textRecord ms := by
  intro h
  rw [textRecord_eq, List.mem_cons, List.mem_append, List.mem_singleton] at h
  rcases h with rfl | h | rfl
  · exact absurd hx (by decide)
  · exact Nat.not_lt_of_le (le_of_mem_membersText h) hx
  · exact absurd hx (by decide)

end Rendezvous.Json
