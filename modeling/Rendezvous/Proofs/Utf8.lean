import Mathlib.Tactic.SplitIfs
import Rendezvous.Text.Utf8

/-!
# Reading back what is written in UTF-8

A character takes one to four bytes.  The first of several tells how many follow and gives the
highest bits; each of the others adds six bits.  The reader refuses second bytes that would make a
sequence too long for its character, a surrogate, or too large, and no character needs one of them.

* `readBytes_utf8EncodeChar`: the bytes of a character are read as that character;
* `decode_encode`: so the bytes of a text are read as that text;
* `toNat_eq_of_mem_utf8EncodeChar`: bytes below `0x80` stand for themselves only.
-/

namespace Rendezvous.Text

variable {r : Reading} {b n : Nat} {l : Lead}

theorem toNat_ofNat (h : n < 256) : (UInt8.ofNat n).toNat = n := by
  simp [Nat.mod_eq_of_lt h]

/-- A character is no surrogate and at most the last one. -/
theorem toNat_valid (c : Char) : c.toNat < 0xD800 ∨ 0xDFFF < c.toNat ∧ c.toNat < 0x110000 := c.valid

/-! ## Single bytes -/

theorem next?_ascii (hnone : r.lead? = none) (h : b < 0x80) :
    r.next? b = some { chars := Char.ofNat b :: r.chars, size := r.size + 1 } := by
  simp [Reading.next?, hnone, h]

theorem next?_lead (hnone : r.lead? = none) (hb : 0x80 ≤ b) (hl : lead? b = some l) :
    r.next? b = some { r with lead? := some (1, l) } := by
  simp [Reading.next?, hnone, hl, Nat.not_lt_of_le hb]

/-- A byte in the middle of a character. -/
theorem next?_middle (hsome : r.lead? = some (n, l)) (hlow : l.low ≤ b) (hhigh : b ≤ l.high)
    (hmissing : l.missing ≠ 1) (hpos : 0 < l.missing) :
    r.next? b = some
      { r with
        lead? := some (n + 1,
          { bits := 64 * l.bits + (b - 0x80), missing := l.missing - 1 }) } := by
  have hmore : l.missing - 1 ≠ 0 := by omega
  simp [Reading.next?, hsome, Lead.extend?, hlow, hhigh, hmore]

/-- The last byte of a character. -/
theorem next?_last (hsome : r.lead? = some (n, l)) (hlow : l.low ≤ b) (hhigh : b ≤ l.high)
    (hmissing : l.missing = 1) :
    r.next? b = some
      { chars := Char.ofNat (64 * l.bits + (b - 0x80)) :: r.chars, size := r.size + n + 1 } := by
  simp [Reading.next?, hsome, Lead.extend?, hlow, hhigh, hmissing]

/-! ## First bytes -/

theorem lead?_two (hlow : 2 ≤ n) (hhigh : n < 32) :
    lead? (n + 192) = some { bits := n, missing := 1 } := by
  have h : 0xC2 ≤ n + 192 ∧ n + 192 ≤ 0xDF := by omega
  simp [lead?, h]

/-- What a first byte of three says of the second one. -/
theorem lead?_three (h : n < 16) : ∃ low high,
    lead? (n + 224) = some { bits := n, missing := 2, low, high } ∧
      low = (if n = 0 then 0xA0 else 0x80) ∧ high = (if n = 13 then 0x9F else 0xBF) := by
  unfold lead?
  split_ifs <;> simp_all <;> omega

theorem lead?_four (h : n ≤ 4) : ∃ low high,
    lead? (n + 240) = some { bits := n, missing := 3, low, high } ∧
      low = (if n = 0 then 0x90 else 0x80) ∧ high = (if n = 4 then 0x8F else 0xBF) := by
  unfold lead?
  split_ifs <;> simp_all
  omega

/-! ## Characters and texts -/

variable {r' : Reading} {bs : List UInt8}

theorem readBytes_ofNat (hn : n < 256) (h : r.next? n = some r') :
    readBytes r (UInt8.ofNat n :: bs) = readBytes r' bs := by
  simp [readBytes, toNat_ofNat hn, h]

/-- The last byte of a character whose other bytes have been read. -/
theorem next?_finish {c : Char} {m low high : Nat}
    (hsome : r.lead? = some (m, { bits := c.toNat / 64, missing := 1, low, high }))
    (hlow : low ≤ c.toNat % 64 + 128) (hhigh : c.toNat % 64 + 128 ≤ high) :
    r.next? (c.toNat % 64 + 128) = some { chars := c :: r.chars, size := r.size + m + 1 } := by
  have hn : 64 * (c.toNat / 64) + (c.toNat % 64 + 128 - 0x80) = c.toNat := by omega
  rw [next?_last hsome hlow hhigh rfl, hn, Char.ofNat_toNat]

theorem readBytes_two (c : Char) (hnone : r.lead? = none) (hlow : 0x80 ≤ c.toNat)
    (hhigh : c.toNat < 0x800) :
    readBytes r (UInt8.ofNat (c.toNat / 64 % 32 + 192) :: UInt8.ofNat (c.toNat % 64 + 128) :: bs)
      = readBytes { chars := c :: r.chars, size := r.size + 1 + 1 } bs := by
  have hfirst : c.toNat / 64 % 32 = c.toNat / 64 := by omega
  rw [hfirst, readBytes_ofNat (by omega)
    (next?_lead hnone (by omega) (lead?_two (by omega) (by omega)))]
  exact readBytes_ofNat (by omega) (next?_finish rfl (by simp) (by simp; omega))

theorem readBytes_three (c : Char) (hnone : r.lead? = none) (hlow : 0x800 ≤ c.toNat)
    (hhigh : c.toNat < 0x10000) :
    readBytes r (UInt8.ofNat (c.toNat / 4096 % 16 + 224) ::
        UInt8.ofNat (c.toNat / 64 % 64 + 128) :: UInt8.ofNat (c.toNat % 64 + 128) :: bs)
      = readBytes { chars := c :: r.chars, size := r.size + (1 + 1) + 1 } bs := by
  have hvalid := toNat_valid c
  have hfirst : c.toNat / 4096 % 16 = c.toNat / 4096 := by omega
  obtain ⟨low, high, hlead, hl, hh⟩ := lead?_three (n := c.toNat / 4096) (by omega)
  -- the second byte is in bounds: the character is neither too small nor a surrogate
  have hmiddle : low ≤ c.toNat / 64 % 64 + 128 ∧ c.toNat / 64 % 64 + 128 ≤ high := by
    split_ifs at hl hh <;> omega
  have hbits : 64 * (c.toNat / 4096) + (c.toNat / 64 % 64 + 128 - 0x80) = c.toNat / 64 := by omega
  rw [hfirst, readBytes_ofNat (by omega) (next?_lead hnone (by omega) hlead),
    readBytes_ofNat (by omega) (next?_middle rfl hmiddle.1 hmiddle.2 (by simp) (by simp))]
  simp only [hbits]
  exact readBytes_ofNat (by omega) (next?_finish rfl (by simp) (by simp; omega))

theorem readBytes_four (c : Char) (hnone : r.lead? = none) (hlow : 0x10000 ≤ c.toNat) :
    readBytes r (UInt8.ofNat (c.toNat / 262144 % 8 + 240) ::
        UInt8.ofNat (c.toNat / 4096 % 64 + 128) :: UInt8.ofNat (c.toNat / 64 % 64 + 128) ::
        UInt8.ofNat (c.toNat % 64 + 128) :: bs)
      = readBytes { chars := c :: r.chars, size := r.size + (1 + 1 + 1) + 1 } bs := by
  have hvalid := toNat_valid c
  have hfirst : c.toNat / 262144 % 8 = c.toNat / 262144 := by omega
  obtain ⟨low, high, hlead, hl, hh⟩ := lead?_four (n := c.toNat / 262144) (by omega)
  -- the second byte is in bounds: the character is neither too small nor too large
  have hsecond : low ≤ c.toNat / 4096 % 64 + 128 ∧ c.toNat / 4096 % 64 + 128 ≤ high := by
    split_ifs at hl hh <;> omega
  have hbits : 64 * (c.toNat / 262144) + (c.toNat / 4096 % 64 + 128 - 0x80) = c.toNat / 4096 := by
    omega
  have hbits' : 64 * (c.toNat / 4096) + (c.toNat / 64 % 64 + 128 - 0x80) = c.toNat / 64 := by omega
  rw [hfirst, readBytes_ofNat (by omega) (next?_lead hnone (by omega) hlead),
    readBytes_ofNat (by omega) (next?_middle rfl hsecond.1 hsecond.2 (by simp) (by simp))]
  simp only [hbits]
  rw [readBytes_ofNat (by omega)
    (next?_middle rfl (by simp) (by simp; omega) (by simp) (by simp))]
  simp only [hbits']
  exact readBytes_ofNat (by omega) (next?_finish rfl (by simp) (by simp; omega))

/-- The bytes of a character are read as that character. -/
theorem readBytes_utf8EncodeChar (c : Char) (bs : List UInt8) (hnone : r.lead? = none) :
    ∃ size, readBytes r (String.utf8EncodeChar c ++ bs)
      = readBytes { chars := c :: r.chars, size } bs := by
  unfold String.utf8EncodeChar
  simp only [show c.val.toNat = c.toNat from rfl]
  split_ifs with h1 h2 h3
  · have hascii := next?_ascii hnone (by omega : c.toNat < 0x80)
    rw [Char.ofNat_toNat] at hascii
    exact ⟨_, readBytes_ofNat (by omega) hascii⟩
  · exact ⟨_, readBytes_two c hnone (by omega) (by omega)⟩
  · exact ⟨_, readBytes_three c hnone (by omega) (by omega)⟩
  · exact ⟨_, readBytes_four c hnone (by omega)⟩

/-- The bytes of a text are read as that text. -/
theorem readBytes_encode (cs : List Char) (hnone : r.lead? = none) :
    ∃ size, readBytes r (encode cs) = (true, { chars := cs.reverse ++ r.chars, size }) := by
  induction cs generalizing r with
  | nil => exact ⟨r.size, by simp [encode, readBytes, ← hnone]⟩
  | cons c cs ih =>
    obtain ⟨size, hchar⟩ := readBytes_utf8EncodeChar c (encode cs) hnone
    obtain ⟨total, hrest⟩ := ih (r := { chars := c :: r.chars, size }) rfl
    refine ⟨total, ?_⟩
    rw [show encode (c :: cs) = String.utf8EncodeChar c ++ encode cs from rfl, hchar, hrest]
    simp

theorem encode_append (cs cs' : List Char) : encode (cs ++ cs') = encode cs ++ encode cs' :=
  List.flatMap_append

/-- A byte below `0x80` is a character of its own. -/
theorem toNat_eq_of_mem_utf8EncodeChar {c : Char} {b : UInt8} (h : b ∈ String.utf8EncodeChar c)
    (hb : b.toNat < 0x80) : c.toNat = b.toNat := by
  unfold String.utf8EncodeChar at h
  simp only [show c.val.toNat = c.toNat from rfl] at h
  split_ifs at h
  · rw [List.mem_singleton.1 h, toNat_ofNat (by omega)]
  all_goals
    -- every byte of a longer character is at least `0x80`
    simp only [List.mem_cons, List.not_mem_nil, or_false] at h
    rcases h with rfl | rfl | rfl | rfl <;> rw [toNat_ofNat (by omega)] at hb <;> omega

theorem decode_encode (cs : List Char) : decode (encode cs) = .ok cs := by
  obtain ⟨size, h⟩ := readBytes_encode (r := {}) cs rfl
  simp [decode, h]

end Rendezvous.Text
