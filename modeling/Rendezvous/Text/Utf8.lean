/-!
# UTF-8

Text is exchanged as bytes in UTF-8.  `encode` writes text; `decode` reads bytes back, or tells
where the first sequence starts that is no character: overlong sequences, surrogates and anything
above the last character are refused.
-/

namespace Rendezvous.Text

/-- The bytes of a text. -/
def encode (cs : List Char) : List UInt8 := cs.flatMap String.utf8EncodeChar

/-- The first part of a character that takes several bytes. -/
structure Lead where
  /-- The bits so far. -/
  bits : Nat
  /-- How many bytes are to come. -/
  missing : Nat
  /-- The bounds of the next byte. -/
  low : Nat := 0x80
  high : Nat := 0xBF
deriving DecidableEq, Repr

/-- The beginning of a character with a first byte from `0x80` on, if there is one. -/
def lead? (b : Nat) : Option Lead :=
  if 0xC2 ≤ b && b ≤ 0xDF then some { bits := b - 0xC0, missing := 1 }
  else if b = 0xE0 then some { bits := 0, missing := 2, low := 0xA0 }
  else if b = 0xED then some { bits := 0xD, missing := 2, high := 0x9F }
  else if 0xE1 ≤ b && b ≤ 0xEF then some { bits := b - 0xE0, missing := 2 }
  else if b = 0xF0 then some { bits := 0, missing := 3, low := 0x90 }
  else if 0xF1 ≤ b && b ≤ 0xF3 then some { bits := b - 0xF0, missing := 3 }
  else if b = 0xF4 then some { bits := 4, missing := 3, high := 0x8F }
  else none

/-- A beginning with one more byte, if the byte fits. -/
def Lead.extend? (l : Lead) (b : Nat) : Option Lead :=
  if l.low ≤ b && b ≤ l.high then
    some { bits := 64 * l.bits + (b - 0x80), missing := l.missing - 1 }
  else none

/-- What has been read of some bytes. -/
structure Reading where
  /-- The characters so far, latest first. -/
  chars : List Char := []
  /-- How many bytes they take. -/
  size : Nat := 0
  /-- How many bytes of an unfinished character have been read, and what they say. -/
  lead? : Option (Nat × Lead) := none

/-- Reads one more byte, unless it fits nowhere. -/
def Reading.next? (r : Reading) (b : Nat) : Option Reading :=
  match r.lead? with
  | none =>
      if b < 0x80 then some { chars := Char.ofNat b :: r.chars, size := r.size + 1 }
      else (Text.lead? b).map fun l => { r with lead? := some (1, l) }
  | some (n, l) =>
      (l.extend? b).map fun l =>
        if l.missing = 0 then { chars := Char.ofNat l.bits :: r.chars, size := r.size + n + 1 }
        else { r with lead? := some (n + 1, l) }

/-- Reads bytes as far as they are text; tells whether that is all of them. -/
def readBytes : Reading → List UInt8 → Bool × Reading
  | r, [] => (r.lead?.isNone, r)
  | r, b :: bs =>
      match r.next? b.toNat with
      | some r => readBytes r bs
      | none => (false, r)

/-- The text that the bytes are, or how many of them are text before something that is not. -/
def decode (bs : List UInt8) : Except Nat (List Char) :=
  let (all, r) := readBytes {} bs
  if all then .ok r.chars.reverse else .error r.size

/-- The text that the bytes are; what follows the text is shown as one replacement character. -/
def decodeLossy (bs : List UInt8) : List Char :=
  let (all, r) := readBytes {} bs
  if all then r.chars.reverse else (Char.ofNat 0xFFFD :: r.chars).reverse

end Rendezvous.Text
