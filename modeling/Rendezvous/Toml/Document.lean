import Rendezvous.Toml.Number
import Rendezvous.Toml.Table

/-!
# TOML documents

A document is read line by line: a line is blank, has a comment, gives a value to a key, or is the
header of a table.  Arrays may go over several lines, inline tables may not.  What is not well
formed has no value at all.
-/

namespace Rendezvous.Toml

/-! ### Blanks -/

/-- Skips a comment, if there is one; nothing if it has a control character in it. -/
def skipComment? : List Char → Option (List Char)
  | '#' :: cs =>
      let (comment, rest) := cs.span fun c => c ≠ '\n' && c ≠ '\r'
      if comment.all isPrintable then some rest else none
  | cs => some cs

/-- Skips what may stand at the end of a line, and the end of the line. -/
def endLine? (cs : List Char) : Option (List Char) := do
  match ← skipComment? (skipSpaces cs) with
  | [] => some []
  | cs => afterNewline? cs

/-- Skips blanks, comments and at most `n` ends of lines. -/
def skipLines? : Nat → List Char → Option (List Char)
  | 0, cs => some cs
  | n + 1, cs => do
      let cs ← skipComment? (skipSpaces cs)
      match afterNewline? cs with
      | some cs => skipLines? n cs
      | none => some cs

/-- Skips blanks, comments and ends of lines. -/
def skipBlanks? (cs : List Char) : Option (List Char) := skipLines? (cs.length + 1) cs

/-! ### Values -/

/-- A word that stands for a value. -/
def word? : List Char → Option (Value × List Char)
  | 't' :: 'r' :: 'u' :: 'e' :: cs => some (.boolean true, cs)
  | 'f' :: 'a' :: 'l' :: 's' :: 'e' :: cs => some (.boolean false, cs)
  | 'i' :: 'n' :: 'f' :: cs => some (.real (.infinite false), cs)
  | 'n' :: 'a' :: 'n' :: cs => some (.real .nan, cs)
  | _ => none

/-- A value that contains no others. -/
def simple? : List Char → Option (Value × List Char)
  | [] => none
  | c :: cs =>
      if c = '"' || c = '\'' then (text? (c :: cs)).map fun (s, rest) => (.text s, rest)
      else if c.isDigit || c = '+' || c = '-' then number? (c :: cs)
      else word? (c :: cs)

mutual

/-- A value; `n` bounds the work. -/
def value? : Nat → List Char → Option (Value × List Char)
  | 0, _ => none
  | n + 1, '[' :: cs => (items? n cs).map fun (items, rest) => (.list items, rest)
  | n + 1, '\x7b' :: cs =>
      match skipSpaces cs with
      | '\x7d' :: rest => some (.table [], rest)
      | cs => (members? n cs []).map fun (ms, rest) => (.table (finishAll ms), rest)
  | _, cs => simple? cs

/-- The items of an array up to its end. -/
def items? : Nat → List Char → Option (List Value × List Char)
  | 0, _ => none
  | n + 1, cs => do
      match ← skipBlanks? cs with
      | ']' :: rest => some ([], rest)
      | cs =>
          let (v, rest) ← value? n cs
          match ← skipBlanks? rest with
          | ',' :: rest => (items? n rest).map fun (vs, rest) => (v :: vs, rest)
          | ']' :: rest => some ([v], rest)
          | _ => none

/-- The members of an inline table up to its end, after those in `ms`. -/
def members? : Nat → List Char → Members → Option (Members × List Char)
  | 0, _, _ => none
  | n + 1, cs, ms => do
      let (key, rest) ← key? cs
      match rest with
      | '=' :: rest =>
          let (v, rest) ← value? n (skipSpaces rest)
          let ms ← assign key v ms
          match skipSpaces rest with
          | ',' :: rest => members? n rest ms
          | '\x7d' :: rest => some (ms, rest)
          | _ => none
      | _ => none

end

/-! ### Lines -/

/-- A document as far as it has been read. -/
structure Draft where
  members : Members := []
  /-- The header of the present table. -/
  header : List String := []

/-- Reads a line that is not blank, up to where only a comment may follow. -/
def line? (d : Draft) : List Char → Option (Draft × List Char)
  | '[' :: '[' :: cs => do
      match ← key? cs with
      | (key, ']' :: ']' :: rest) =>
          return ({ members := ← openListed key d.members, header := key }, rest)
      | _ => none
  | '[' :: cs => do
      match ← key? cs with
      | (key, ']' :: rest) =>
          return ({ members := ← openTable key d.members, header := key }, rest)
      | _ => none
  | cs => do
      match ← key? cs with
      | (key, '=' :: rest) =>
          let rest := skipSpaces rest
          let (v, rest) ← value? (2 * rest.length + 2) rest
          return ({ d with members := ← within (assign key v) d.header d.members }, rest)
      | _ => none

/-- Reads at most `n` lines. -/
def lines? : Nat → Draft → List Char → Option Draft
  | 0, d, _ => some d
  | n + 1, d, cs => do
      match ← skipBlanks? cs with
      | [] => some d
      | cs =>
          let (d, rest) ← line? d cs
          lines? n d (← endLine? rest)

/-- A text without a byte order mark at its beginning. -/
def withoutMark : List Char → List Char
  | '\uFEFF' :: cs => cs
  | cs => cs

/-- The members of the table that a document is. -/
def document? (s : String) : Option (List (String × Value)) :=
  let cs := withoutMark s.toList
  (lines? (cs.length + 1) {} cs).map fun d => finishAll d.members

end Rendezvous.Toml
