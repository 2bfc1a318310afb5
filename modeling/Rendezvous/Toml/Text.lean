/-!
# Texts and keys in TOML

A text stands between quotes, or between three of them if it may have several lines.  Between double
quotes a backslash escapes the next character; between single quotes nothing is escaped.  A key is a
text of one line, or bare if it has only letters, digits, dashes and underscores.

Each reader returns what it has read and the rest of the input, or nothing if the input is not well
formed.
-/

namespace Rendezvous.Toml

/-- Whether a character is a blank inside a line. -/
def isSpace (c : Char) : Bool := c = ' ' || c = '\t'

/-- The input from the next character on that is no blank. -/
def skipSpaces (cs : List Char) : List Char := cs.dropWhile isSpace

/-- Whether a character can stand in a line of text: a tab, or anything that is not a control
character. -/
def isPrintable (c : Char) : Bool := c = '\t' || (0x20 ≤ c.toNat && c.toNat ≠ 0x7F)

/-- What follows the end of a line. -/
def afterNewline? : List Char → Option (List Char)
  | '\n' :: cs => some cs
  | '\r' :: '\n' :: cs => some cs
  | _ => none

/-- The input without an end of line at its beginning. -/
def skipNewline (cs : List Char) : List Char := (afterNewline? cs).getD cs

/-- A character before a text, if there are both. -/
def cons? (c? : Option Char) (text? : Option (List Char × List Char)) :
    Option (List Char × List Char) :=
  match c?, text? with
  | some c, some (cs, rest) => some (c :: cs, rest)
  | _, _ => none

/-- The character that an escape of one letter stands for. -/
def escape? : Char → Option Char
  | 'b' => some (Char.ofNat 0x08)
  | 't' => some '\t'
  | 'n' => some '\n'
  | 'f' => some (Char.ofNat 0x0C)
  | 'r' => some '\r'
  | '"' => some '"'
  | '\\' => some '\\'
  | _ => none

/-- The value of a digit in base sixteen. -/
def hexValue? (c : Char) : Option Nat :=
  let n := c.toNat
  if '0'.toNat ≤ n && n ≤ '9'.toNat then some (n - '0'.toNat)
  else if 'a'.toNat ≤ n && n ≤ 'f'.toNat then some (n - 'a'.toNat + 10)
  else if 'A'.toNat ≤ n && n ≤ 'F'.toNat then some (n - 'A'.toNat + 10)
  else none

/-- The character with a code point, if there is one. -/
def charOfHex? (digits : List Char) : Option Char := do
  let values ← digits.mapM hexValue?
  let n := values.foldl (fun n d => 16 * n + d) 0
  if n.isValidChar then some (Char.ofNat n) else none

/-- The text after an opening double quote. -/
def basic : List Char → Option (List Char × List Char)
  | [] => none
  | '"' :: cs => some ([], cs)
  | '\\' :: 'u' :: a :: b :: c :: d :: cs => cons? (charOfHex? [a, b, c, d]) (basic cs)
  | '\\' :: 'U' :: a :: b :: c :: d :: e :: f :: g :: h :: cs =>
      cons? (charOfHex? [a, b, c, d, e, f, g, h]) (basic cs)
  | '\\' :: c :: cs => cons? (escape? c) (basic cs)
  | c :: cs => if isPrintable c then cons? (some c) (basic cs) else none

/-- The text after an opening single quote. -/
def literal : List Char → Option (List Char × List Char)
  | [] => none
  | '\'' :: cs => some ([], cs)
  | c :: cs => if isPrintable c then cons? (some c) (literal cs) else none

/-- Whether the rest of the line is blank, and there is a next one. -/
def endsLine (cs : List Char) : Bool := (afterNewline? (skipSpaces cs)).isSome

/-- The text after three double quotes.  A backslash at the end of a line takes away the blanks and
the ends of lines after it; `skipping` tells that these are being taken away. -/
def longBasic (skipping : Bool) : List Char → Option (List Char × List Char)
  | [] => none
  | '"' :: '"' :: '"' :: '"' :: '"' :: cs => some (['"', '"'], cs)
  | '"' :: '"' :: '"' :: '"' :: cs => some (['"'], cs)
  | '"' :: '"' :: '"' :: cs => some ([], cs)
  | '\\' :: 'u' :: a :: b :: c :: d :: cs =>
      cons? (charOfHex? [a, b, c, d]) (longBasic false cs)
  | '\\' :: 'U' :: a :: b :: c :: d :: e :: f :: g :: h :: cs =>
      cons? (charOfHex? [a, b, c, d, e, f, g, h]) (longBasic false cs)
  | '\\' :: c :: cs =>
      if endsLine (c :: cs) then longBasic true (c :: cs)
      else cons? (escape? c) (longBasic false cs)
  | '\r' :: '\n' :: cs =>
      if skipping then longBasic true cs else cons? (some '\n') (longBasic false cs)
  | '\n' :: cs =>
      if skipping then longBasic true cs else cons? (some '\n') (longBasic false cs)
  | c :: cs =>
      if skipping && isSpace c then longBasic true cs
      else if isPrintable c then cons? (some c) (longBasic false cs)
      else none

/-- The text after three single quotes. -/
def longLiteral : List Char → Option (List Char × List Char)
  | [] => none
  | '\'' :: '\'' :: '\'' :: '\'' :: '\'' :: cs => some (['\'', '\''], cs)
  | '\'' :: '\'' :: '\'' :: '\'' :: cs => some (['\''], cs)
  | '\'' :: '\'' :: '\'' :: cs => some ([], cs)
  | '\r' :: '\n' :: cs => cons? (some '\n') (longLiteral cs)
  | '\n' :: cs => cons? (some '\n') (longLiteral cs)
  | c :: cs => if isPrintable c then cons? (some c) (longLiteral cs) else none

/-- A text of one line, with its quotes. -/
def shortText? : List Char → Option (String × List Char)
  | '"' :: cs => (basic cs).map fun (s, rest) => (String.ofList s, rest)
  | '\'' :: cs => (literal cs).map fun (s, rest) => (String.ofList s, rest)
  | _ => none

/-- A text with its quotes. -/
def text? : List Char → Option (String × List Char)
  | '"' :: '"' :: '"' :: cs =>
      (longBasic false (skipNewline cs)).map fun (s, rest) => (String.ofList s, rest)
  | '\'' :: '\'' :: '\'' :: cs =>
      (longLiteral (skipNewline cs)).map fun (s, rest) => (String.ofList s, rest)
  | cs => shortText? cs

/-! ### Keys -/

/-- Whether a character can stand in a bare key. -/
def isBare (c : Char) : Bool := c.isAlphanum || c = '-' || c = '_'

/-- One part of a key. -/
def simpleKey? (cs : List Char) : Option (String × List Char) :=
  match shortText? cs with
  | some p => some p
  | none =>
      let (name, rest) := cs.span isBare
      if name.isEmpty then none else some (String.ofList name, rest)

/-- A key of at most `n` parts with points between them. -/
def keyParts? : Nat → List Char → Option (List String × List Char)
  | 0, _ => none
  | n + 1, cs => do
      let (name, rest) ← simpleKey? (skipSpaces cs)
      match skipSpaces rest with
      | '.' :: rest => (keyParts? n rest).map fun (names, rest) => (name :: names, rest)
      | rest => some ([name], rest)

/-- A key and what follows the blanks after it. -/
def key? (cs : List Char) : Option (List String × List Char) := keyParts? (cs.length + 1) cs

end Rendezvous.Toml
