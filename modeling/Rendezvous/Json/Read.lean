import Rendezvous.Json.Quoted
import Rendezvous.Toml.Text

/-!
# Reading records of texts in JSON

`textRecord?` reads a record whose members are all texts, with any blanks between its parts, and
refuses everything else.  Inside a text a backslash escapes the next character, and control
characters have to be escaped.  A code point is given by four digits; halves of larger ones are
refused.
-/

namespace Rendezvous.Json

/-- What a letter after a backslash stands for. -/
def escape? : Char → Option Char
  | '/' => some '/'
  | c => Toml.escape? c

/-- The text after an opening quote, and what follows its closing quote. -/
def afterQuote? : List Char → Option (List Char × List Char)
  | [] => none
  | '"' :: cs => some ([], cs)
  | '\\' :: 'u' :: a :: b :: c :: d :: cs =>
      Toml.cons? (Toml.charOfHex? [a, b, c, d]) (afterQuote? cs)
  | '\\' :: c :: cs => Toml.cons? (escape? c) (afterQuote? cs)
  | c :: cs => if c.toNat < 0x20 then none else Toml.cons? (some c) (afterQuote? cs)

/-- Whether a character may stand between the parts of a value. -/
def isBlank (c : Char) : Bool := c = ' ' || c = '\t' || c = '\n' || c = '\r'

/-- The input from the next character on that is no blank. -/
def skipBlanks (cs : List Char) : List Char := cs.dropWhile isBlank

/-- What follows a character that has to come next. -/
def after? (c : Char) (cs : List Char) : Option (List Char) :=
  match skipBlanks cs with
  | c' :: rest => if c' = c then some rest else none
  | [] => none

/-- A text with its quotes. -/
def text? (cs : List Char) : Option (String × List Char) := do
  let (text, rest) ← afterQuote? (← after? '"' cs)
  return (String.ofList text, rest)

/-- A name and a text. -/
def textMember? (cs : List Char) : Option ((String × String) × List Char) := do
  let (name, rest) ← text? cs
  let (content, rest) ← text? (← after? ':' rest)
  return ((name, content), rest)

/-- At most `n` members and the brace after them. -/
def textMembers? : Nat → List Char → Option (List (String × String) × List Char)
  | 0, _ => none
  | n + 1, cs => do
      let (m, rest) ← textMember? cs
      match after? ',' rest with
      | some rest => (textMembers? n rest).map fun (ms, rest) => (m :: ms, rest)
      | none => (after? '\x7d' rest).map fun rest => ([m], rest)

/-- The members of a record, if the input is a record of texts and nothing else. -/
def textRecord? (cs : List Char) : Option (List (String × String)) := do
  let inner ← after? '\x7b' cs
  let (ms, rest) ← match after? '\x7d' inner with
    | some rest => some ([], rest)
    | none => textMembers? inner.length inner
  if (skipBlanks rest).isEmpty then some ms else none

end Rendezvous.Json
