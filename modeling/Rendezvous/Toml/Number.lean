import Rendezvous.Binary64.Text
import Rendezvous.Toml.Text
import Rendezvous.Toml.Value

/-!
# Numbers, dates and times in TOML

Whole numbers have at most 64 bits with a sign.  An underscore may stand between two digits.  Dates
and times of day are checked and written in one way: with a `T` between the two, capital letters,
and at most nine digits of a second.
-/

namespace Rendezvous.Toml

/-! ### Digits -/

/-- Digits without the underscores between them, if every underscore stands between two. -/
def separated? (isDigit : Char → Bool) : List Char → Option (List Char)
  | [] => none
  | [c] => if isDigit c then some [c] else none
  | c :: '_' :: cs => if isDigit c then (separated? isDigit cs).map (c :: ·) else none
  | c :: cs => if isDigit c then (separated? isDigit cs).map (c :: ·) else none

/-- The digits of a whole number: no zero comes first in a longer one. -/
def decimal? (cs : List Char) : Option (List Char) :=
  match separated? Char.isDigit cs with
  | some ('0' :: _ :: _) => none
  | ds? => ds?

/-- The value of digits in a base, at most sixteen. -/
def based? (base : Nat) (cs : List Char) : Option Nat := do
  let isDigit (c : Char) : Bool := (hexValue? c).any (· < base)
  let ds ← separated? isDigit cs
  return (ds.filterMap hexValue?).foldl (fun n d => base * n + d) 0

/-! ### Whole numbers -/

/-- A whole number, if it has at most 64 bits. -/
def bounded? (n : Int) : Option Int :=
  if -Int.pow 2 63 ≤ n && n < Int.pow 2 63 then some n else none

/-- A whole number. -/
def whole? : List Char → Option Int
  | '0' :: 'x' :: cs => do bounded? (← based? 16 cs)
  | '0' :: 'o' :: cs => do bounded? (← based? 8 cs)
  | '0' :: 'b' :: cs => do bounded? (← based? 2 cs)
  | cs => do
      let (negative, cs) := Binary64.splitSign cs
      let n := Binary64.digitsValue (← decimal? cs)
      bounded? (if negative then -(n : Int) else n)

/-! ### Floating point numbers -/

/-- The digits after the sign of an exponent. -/
def exponentText? (cs : List Char) : Option (List Char) :=
  match cs with
  | '-' :: cs => (separated? Char.isDigit cs).map ('-' :: ·)
  | '+' :: cs => separated? Char.isDigit cs
  | cs => separated? Char.isDigit cs

/-- A number without its underscores, if it has a point or an exponent. -/
def realText? (cs : List Char) : Option (List Char) := do
  let isExponent (c : Char) : Bool := c = 'e' || c = 'E'
  let (mantissa, power) := cs.span fun c => !isExponent c
  let (whole, part) := mantissa.span (· ≠ '.')
  if power.isEmpty && part.isEmpty then none
  let whole ← decimal? whole
  let part ← if part.isEmpty then some [] else (separated? Char.isDigit part.tail).map ('.' :: ·)
  let power ← if power.isEmpty then some [] else (exponentText? power.tail).map ('e' :: ·)
  return whole ++ part ++ power

/-- A number that is not too large. -/
def tame? : Binary64 → Option Binary64
  | .infinite false => none
  | x => some x

/-- A floating point number. -/
def real? (cs : List Char) : Option Binary64 :=
  let (negative, digits) := Binary64.splitSign cs
  if digits = ['i', 'n', 'f'] then some (.infinite negative)
  else if digits = ['n', 'a', 'n'] then some .nan
  else do tame? (← Binary64.unsigned? negative (← realText? digits))

/-! ### Dates and times -/

/-- The value of two digits. -/
def two? (a b : Char) : Option Nat :=
  if a.isDigit && b.isDigit then some (Binary64.digitsValue [a, b]) else none

/-- Whether a year has a day more. -/
def isLeap (year : Nat) : Bool := year % 4 = 0 && (year % 100 ≠ 0 || year % 400 = 0)

/-- How many days a month has. -/
def daysIn (year month : Nat) : Nat :=
  if month = 2 then if isLeap year then 29 else 28
  else if [4, 6, 9, 11].contains month then 30
  else 31

/-- A date and the rest. -/
def date? : List Char → Option (List Char × List Char)
  | a :: b :: c :: d :: '-' :: e :: f :: '-' :: g :: h :: cs => do
      let year := 100 * (← two? a b) + (← two? c d)
      let month ← two? e f
      let day ← two? g h
      if 1 ≤ month && month ≤ 12 && 1 ≤ day && day ≤ daysIn year month then
        some ([a, b, c, d, '-', e, f, '-', g, h], cs)
      else none
  | _ => none

/-- A part of a second, with at most nine digits and without zeros at its end. -/
def secondPart (ds : List Char) : List Char :=
  let ds := Binary64.trimZeros (ds.take 9)
  if ds.isEmpty then [] else '.' :: ds

/-- A time of day and the rest. -/
def time? : List Char → Option (List Char × List Char)
  | a :: b :: ':' :: c :: d :: ':' :: e :: f :: cs => do
      let clock := [a, b, ':', c, d, ':', e, f]
      if (← two? a b) ≤ 23 && (← two? c d) ≤ 59 && (← two? e f) ≤ 60 then
        match cs with
        | '.' :: cs =>
            let (ds, rest) := cs.span Char.isDigit
            if ds.isEmpty then none else some (clock ++ secondPart ds, rest)
        | cs => some (clock, cs)
      else none
  | _ => none

/-- The distance from universal time, if it is given. -/
def offset? : List Char → Option (List Char)
  | [] => some []
  | ['Z'] | ['z'] => some ['Z']
  | [s, a, b, ':', c, d] => do
      let hours ← two? a b
      let minutes ← two? c d
      if (s = '+' || s = '-') && hours ≤ 23 && minutes ≤ 59 then
        some ((if hours = 0 && minutes = 0 then '+' else s) :: [a, b, ':', c, d])
      else none
  | _ => none

/-- A date, a time of day, or both with a `T` or a blank between them. -/
def moment? (cs : List Char) : Option String :=
  match date? cs with
  | some (date, []) => some (String.ofList date)
  | some (date, t :: cs) =>
      if t = 'T' || t = 't' || t = ' ' then do
        let (time, rest) ← time? cs
        let offset ← offset? rest
        return String.ofList (date ++ 'T' :: time ++ offset)
      else none
  | none =>
      match time? cs with
      | some (time, []) => some (String.ofList time)
      | _ => none

/-! ### Reading -/

/-- Whether a character can stand in a number, a date or a time. -/
def isNumeric (c : Char) : Bool := c.isAlphanum || ['_', '+', '-', '.', ':'].contains c

/-- The characters of a number or a moment, and the rest; a blank may follow a date. -/
def spanNumber (cs : List Char) : List Char × List Char :=
  let (word, rest) := cs.span isNumeric
  match date? word, rest with
  | some (_, []), ' ' :: c :: more =>
      if c.isDigit then
        let (time, rest) := (c :: more).span isNumeric
        (word ++ ' ' :: time, rest)
      else (word, rest)
  | _, _ => (word, rest)

/-- A number, a date or a time, and the rest. -/
def number? (cs : List Char) : Option (Value × List Char) :=
  let (word, rest) := spanNumber cs
  let value? : Option Value :=
    ((moment? word).map .moment) <|> ((real? word).map .real) <|> ((whole? word).map .whole)
  value?.map fun v => (v, rest)

end Rendezvous.Toml
