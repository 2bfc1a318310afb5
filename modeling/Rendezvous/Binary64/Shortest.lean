import Rendezvous.Binary64

/-!
# The shortest digits of a floating point number

The digits of a number are the fewest that lie nearer to it than to any other number, and of those
the nearest to it; of two equally near a `Tie` decides.  `shortest` tries one digit, two digits and
so on, and looks at the two neighbours of the number on each decimal grid.
-/

namespace Rendezvous.Binary64

/-- Digits and a power of ten: `digits · 10 ^ exponent`. -/
structure Decimal where
  digits : Nat
  exponent : Int
deriving DecidableEq, Repr

/-- Which of two equally near texts is written. -/
inductive Tie
  | larger
  | even
deriving DecidableEq, Repr

/-- The power of ten that makes the smallest number longer than any shortest digits. -/
def scale : Nat := 340

/-- How many digits a number can need. -/
def mostDigits : Nat := 17

/-- Whether `units` is nearest to `count · 10⁻³⁴⁰`, a point half way counting as the even
neighbour's. -/
def readsBack (units count : Nat) : Bool :=
  let above := 2 * step units
  let below :=
    if units.log2 + 1 > precision && units = Nat.pow 2 units.log2 then step units else above
  let value := 4 * count * one
  let low := (4 * units - below) * Nat.pow 10 scale
  let high := (4 * units + above) * Nat.pow 10 scale
  if units / step units % 2 = 0 then low ≤ value && value ≤ high
  else low < value && value < high

/-- The nearer of the two neighbours of `units` on a grid that reads back, if one does. -/
def onGrid? (tie : Tie) (units grid : Nat) : Option Nat :=
  let below := units * Nat.pow 10 scale / (one * grid)
  let rest := units * Nat.pow 10 scale % (one * grid)
  match readsBack units (below * grid), readsBack units ((below + 1) * grid) with
  | true, true => some <|
      if 2 * rest < one * grid then below
      else if one * grid < 2 * rest then below + 1
      else match tie with
        | .larger => below + 1
        | .even => below + below % 2
  | true, false => some below
  | false, true => some (below + 1)
  | false, false => none

/-- Tries up to `n` more digits after `tried`, for a number that has `width` digits down to
`10⁻³⁴⁰`. -/
def search (tie : Tie) (units width : Nat) : Nat → Nat → Decimal
  | 0, _ => { digits := units * Nat.pow 10 scale / one, exponent := -scale }
  | n + 1, tried =>
      let dropped := width - (tried + 1)
      match onGrid? tie units (Nat.pow 10 dropped) with
      | some digits => { digits, exponent := (dropped : Int) - scale }
      | none => search tie units width n (tried + 1)

/-- The shortest digits of a number of units. -/
def shortest (tie : Tie) (units : Nat) : Decimal :=
  if units = 0 then { digits := 0, exponent := 0 }
  else search tie units (Nat.toDigits 10 (units * Nat.pow 10 scale / one)).length mostDigits 0

end Rendezvous.Binary64
