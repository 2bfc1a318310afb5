/-!
# Floating point numbers

A 64-bit floating point number is a whole multiple of the smallest positive one, `2⁻¹⁰⁷⁴`, with at
most 53 significant binary digits; beside these there are two infinities and the value that is no
number.  Counting in that unit keeps every step exact: nothing here uses machine floating point.
-/

namespace Rendezvous

/-- A 64-bit floating point number. -/
inductive Binary64
  /-- A multiple of `2⁻¹⁰⁷⁴`; zero has a sign too. -/
  | finite (negative : Bool) (units : Nat)
  | infinite (negative : Bool)
  | nan
deriving DecidableEq, Repr

namespace Binary64

/-- How many units make one. -/
def one : Nat := Nat.pow 2 1074

/-- How many binary digits a number can have. -/
def precision : Nat := 53

/-- The first number of units that is too large. -/
def limit : Nat := Nat.pow 2 2098

/-- The distance between neighbours around a number of units. -/
def step (units : Nat) : Nat :=
  if units < Nat.pow 2 precision then 1 else Nat.pow 2 (units.log2 + 1 - precision)

/-- The whole number nearest to a quotient, the even one of two. -/
def nearestEven (num den : Nat) : Nat :=
  let q := num / den
  let twice := 2 * (num % den)
  if twice < den then q
  else if den < twice then q + 1
  else q + q % 2

/-- The number nearest to a quotient, the even one of two. -/
def ofQuotient (negative : Bool) (num den : Nat) : Binary64 :=
  let s := step (num * one / den)
  let units := nearestEven (num * one) (den * s) * s
  if units < limit then .finite negative units else .infinite negative

/-- The decimal exponent beyond which only zero and infinity are near. -/
def farExponent : Nat := 400

/-- The number nearest to `digits · 10 ^ exponent`. -/
def ofDecimal (negative : Bool) (digits : Nat) (exponent : Int) : Binary64 :=
  let leading := ((Nat.toDigits 10 digits).length : Int) + exponent
  if digits = 0 || leading < -farExponent then .finite negative 0
  else if leading > farExponent then .infinite negative
  else if exponent < 0 then ofQuotient negative digits (Nat.pow 10 exponent.natAbs)
  else ofQuotient negative (digits * Nat.pow 10 exponent.natAbs) 1

/-- Whether the number is a zero. -/
def isZero : Binary64 → Bool
  | .finite _ 0 => true
  | _ => false

/-- The whole number nearest to a number of units, the larger one of two. -/
def roundedUnits (units : Nat) : Nat := (2 * units + one) / (2 * one)

/-- The nearest whole number from zero to `top`; no number at all is zero. -/
def clampRound (top : Nat) : Binary64 → Nat
  | .finite false units => min (roundedUnits units) top
  | .infinite false => top
  | .finite true _ | .infinite true | .nan => 0

end Binary64

end Rendezvous
