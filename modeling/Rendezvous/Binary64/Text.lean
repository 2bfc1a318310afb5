import Rendezvous.Binary64.Shortest

/-!
# Floating point numbers as text

`read?` reads a decimal text.  `plain` writes a number without an exponent, however long that is;
`pointed` always writes a decimal point; `compact` writes very large and very small numbers with an
exponent.
-/

namespace Rendezvous.Binary64

/-! ### Reading -/

/-- The value of decimal digits. -/
def digitsValue (cs : List Char) : Nat := cs.foldl (fun n c => 10 * n + (c.toNat - '0'.toNat)) 0

/-- A sign, if there is one, and the rest. -/
def splitSign : List Char → Bool × List Char
  | '-' :: cs => (true, cs)
  | '+' :: cs => (false, cs)
  | cs => (false, cs)

/-- The value of a signed whole number. -/
def exponent? (cs : List Char) : Option Int :=
  let (negative, digits) := splitSign cs
  if digits.isEmpty || !digits.all Char.isDigit then none
  else some (if negative then -(digitsValue digits : Int) else digitsValue digits)

/-- The digits after a point and what follows them. -/
def fraction : List Char → List Char × List Char
  | '.' :: cs => cs.span Char.isDigit
  | cs => ([], cs)

/-- A text of small letters that stands for a value without digits. -/
def word? (negative : Bool) (cs : List Char) : Option Binary64 :=
  let name := String.ofList cs
  if name = "inf" || name = "infinity" then some (.infinite negative)
  else if name = "nan" then some .nan
  else none

/-- The number that a text without a sign stands for. -/
def unsigned? (negative : Bool) (cs : List Char) : Option Binary64 :=
  let (whole, rest) := cs.span Char.isDigit
  let (part, rest) := fraction rest
  if whole.isEmpty && part.isEmpty then word? negative (cs.map Char.toLower)
  else
    let value (e : Int) : Binary64 :=
      ofDecimal negative (digitsValue (whole ++ part)) (e - part.length)
    match rest with
    | [] => some (value 0)
    | c :: rest => if c = 'e' || c = 'E' then (exponent? rest).map value else none

/-- The number nearest to a decimal text: a sign, digits with or without a point, an exponent. -/
def read? (cs : List Char) : Option Binary64 :=
  let (negative, cs) := splitSign cs
  unsigned? negative cs

/-! ### Writing -/

/-- Digits without the zeros at their end, and how many there were. -/
def trimZeros (ds : List Char) : List Char := (ds.reverse.dropWhile (· = '0')).reverse

/-- Zeros. -/
def zeros (n : Nat) : List Char := List.replicate n '0'

/-- The significant digits of a number of units, and how many of them stand before the point. -/
def significant (tie : Tie) (units : Nat) : List Char × Int :=
  let d := shortest tie units
  let ds := Nat.toDigits 10 d.digits
  (trimZeros ds, (ds.length : Int) + d.exponent)

/-- Digits with the point after the first `before`, and with `whole` for a missing fraction. -/
def positional (ds : List Char) (before : Int) (whole : List Char) : List Char :=
  if before ≤ 0 then ['0', '.'] ++ zeros before.natAbs ++ ds
  else if (ds.length : Int) ≤ before then ds ++ zeros (before.natAbs - ds.length) ++ whole
  else ds.take before.natAbs ++ ['.'] ++ ds.drop before.natAbs

/-- The sign of a number. -/
def sign (negative : Bool) : List Char := if negative then ['-'] else []

/-- Zero or the digits of a number of units, without an exponent. -/
def positionalUnits (tie : Tie) (units : Nat) (whole : List Char) : List Char :=
  if units = 0 then '0' :: whole
  else
    let (ds, before) := significant tie units
    positional ds before whole

/-- A number that is not finite, in words. -/
def infiniteWord (negative : Bool) : String := if negative then "-inf" else "inf"

/-- A number without an exponent; a whole number has no point. -/
def plain : Binary64 → String
  | .finite negative units => String.ofList (sign negative ++ positionalUnits .larger units [])
  | .infinite negative => infiniteWord negative
  | .nan => "NaN"

/-- A number without an exponent; a whole number has a point too. -/
def pointed : Binary64 → String
  | .finite negative units =>
      String.ofList (sign negative ++ positionalUnits .larger units ['.', '0'])
  | x => x.plain

/-- The digits of an exponent, at least two. -/
def exponentDigits (e : Int) : List Char :=
  let ds := Nat.toDigits 10 e.natAbs
  (if e < 0 then '-' else '+') :: (if ds.length < 2 then '0' :: ds else ds)

/-- A number with a point or with an exponent: the latter from `10¹⁶` on and below `10⁻⁵`. -/
def compact : Binary64 → String
  | .finite negative units =>
      let (ds, before) := significant .even units
      let e := before - 1
      String.ofList <| sign negative ++
        if units = 0 || (-5 ≤ e && e ≤ 15) then positionalUnits .even units ['.', '0']
        else
          (match ds with
            | [d] => [d]
            | ds => positional ds 1 []) ++ 'e' :: exponentDigits e
  | x => x.plain

end Rendezvous.Binary64
