/-
The shortest decimal text of a double.

A decimal reads back as a double exactly when it lies in the interval of reals that round to
it; the ends belong to the interval when the mantissa is even.  If any decimal with a given
number of digits lies in the interval, then so does one of the double's two neighbours on that
decimal grid.  So the search goes through the grids with one digit, two digits and so on, tests
the two neighbours in exact arithmetic, and takes the first grid with a hit and the nearer of
two hits.  Seventeen digits always suffice.

The text is positional when the decimal exponent lies between -4 and 15, always with a point,
and otherwise in the form `d.ddde+XX` with at least two digits in the exponent.
-/
import PhpMigration.Number.Double

namespace PhpMigration

/-- The decimal `digits · 10 ^ exponent`. -/
structure Decimal where
  digits : Nat
  exponent : Int
  deriving DecidableEq, Repr, Inhabited

namespace Double

/-- The factors by which a decimal exponent multiplies the numerator and the denominator. -/
def powerOfTen (exponent : Int) : Nat × Nat :=
  let power := Nat.pow 10 exponent.natAbs
  if exponent < 0 then (1, power) else (power, 1)

/-- The reals that round to `mantissa · 2 ^ exponent`, in quarters of `2 ^ exponent`. -/
def roundingInterval (mantissa : Nat) (exponent : Int) : Nat × Nat :=
  let below := if mantissa = mantissaBound / 2 ∧ minExponent < exponent then 1 else 2
  (4 * mantissa - below, 4 * mantissa + 2)

/-- The decimal reads back as `mantissa · 2 ^ exponent`. -/
def readsBack (mantissa : Nat) (exponent : Int) (d : Decimal) : Bool :=
  let (low, high) := roundingInterval mantissa exponent
  let (num, den) := ratio 1 exponent
  let (up, down) := powerOfTen d.exponent
  let here := 4 * d.digits * up * den
  let low := low * num * down
  let high := high * num * down
  if mantissa % 2 = 0 then low ≤ here && here ≤ high else low < here && here < high

/-- Steps up from a lower bound to the exponent of the leading decimal digit of `num / den`. -/
def leadingExponentFrom (num den : Nat) : Nat → Int → Int
  | 0, e => e
  | fuel + 1, e =>
    let (up, down) := powerOfTen (e + 1)
    if up * den ≤ num * down then leadingExponentFrom num den fuel (e + 1) else e

/-- The exponent of the leading decimal digit of `num / den`.  The binary logarithms give it up
to two, because thirty thousand one hundred and three steps of ten to the minus fifth are the
decimal logarithm of two. -/
def leadingExponent (num den : Nat) : Int :=
  let estimate := (((num.log2 : Int) - den.log2 - 1) * 30103).fdiv 100000 - 1
  leadingExponentFrom num den 5 estimate

/-- The neighbour of `num / den` on the grid of a decimal exponent that reads back, if one does,
and the nearer one if both do. -/
def onGrid? (mantissa : Nat) (exponent gridExponent : Int) : Option Decimal :=
  let (num, den) := ratio mantissa exponent
  let (up, down) := powerOfTen gridExponent
  let n := num * down
  let d := den * up
  let q := n / d
  let low : Decimal := ⟨q, gridExponent⟩
  let high : Decimal := ⟨q + 1, gridExponent⟩
  match readsBack mantissa exponent low, readsBack mantissa exponent high with
  | true, true => some (if roundQuotient n d = q then low else high)
  | true, false => some low
  | false, true => some high
  | false, false => none

/-- The first hit on the grids with `used` digits and more. -/
def searchGrids (mantissa : Nat) (exponent leading : Int) : Nat → Nat → Decimal
  | 0, used => ⟨mantissa, used⟩
  | fuel + 1, used =>
    match onGrid? mantissa exponent (leading - used + 1) with
    | some d => d
    | none => searchGrids mantissa exponent leading fuel (used + 1)

/-- A decimal of the same value whose last digit is not zero. -/
def dropZeros : Nat → Decimal → Decimal
  | 0, d => d
  | fuel + 1, d =>
    if d.digits ≠ 0 ∧ d.digits % 10 = 0 then dropZeros fuel ⟨d.digits / 10, d.exponent + 1⟩ else d

/-- The shortest decimal that reads back as `mantissa · 2 ^ exponent`, which is not zero. -/
def shortest (mantissa : Nat) (exponent : Int) : Decimal :=
  let (num, den) := ratio mantissa exponent
  dropZeros 20 (searchGrids mantissa exponent (leadingExponent num den) 17 1)

/-- Digits with a point behind the first `whole` of them, filled up with zeros. -/
def positional (digits : List Char) (whole : Int) : List Char :=
  if whole ≤ 0 then '0' :: '.' :: (List.replicate whole.natAbs '0' ++ digits)
  else
    let k := whole.natAbs
    let before := digits.take k ++ List.replicate (k - digits.length) '0'
    let behind := digits.drop k
    before ++ '.' :: (if behind.isEmpty then ['0'] else behind)

/-- A decimal exponent with its sign and at least two digits. -/
def exponentText (e : Int) : List Char :=
  let digits := Nat.toDigits 10 e.natAbs
  'e' :: (if e < 0 then '-' else '+') :: (if digits.length < 2 then '0' :: digits else digits)

/-- Digits with a point behind the first, and the exponent. -/
def scientific (digits : List Char) (e : Int) : List Char :=
  match digits with
  | [] => exponentText e
  | [d] => d :: exponentText e
  | d :: rest => d :: '.' :: rest ++ exponentText e

/-- The text of a decimal: positional for exponents from -4 to 15. -/
def decimalText (d : Decimal) : List Char :=
  let digits := Nat.toDigits 10 d.digits
  let leading := d.exponent + digits.length - 1
  if -4 ≤ leading ∧ leading ≤ 15 then positional digits (leading + 1)
  else scientific digits leading

/-- The shortest text that reads back as the double. -/
def toText : Double → String
  | .nan => "nan"
  | .infinite negative => if negative then "-inf" else "inf"
  | .finite negative m e =>
    let body := if m = 0 then "0.0" else String.ofList (decimalText (shortest m e))
    if negative then "-" ++ body else body

end Double

end PhpMigration
