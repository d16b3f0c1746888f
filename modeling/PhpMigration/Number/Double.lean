/-
Double-precision numbers as exact values.

A finite double is a sign, a mantissa and a power of two, so every operation is exact
arithmetic followed by one rounding, and every comparison is a comparison of integers.  The
representation is canonical when it is built by `ofRatio`: the mantissa has 53 bits unless the
exponent is the least one, so equal doubles other than the two zeros are equal terms.
-/

namespace PhpMigration

/-- A double; the value of a finite one is `± mantissa · 2 ^ exponent`. -/
inductive Double where
  | nan
  | infinite (negative : Bool)
  | finite (negative : Bool) (mantissa : Nat) (exponent : Int)
  deriving DecidableEq, Repr, Inhabited

namespace Double

/-- The exponent of the smallest double. -/
def minExponent : Int := -1074

/-- The exponent of the largest double. -/
def maxExponent : Int := 971

/-- A mantissa stays below this bound. -/
def mantissaBound : Nat := Nat.pow 2 53

/-- The quotient rounded to the nearest integer, a half to the even one. -/
def roundQuotient (num den : Nat) : Nat :=
  let q := num / den
  let r := num % den
  if 2 * r < den then q else if den < 2 * r then q + 1 else q + q % 2

/-- The ratio `num / den` divided by `2 ^ exponent`, as a ratio. -/
def scaleDown (num den : Nat) (exponent : Int) : Nat × Nat :=
  let power := Nat.pow 2 exponent.natAbs
  if exponent < 0 then (num * power, den) else (num, den * power)

/-- A mantissa that rounding has carried to 54 bits is halved. -/
def carry (negative : Bool) (mantissa : Nat) (exponent : Int) : Double :=
  let (m, e) :=
    if mantissa = mantissaBound then (mantissaBound / 2, exponent + 1) else (mantissa, exponent)
  if maxExponent < e then .infinite negative else .finite negative m e

/-- The double nearest to `± num / den`, a half going to the even mantissa. -/
def ofRatio (negative : Bool) (num den : Nat) : Double :=
  if num = 0 then .finite negative 0 minExponent
  else
    let low : Int := (num.log2 : Int) - den.log2 - 53
    let (n, d) := scaleDown num den low
    let e := max (if n / d < mantissaBound then low else low + 1) minExponent
    let (n, d) := scaleDown num den e
    carry negative (roundQuotient n d) e

/-- The double nearest to an integer. -/
def ofInt (n : Int) : Double := ofRatio (n < 0) n.natAbs 1

/-- The exact value of a finite double as numerator and denominator. -/
def ratio (mantissa : Nat) (exponent : Int) : Nat × Nat :=
  let power := Nat.pow 2 exponent.natAbs
  if exponent < 0 then (mantissa, power) else (mantissa * power, 1)

/-- A sign put before a natural number. -/
def signed (negative : Bool) (n : Nat) : Int := if negative then -n else n

/-- The exact value of a finite double as a signed numerator and a denominator. -/
def value? : Double → Option (Int × Nat)
  | .finite negative m e => let (n, d) := ratio m e; some (signed negative n, d)
  | _ => none

/-- Minus infinity, or the double nearest to an exact value whose sign is kept for zero. -/
def ofExact (zeroNegative : Bool) (num : Int) (den : Nat) : Double :=
  if num = 0 then .finite zeroNegative 0 minExponent else ofRatio (num < 0) num.natAbs den

/-- The double with the other sign. -/
def neg : Double → Double
  | .nan => .nan
  | .infinite negative => .infinite !negative
  | .finite negative m e => .finite (!negative) m e

/-- The sign bit; a nan has none. -/
def isNegative : Double → Bool
  | .nan => false
  | .infinite negative => negative
  | .finite negative _ _ => negative

/-- Zero, of either sign. -/
def isZero : Double → Bool
  | .finite _ m _ => m = 0
  | _ => false

/-- The sum, rounded once. -/
def add (a b : Double) : Double :=
  match a, b with
  | .nan, _ => .nan
  | _, .nan => .nan
  | .infinite s, .infinite t => if s = t then .infinite s else .nan
  | .infinite s, .finite .. => .infinite s
  | .finite .., .infinite t => .infinite t
  | .finite s m e, .finite t k f =>
    let (n, d) := ratio m e
    let (p, q) := ratio k f
    ofExact (s && t) (signed s (n * q) + signed t (p * d)) (d * q)

/-- The difference, rounded once. -/
def sub (a b : Double) : Double := add a b.neg

/-- The product, rounded once. -/
def mul (a b : Double) : Double :=
  match a, b with
  | .nan, _ => .nan
  | _, .nan => .nan
  | .infinite s, .infinite t => .infinite (s != t)
  | .infinite s, .finite t m _ => if m = 0 then .nan else .infinite (s != t)
  | .finite s m _, .infinite t => if m = 0 then .nan else .infinite (s != t)
  | .finite s m e, .finite t k f =>
    let (n, d) := ratio m e
    let (p, q) := ratio k f
    ofRatio (s != t) (n * p) (d * q)

/-- Strictly less; a nan is neither less nor greater than anything. -/
def lt (a b : Double) : Bool :=
  match a, b with
  | .nan, _ => false
  | _, .nan => false
  | .infinite s, .infinite t => s && !t
  | .infinite s, .finite .. => s
  | .finite .., .infinite t => !t
  | .finite s m e, .finite t k f =>
    let (n, d) := ratio m e
    let (p, q) := ratio k f
    decide (signed s (n * q) < signed t (p * d))

/-- Toward zero, for a finite double. -/
def truncate? : Double → Option Int
  | .finite negative m e => let (n, d) := ratio m e; some (signed negative (n / d))
  | _ => none

/-- The value, if it is an integer. -/
def toInt? : Double → Option Int
  | .finite negative m e =>
    let (n, d) := ratio m e
    if n % d = 0 then some (signed negative (n / d)) else none
  | _ => none

end Double

end PhpMigration
