/-
Quotients of doubles, rounded down.

The remainder of a division is exact.  It is taken off before the division, so that the quotient
is close to a whole number; a remainder that points away from the divisor takes one more off.
-/
import PhpMigration.Number.Double

namespace PhpMigration.Double

/-- The quotient, rounded once. -/
def div (a b : Double) : Double :=
  match a, b with
  | .nan, _ => .nan
  | _, .nan => .nan
  | .infinite _, .infinite _ => .nan
  | .infinite s, .finite t _ _ => .infinite (s != t)
  | .finite s _ _, .infinite t => .finite (s != t) 0 minExponent
  | .finite s m e, .finite t k f =>
    if k = 0 then if m = 0 then .nan else .infinite (s != t)
    else
      let (n, d) := ratio m e
      let (p, q) := ratio k f
      ofRatio (s != t) (n * q) (d * p)

/-- What a division toward zero leaves over; it has the sign of the dividend. -/
def remainder (a b : Double) : Double :=
  match a, b with
  | .finite s m e, .finite _ k f =>
    if k = 0 then .nan
    else
      let (n, d) := ratio m e
      let (p, q) := ratio k f
      ofRatio s (n * q % (p * d)) (d * q)
  | .finite .., .infinite _ => a
  | _, _ => .nan

/-- The greatest whole number that is not greater. -/
def floor : Double → Double
  | .finite negative m e =>
    let (n, d) := ratio m e
    ofExact negative (signed negative n / d) 1
  | a => a

/-- The quotient rounded down. -/
def floorDiv (a b : Double) : Double :=
  let zero := ofInt 0
  let left := a.remainder b
  let quotient := (a.sub left).div b
  let quotient :=
    if !left.isZero && (b.lt zero != left.lt zero) then quotient.sub (ofInt 1) else quotient
  if quotient.isZero then .finite (a.div b).isNegative 0 minExponent
  else
    let below := quotient.floor
    if (ofRatio false 1 2).lt (quotient.sub below) then below.add (ofInt 1) else below

end PhpMigration.Double
