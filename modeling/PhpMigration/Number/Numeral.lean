/-
Numbers as programs write them: an integer of any size, a double, or a truth value that stands
for zero or one.

An operation on integers stays an integer; as soon as one side is a double, so is the result.
Comparisons are exact whatever the sides are.
-/
import PhpMigration.Number.Reading

namespace PhpMigration

/-- A number, which remembers whether it was written as an integer or as a double. -/
inductive Numeral where
  | int (n : Int)
  | double (d : Double)
  | truth (b : Bool)
  deriving DecidableEq, Repr, Inhabited

namespace Numeral

instance (n : Nat) : OfNat Numeral n := ⟨.int n⟩

/-- The integer or the double that a number stands for. -/
def cases (x : Numeral) : Int ⊕ Double :=
  match x with
  | .int n => .inl n
  | .truth b => .inl (if b then 1 else 0)
  | .double d => .inr d

/-- The number is no integer that is too long to be written. -/
def isWritable : Numeral → Bool
  | .int n => isShort n
  | .double _ | .truth _ => true

/-- The number as a double. -/
def toDouble (x : Numeral) : Double :=
  match x.cases with
  | .inl n => .ofInt n
  | .inr d => d

/-- An operation on integers or on doubles. -/
def lift (onInt : Int → Int → Int) (onDouble : Double → Double → Double) (x y : Numeral) :
    Numeral :=
  match x.cases, y.cases with
  | .inl m, .inl n => .int (onInt m n)
  | _, _ => .double (onDouble x.toDouble y.toDouble)

/-- The sum. -/
def add (x y : Numeral) : Numeral := lift (· + ·) Double.add x y

/-- The difference. -/
def sub (x y : Numeral) : Numeral := lift (· - ·) Double.sub x y

/-- The product. -/
def mul (x y : Numeral) : Numeral := lift (· * ·) Double.mul x y

/-- An integer compared with a double, exactly. -/
def intLt (n : Int) : Double → Bool
  | .nan => false
  | .infinite negative => !negative
  | .finite negative m e =>
    let (p, q) := Double.ratio m e
    decide (n * q < Double.signed negative p)

/-- A double compared with an integer, exactly. -/
def ltInt : Double → Int → Bool
  | .nan, _ => false
  | .infinite negative, _ => negative
  | .finite negative m e, n =>
    let (p, q) := Double.ratio m e
    decide (Double.signed negative p < n * q)

/-- Strictly less, exactly. -/
def lt (x y : Numeral) : Bool :=
  match x.cases, y.cases with
  | .inl m, .inl n => decide (m < n)
  | .inl m, .inr d => intLt m d
  | .inr d, .inl n => ltInt d n
  | .inr d, .inr e => d.lt e

/-- The number is no number. -/
def isNan (x : Numeral) : Bool := x = .double .nan

/-- Less or equal, exactly. -/
def le (x y : Numeral) : Bool := !x.isNan && !y.isNan && !y.lt x

/-- The second number if it is less, otherwise the first. -/
def min (x y : Numeral) : Numeral := if y.lt x then y else x

/-- The second number if it is greater, otherwise the first. -/
def max (x y : Numeral) : Numeral := if x.lt y then y else x

/-- Toward zero; a nan and the infinities have no integer. -/
def truncate? (x : Numeral) : Option Int :=
  match x.cases with
  | .inl n => some n
  | .inr d => d.truncate?

/-- Zero, of either kind. -/
def isZero (x : Numeral) : Bool :=
  match x.cases with
  | .inl n => n = 0
  | .inr d => d.isZero

end Numeral

end PhpMigration
