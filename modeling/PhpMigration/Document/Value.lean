/-
Values of documents: configurations, request bodies and reports are trees of these.

A value is nothing, a truth value, a number, a text, a list or an object, whose members keep the
order in which they were written.
-/
import PhpMigration.Number.Numeral
import PhpMigration.Table

namespace PhpMigration

/-- A value of a document. -/
inductive Value where
  | null
  | flag (value : Bool)
  | number (value : Numeral)
  | text (value : String)
  | list (items : List Value)
  | object (members : List (String × Value))
  deriving Repr, Inhabited

namespace Value

/-! ### Equality -/

mutual

/-- Whether two values are the same. -/
def decEq : (a b : Value) → Decidable (a = b)
  | .null, b => match b with
    | .null => isTrue rfl
    | .flag _ | .number _ | .text _ | .list _ | .object _ => isFalse nofun
  | .flag x, b => match b with
    | .flag y => decidable_of_iff (x = y) (by simp)
    | .null | .number _ | .text _ | .list _ | .object _ => isFalse nofun
  | .number x, b => match b with
    | .number y => decidable_of_iff (x = y) (by simp)
    | .null | .flag _ | .text _ | .list _ | .object _ => isFalse nofun
  | .text x, b => match b with
    | .text y => decidable_of_iff (x = y) (by simp)
    | .null | .flag _ | .number _ | .list _ | .object _ => isFalse nofun
  | .list xs, b => match b with
    | .list ys => have := decEqItems xs ys; decidable_of_iff (xs = ys) (by simp)
    | .null | .flag _ | .number _ | .text _ | .object _ => isFalse nofun
  | .object xs, b => match b with
    | .object ys => have := decEqMembers xs ys; decidable_of_iff (xs = ys) (by simp)
    | .null | .flag _ | .number _ | .text _ | .list _ => isFalse nofun

/-- Whether two lists of values are the same. -/
def decEqItems : (xs ys : List Value) → Decidable (xs = ys)
  | [], ys => match ys with
    | [] => isTrue rfl
    | _ :: _ => isFalse nofun
  | x :: xs, ys => match ys with
    | [] => isFalse nofun
    | y :: ys =>
      have := decEq x y
      have := decEqItems xs ys
      decidable_of_iff (x = y ∧ xs = ys) (by simp)

/-- Whether two lists of members are the same. -/
def decEqMembers : (xs ys : List (String × Value)) → Decidable (xs = ys)
  | [], ys => match ys with
    | [] => isTrue rfl
    | _ :: _ => isFalse nofun
  | (m, x) :: xs, ys => match ys with
    | [] => isFalse nofun
    | (n, y) :: ys =>
      have := decEq x y
      have := decEqMembers xs ys
      decidable_of_iff ((m = n ∧ x = y) ∧ xs = ys) (by simp)

end

instance : DecidableEq Value := decEq

/-! ### Looking inside -/

/-- An empty value, a zero and nothing at all count as not given. -/
def isGiven : Value → Bool
  | .null => false
  | .flag value => value
  | .number value => !value.isZero
  | .text value => !value.isEmpty
  | .list items => !items.isEmpty
  | .object members => !members.isEmpty

/-- The members of an object; any other value has none. -/
def members : Value → Table Value
  | .object members => members
  | _ => []

/-- The items of a list; any other value has none. -/
def items : Value → List Value
  | .list items => items
  | _ => []

/-- The member of a name. -/
def member? (v : Value) (name : String) : Option Value := v.members.find? name

/-- The member of a name, or nothing. -/
def member (v : Value) (name : String) : Value := (v.member? name).getD .null

/-- The text that a value is. -/
def text? : Value → Option String
  | .text value => some value
  | _ => none

/-- The number that a value is; a truth value is zero or one. -/
def numeral? : Value → Option Numeral
  | .number value => some value
  | .flag value => some (.truth value)
  | _ => none

/-- An integer as a value. -/
def int (n : Int) : Value := .number (.int n)

end Value

end PhpMigration
