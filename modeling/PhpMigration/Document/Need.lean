/-
Taking from a document what is needed.

A document may hold anything anywhere, so a value may be of no use in its place.  What is wrong
with it then is a misfit: members are asked of what has none, a number of what is none, or the
value is of a kind that cannot stand there at all.
-/
import PhpMigration.Document.Value
import PhpMigration.Number.Quotient
import PhpMigration.Text.Cited

namespace PhpMigration

/-- Why a value is of no use in its place. -/
inductive Misfit where
  /-- A member is asked of a value that is no object. -/
  | noMembers
  /-- A value of another kind is needed. -/
  | wrongKind
  /-- The text denotes no double. -/
  | noDouble (text : String)
  /-- The text is not read as an integer. -/
  | misread (misread : Misread)
  /-- The double is no number. -/
  | notFinite (number : Bool)
  /-- The integer is too large for a double. -/
  | tooLarge
  /-- Members are read from pairs, and the item at the position has another length. -/
  | noPair (position length : Nat)
  deriving DecidableEq, Repr, Inhabited

/-- The wording of a misfit, where it has one. -/
def Misfit.message? : Misfit → Option String
  | .noMembers | .wrongKind => none
  | .noDouble text => some ("could not convert string to float: " ++ Text.cite text)
  | .misread m => some m.message
  | .notFinite true => some "cannot convert float infinity to integer"
  | .notFinite false => some "cannot convert float NaN to integer"
  | .tooLarge => some "int too large to convert to float"
  | .noPair position length =>
    some s!"dictionary update sequence element #{position} has length {length}; 2 is required"

namespace Value

/-- The members of a value that must be an object. -/
def needMembers : Value → Except Misfit (Table Value)
  | .object members => pure members
  | _ => throw .noMembers

/-- The member of a value that must be an object, or the default if it is not there. -/
def needMember (v : Value) (name : String) (default : Value) : Except Misfit Value :=
  return ((← v.needMembers).find? name).getD default

/-- The value, or the default if it is not given. -/
def orElse (v default : Value) : Value := if v.isGiven then v else default

/-- The items of a value that can be gone through: those of a list, the characters of a text, the
names of an object. -/
def needItems : Value → Except Misfit (List Value)
  | .list items => pure items
  | .text s => pure (s.toList.map fun c => .text (String.singleton c))
  | .object members => pure (members.map fun entry => .text entry.1)
  | _ => throw .wrongKind

/-- The integer that a number is, toward zero. -/
def integerOfNumeral (x : Numeral) : Except Misfit Int :=
  match x.truncate?, x with
  | some n, _ => pure n
  | none, .double .nan => throw (.notFinite false)
  | none, _ => throw (.notFinite true)

/-- The integer that a value denotes; a text is read. -/
def needInteger : Value → Except Misfit Int
  | .text s => (readInteger s).mapError .misread
  | v => match v.numeral? with
    | some x => integerOfNumeral x
    | none => throw .wrongKind

/-- The double nearest to a number; an integer must not be too large. -/
def doubleOfNumeral (x : Numeral) : Except Misfit Double :=
  match x.cases with
  | .inr d => pure d
  | .inl n => match Double.ofInt n with
    | .infinite _ => throw .tooLarge
    | d => pure d

/-- The double that a value denotes; a text is read. -/
def needDouble : Value → Except Misfit Double
  | .text s => match Double.ofText? s with
    | some d => pure d
    | none => throw (.noDouble s)
  | v => match v.numeral? with
    | some x => doubleOfNumeral x
    | none => throw .wrongKind

/-- The text that a value must be. -/
def needText : Value → Except Misfit String
  | .text s => pure s
  | _ => throw .wrongKind

/-- The text of a value that is asked for what only texts have. -/
def needWords : Value → Except Misfit String
  | .text s => pure s
  | _ => throw .noMembers

/-- The number that a value must be. -/
def needNumeral (v : Value) : Except Misfit Numeral :=
  match v.numeral? with
  | some x => pure x
  | none => throw .wrongKind

/-- The first value is less than the second; numbers are compared, and texts. -/
def isLess : Value → Value → Except Misfit Bool
  | .text s, .text t => pure (decide (s < t))
  | v, w => return (← v.needNumeral).lt (← w.needNumeral)

/-- The second value if it is less, otherwise the first. -/
def lesser (v w : Value) : Except Misfit Value := return if ← w.isLess v then w else v

/-- The second value if it is greater, otherwise the first. -/
def greater (v w : Value) : Except Misfit Value := return if ← v.isLess w then w else v

/-- The quotient of two numbers rounded down, which is a double as soon as one of them is. -/
def floorQuotient (x y : Numeral) : Except Misfit Numeral :=
  match x.cases, y.cases with
  | .inl m, .inl n => pure (.int (m / n))
  | _, _ => return .double ((← doubleOfNumeral x).floorDiv (← doubleOfNumeral y))

/-- A name may be written as any value that never changes. -/
def needName : Value → Except Misfit String
  | .text s => pure s
  | .null => pure "null"
  | .flag b => pure (if b then "true" else "false")
  | .number x => pure (match x with
    | .int n => toString n
    | .truth b => if b then "true" else "false"
    | .double d => d.toText)
  | .list _ | .object _ => throw .wrongKind

/-- The name and the value that the item at a position gives. -/
def needPair (position : Nat) (item : Value) : Except Misfit (String × Value) := do
  match ← item.needItems with
  | [name, value] => return (← name.needName, value)
  | items => throw (.noPair position items.length)

/-- The members that a value gives: its own, or those that its items name in pairs. -/
def needTable : Value → Except Misfit (Table Value)
  | .object members => pure members
  | v => do
    let items ← v.needItems
    items.zipIdx.mapM fun (item, position) => needPair position item

/-- The table with the members that a value gives filed in it, of which there are none if it is not
given. -/
def needUpdate (t : Table Value) (v : Value) : Except Misfit (Table Value) := do
  if v.isGiven then return t.update (← v.needTable) else return t

end Value

end PhpMigration
