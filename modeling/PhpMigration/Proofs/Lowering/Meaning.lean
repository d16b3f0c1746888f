/-
What imperative programs do.

A program reads and writes variables and prints values.  What the values are, which of them hold
and what the operators make of them is left open (`Interpretation`), so what is said of all
interpretations depends on none.  Programs of both languages run by the same rules: each construct
has one rule, which takes the runs of its parts, and an evaluator for a language only says which
rule a node stands for and which symbol its operator has.  Anything else is stuck.

Expressions always come to an end.  A statement may loop, so it runs with a number of rounds that
each of its loops may make; a loop that would need one more ends the run there (`Ending.exhausted`).
-/
import PhpMigration.Core.Node
import PhpMigration.JavaScript.Node
import PhpMigration.Lowering.Operator

namespace PhpMigration

namespace Meaning

/-- What the variables hold and what has been printed, the first value first. -/
structure State (V : Type) where
  store : String → V
  printed : List V

/-- A run that delivers something, or is stuck. -/
abbrev Step (V α : Type) := StateT (State V) Option α

/-- How a statement ends. -/
inductive Ending where
  | finished
  /-- A loop would have needed another round. -/
  | exhausted
  deriving DecidableEq, Repr

/-- What literals and operators mean. -/
structure Interpretation (V : Type) where
  text : String → V
  number : Numeral → V
  flag : Bool → V
  null : V
  /-- The value counts as true. -/
  truthy : V → Bool
  unary : String → V → V
  binary : String → V → V → V
  /-- What an increment or a decrement makes of a value, by its two signs. -/
  counted : String → V → V
  /-- The value of a logical operator that its first operand decides. -/
  short : String → V → V
  /-- The value of a logical operator that needs both operands. -/
  long : String → V → V → V

variable {V α : Type}

/-! ### Rules -/

def stuck : Step V α := fun _ => none

def read (name : String) : Step V V := fun s => some (s.store name, s)

def write (name : String) (value : V) : Step V Unit := fun s =>
  some ((), { s with store := fun other => if other = name then value else s.store other })

def emit (value : V) : Step V Ending := fun s =>
  some (.finished, { s with printed := s.printed ++ [value] })

/-- The steps one after another; the last one delivers the value. -/
def inOrder : List (Step V V) → Step V (Option V)
  | [] => pure none
  | step :: rest => do
    let value ← step
    let last ← inOrder rest
    pure (some (last.getD value))

/-- A value that must be there. -/
def needed : Option V → Step V V
  | some value => pure value
  | none => stuck

/-- Statements one after another, until one of them is not finished. -/
def block : List (Step V Ending) → Step V Ending
  | [] => pure .finished
  | step :: rest => do
    match ← step with
    | .finished => block rest
    | .exhausted => pure .exhausted

/-- As long as the test holds, the body and then the update, so many times at most. -/
def loop (test : Step V Bool) (body : Step V Ending) (update : Step V (Option V)) :
    (rounds : Nat) → Step V Ending
  | 0 => do if ← test then pure .exhausted else pure .finished
  | rounds + 1 => do
    if ← test then
      match ← body with
      | .finished => do
        let _ ← update
        loop test body update rounds
      | .exhausted => pure .exhausted
    else pure .finished

/-- A value is computed for what it does to the state. -/
def effect (step : Step V V) : Step V Ending := do
  let _ ← step
  pure .finished

def set (name : String) (value : Step V V) : Step V V := do
  let v ← value
  write name v
  pure v

namespace Interpretation

variable (I : Interpretation V)

def combine (symbol : String) (left right : Step V V) : Step V V := do
  let a ← left
  let b ← right
  pure (I.binary symbol a b)

/-- A conjunction needs its second operand if the first one holds, a disjunction if it does not. -/
def decide (symbol : String) (left right : Step V V) : Step V V := do
  let a ← left
  if I.truthy a = (symbol == "&&") then do
    let b ← right
    pure (I.long symbol a b)
  else pure (I.short symbol a)

def apply (symbol : String) (operand : Step V V) : Step V V := do
  let a ← operand
  pure (I.unary symbol a)

/-- The variable is read before the value is computed that it is combined with. -/
def setWith (symbol name : String) (value : Step V V) : Step V V :=
  set name (I.combine symbol (read name) value)

/-- An increment or decrement delivers the new value if its operator stands before the variable,
and the old one if it stands behind it. -/
def count (signs : String) (before : Bool) (name : String) : Step V V := do
  let old ← read name
  write name (I.counted signs old)
  pure (if before then I.counted signs old else old)

def choose (test : Step V V) (consequent alternate : Step V α) : Step V α := do
  let v ← test
  if I.truthy v then consequent else alternate

/-- The last of several tests decides, and no test holds. -/
def holds (tests : Step V (Option V)) : Step V Bool := do
  let last ← tests
  pure (last.elim true I.truthy)

/-- A loop with a head of three parts. -/
def headed (start tests update : Step V (Option V)) (body : Step V Ending) (rounds : Nat) :
    Step V Ending := do
  let _ ← start
  loop (I.holds tests) body update rounds

end Interpretation

end Meaning

open Meaning

/-! ### Core programs -/

namespace Core

variable {V : Type} (I : Interpretation V)

/-- The dot is read as a plus. -/
def symbolOf (operator : String) : String := if operator = "." then "+" else operator

/-- What an expression does. -/
def Node.evaluate : Node → Step V V
  | .string (.text value) => pure (I.text value)
  | .number (.number value) => pure (I.number value)
  | .boolean (.flag value) => pure (I.flag value)
  | .null => pure I.null
  | .variable (.text x) => read x
  | .assign (.variable (.text x)) right (.text operator) =>
    if operator = "=" then set x right.evaluate
    else I.setWith (symbolOf (String.ofList operator.toList.dropLast)) x right.evaluate
  | .binary (.text operator) left right =>
    if Lowering.isLogical operator then I.decide operator left.evaluate right.evaluate
    else I.combine (symbolOf operator) left.evaluate right.evaluate
  | .unary (.text operator) operand => I.apply operator operand.evaluate
  | .stepBefore (.text sign) (.variable (.text x)) => I.count (sign ++ sign) true x
  | .stepBehind (.text sign) (.variable (.text x)) => I.count (sign ++ sign) false x
  | .ternary test consequent alternate =>
    I.choose test.evaluate consequent.evaluate alternate.evaluate
  | _ => stuck

mutual

/-- What a statement does, its loops making at most so many rounds. -/
def Node.run (rounds : Nat) : Node → Step V Ending
  | .absent => pure .finished
  | .program body => block (runs rounds body)
  | .expressionStatement s => s.run rounds
  | .print e | .echo [e] => do emit (← e.evaluate I)
  | .ifElse test body none =>
    I.choose (test.evaluate I) (block (runs rounds body)) (pure .finished)
  | .ifElse test body (some alternate) =>
    I.choose (test.evaluate I) (block (runs rounds body)) (block (runs rounds alternate))
  | .whileLoop test body =>
    loop (I.holds (some <$> test.evaluate I)) (block (runs rounds body)) (pure none) rounds
  | .forLoop start tests update body =>
    I.headed (inOrder (start.map (Node.evaluate I))) (inOrder (tests.map (Node.evaluate I)))
      (inOrder (update.map (Node.evaluate I))) (block (runs rounds body)) rounds
  | e => effect (e.evaluate I)

/-- What each of some statements does. -/
def runs (rounds : Nat) : List Node → List (Step V Ending)
  | [] => []
  | node :: rest => node.run rounds :: runs rounds rest

end

end Core

/-! ### JavaScript programs -/

namespace JavaScript

variable {V : Type} (I : Interpretation V)

mutual

/-- What an expression does. -/
def Node.evaluate : Node → Step V V
  | .stringLiteral (.text value) => pure (I.text value)
  | .numericLiteral (.number value) => pure (I.number value)
  | .booleanLiteral (.flag value) => pure (I.flag value)
  | .nullLiteral => pure I.null
  | .identifier (.text x) => read x
  | .assignment (.text operator) (.identifier (.text x)) right =>
    if operator = "=" then set x right.evaluate
    else I.setWith (String.ofList operator.toList.dropLast) x right.evaluate
  | .binary (.text operator) left right => I.combine operator left.evaluate right.evaluate
  | .logical (.text operator) left right => I.decide operator left.evaluate right.evaluate
  | .unary (.text operator) operand => I.apply operator operand.evaluate
  | .update (.text operator) (.identifier (.text x)) before => I.count operator before x
  | .conditional test consequent alternate =>
    I.choose test.evaluate consequent.evaluate alternate.evaluate
  | .sequence expressions => do needed (← inOrder (evaluations expressions))
  | _ => stuck

/-- What each of some expressions does. -/
def evaluations : List Node → List (Step V V)
  | [] => []
  | node :: rest => node.evaluate :: evaluations rest

end

/-- A part in the head of a loop, which need not be there. -/
def Node.evaluatePart (node : Node) : Step V (Option V) :=
  if node.isPresent then some <$> node.evaluate I else pure none

/-- What the call writes to the console, if it is one that writes a value there. -/
def Node.logged? : Node → Option Node
  | .call (.member (.identifier (.text object)) (.identifier (.text name)) false) [argument] =>
    if object = "console" ∧ name = "log" then some argument else none
  | _ => none

mutual

/-- What a statement does, its loops making at most so many rounds. -/
def Node.run (rounds : Nat) : Node → Step V Ending
  | .absent => pure .finished
  | .program body | .block body => block (runs rounds body)
  | .expressionStatement e =>
    match e.logged? with
    | some argument => do emit (← argument.evaluate I)
    | none => effect (e.evaluate I)
  | .ifStatement test consequent alternate =>
    I.choose (test.evaluate I) (consequent.run rounds) (alternate.run rounds)
  | .whileStatement test body =>
    loop (I.holds (some <$> test.evaluate I)) (body.run rounds) (pure none) rounds
  | .forStatement start tests after body =>
    I.headed (start.evaluatePart I) (tests.evaluatePart I) (after.evaluatePart I)
      (body.run rounds) rounds
  | _ => stuck

/-- What each of some statements does. -/
def runs (rounds : Nat) : List Node → List (Step V Ending)
  | [] => []
  | node :: rest => node.run rounds :: runs rounds rest

end

end JavaScript

end PhpMigration
