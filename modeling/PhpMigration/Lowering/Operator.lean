/-
The operators of PHP and what becomes of them.

Arithmetic and comparison keep their symbols, and the concatenating dot becomes a plus.  An
operator without a counterpart becomes a plus, or the logical conjunction where a logical
operator is expected, so that the result can always be read.
-/

namespace PhpMigration.Lowering

/-- The operators of arithmetic, comparison and concatenation. -/
def binaryOperators : List (String × String) :=
  [("+", "+"), ("-", "-"), ("*", "*"), ("/", "/"), ("%", "%"),
    ("==", "=="), ("===", "==="), ("!=", "!="), ("!==", "!=="),
    ("<", "<"), (">", ">"), ("<=", "<="), (">=", ">="), (".", "+")]

/-- The operators that may leave their second operand alone. -/
def logicalOperators : List (String × String) := [("&&", "&&"), ("||", "||")]

/-- The operator is in the logical table. -/
def isLogical (operator : String) : Bool := (logicalOperators.lookup operator).isSome

/-- An operator of arithmetic or comparison, a plus if it has no counterpart. -/
def mapBinary (operator : String) : String := (binaryOperators.lookup operator).getD "+"

/-- A logical operator, the conjunction if it has no counterpart. -/
def mapLogical (operator : String) : String := (logicalOperators.lookup operator).getD "&&"

/-- The operator of an assignment: a compound one keeps its equals sign behind the operator that
its stem becomes. -/
def mapAssignment (operator : String) : String :=
  if operator = "" || operator = "=" then "="
  else mapBinary (String.ofList operator.toList.dropLast) ++ "="

end PhpMigration.Lowering
