/-
Rules of the PHP grammar and the trees they build.

A rule says what a symbol consists of and what node it stands for.  The value of a token is its
text, the value of a list of symbols is a list, and a part that is left out is nothing.  The
parts of a rule are counted from one, so a rule reads like the line of a grammar.
-/
import PhpMigration.Parsing.Lalr
import PhpMigration.Php.Node
import PhpMigration.Php.Token

namespace PhpMigration.Php.Grammar

/-- What a rule makes of the values of its parts. -/
abbrev Build := (Nat → Node) → Except SyntaxFault Node

/-- A rule with what it builds. -/
structure Rule where
  production : Lalr.Production
  build : Build

/-- The alternatives of a symbol; the parts of each are separated by blanks. -/
def alternatives (lhs : String) (all : List (String × Build)) : List Rule :=
  all.map fun (rhs, build) => ⟨⟨lhs, (rhs.splitOn " ").filter (· ≠ "")⟩, build⟩

/-- A node made of the parts. -/
def make (f : (Nat → Node) → Node) : Build := fun v => pure (f v)

/-- The value of one part. -/
def part (n : Nat) : Build := make fun v => v n

/-- Nothing. -/
def nothing : Build := make fun _ => .absent

/-- A construct of which only the name is kept. -/
def construct (name : String) : Build := make fun _ => .other name

/-- The members of a list, of which there are none if the list was left out. -/
def items : Node → List Node
  | .list all => all
  | _ => []

/-- The text of a token. -/
def textOf : Node → String
  | .text s => s
  | _ => ""

/-- A list without members. -/
def emptyList : Build := make fun _ => .list []

/-- A list with one member. -/
def single (n : Nat) : Build := make fun v => .list [v n]

/-- A list with one more member. -/
def snoc (list member : Nat) : Build := make fun v => .list (items (v list) ++ [v member])

/-- A list of statements as a block. -/
def blockOf (n : Nat) : Build := make fun v => .block (items (v n))

/-- An operation on two sides. -/
def binary : Build := make fun v => .binaryOp (.text (Text.lower (textOf (v 2)))) (v 1) (v 3)

/-- Two names joined by a backslash. -/
def joinNames (a b : Node) : String := textOf a ++ "\\" ++ textOf b

/-- A name that begins with a backslash. -/
def rootedName (n : Node) : String := "\\" ++ textOf n

end PhpMigration.Php.Grammar
