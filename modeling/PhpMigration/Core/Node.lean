/-
The core language: the part of PHP that a conversion understands.

Every construct has a kind, a word by which reports and placeholders name it.  A construct
outside the core is an unsupported node that carries nothing but its kind and a detail; nothing
keeps its kind from being that of a core construct.  A child that is not there is the node `absent`.

Names and operators are texts, and literals hold what they denote.  A tree that is written down
may hold any other value in their place, and also in place of a node or of a list of nodes, so it
is said of a tree whether it is well-sorted, and no type rules the others out.
-/
import PhpMigration.Document.Value

namespace PhpMigration.Core

/-- A node of a core program. -/
inductive Node where
  | absent
  /-- A value that is no node, where a node is needed. -/
  | stray (value : Value)
  /-- The only member of what should be a list of nodes and is none. -/
  | unlisted
  | program (children : List Node)
  | echo (expressions : List Node)
  | print (expression : Node)
  | expressionStatement (expression : Node)
  | returnValue (expression : Node)
  | parameter (name : Value) (default : Node)
  | function (name : Value) (parameters : List Node) (body : List Node)
  | ifElse (test : Node) (body : List Node) (alternate : Option (List Node))
  | whileLoop (test : Node) (body : List Node)
  | forLoop (start test update : List Node) (body : List Node)
  | foreach (source key value : Node) (body : List Node)
  | variable (name : Value)
  | string (value : Value)
  | number (value : Value)
  | boolean (value : Value)
  | null
  | name (text : Value)
  | assign (left right : Node) (operator : Value)
  | entry (key value : Node)
  | array (items : List Node)
  | call (callee : Node) (arguments : List Node)
  | methodCall (object : Node) (name : Value) (arguments : List Node)
  | propertyLookup (object : Node) (property : Value)
  | offsetLookup (object offset : Node)
  | binary (operator : Value) (left right : Node)
  | unary (operator : Value) (operand : Node)
  | stepBefore (operator : Value) (operand : Node)
  | stepBehind (operator : Value) (operand : Node)
  | ternary (test consequent alternate : Node)
  | unsupported (kind detail : String)
  deriving Repr, Inhabited, BEq

namespace Node

/-- The word by which a construct is named. -/
def kind : Node → String
  | .absent | .stray _ | .unlisted => ""
  | .program .. => "program"
  | .echo .. => "echo"
  | .print .. => "print"
  | .expressionStatement .. => "expressionstatement"
  | .returnValue .. => "return"
  | .parameter .. => "parameter"
  | .function .. => "function"
  | .ifElse .. => "if"
  | .whileLoop .. => "while"
  | .forLoop .. => "for"
  | .foreach .. => "foreach"
  | .variable .. => "variable"
  | .string .. => "string"
  | .number .. => "number"
  | .boolean .. => "boolean"
  | .null => "null"
  | .name .. => "name"
  | .assign .. => "assign"
  | .entry .. => "entry"
  | .array .. => "array"
  | .call .. => "call"
  | .methodCall .. => "methodcall"
  | .propertyLookup .. => "propertylookup"
  | .offsetLookup .. => "offsetlookup"
  | .binary .. => "bin"
  | .unary .. => "unary"
  | .stepBefore .. => "pre"
  | .stepBehind .. => "post"
  | .ternary .. => "retif"
  | .unsupported kind _ => kind

attribute [grind =] kind

/-- There is a node. -/
def isPresent : Node → Bool
  | .absent => false
  | _ => true

theorem eq_absent_of_not_isPresent {node : Node} (h : ¬ node.isPresent = true) : node = absent := by
  cases node <;> first | rfl | exact absurd rfl h

end Node

/-- The kinds every conversion must handle. -/
def coreKinds : List String :=
  ["program", "echo", "string", "number", "boolean", "null", "variable", "assign", "function",
    "if", "while", "for", "foreach", "array", "call", "methodcall", "propertylookup", "bin"]

/-- The kinds handled beyond the core ones. -/
def extendedKinds : List String :=
  ["print", "expressionstatement", "return", "parameter", "name", "entry", "offsetlookup", "unary",
    "pre", "post", "retif"]

/-- All kinds with a construct of their own. -/
def knownKinds : List String := coreKinds ++ extendedKinds

end PhpMigration.Core
