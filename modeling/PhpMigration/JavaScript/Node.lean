/-
JavaScript syntax trees.

One type holds expressions, patterns, statements and declarations alike, because a tree built
from an unusual program may hold any of them anywhere; whether a node may stand where it stands
is a question for the printer.  A child that is not there is the node `absent`.

Names and operators are texts, and literals hold what they denote.  A tree that is written down
may hold any other value in their place, and also in place of a node or of a list of nodes.
-/
import PhpMigration.Document.Value

namespace PhpMigration.JavaScript

/-- A node of a JavaScript syntax tree. -/
inductive Node where
  | absent
  /-- A value that is no node, where a node is needed. -/
  | stray (value : Value)
  /-- The only member of what should be a list of nodes and is none; an empty value stands for
  something that was not given. -/
  | unlisted (given : Bool)
  | identifier (name : Value)
  | stringLiteral (value : Value)
  | numericLiteral (value : Value)
  | booleanLiteral (value : Value)
  | nullLiteral
  | arrayExpression (elements : List Node)
  | objectProperty (key value : Node) (computed : Bool)
  | objectExpression (properties : List Node)
  | assignment (operator : Value) (left right : Node)
  | binary (operator : Value) (left right : Node)
  | logical (operator : Value) (left right : Node)
  | unary (operator : Value) (argument : Node)
  | update (operator : Value) (argument : Node) (before : Bool)
  | conditional (test consequent alternate : Node)
  | sequence (expressions : List Node)
  | call (callee : Node) (arguments : List Node)
  | member (object property : Node) (computed : Bool)
  | expressionStatement (expression : Node)
  | block (body : List Node)
  | returnStatement (argument : Node)
  | functionDeclaration (name : Node) (params : List Node) (body : Node)
  | ifStatement (test consequent alternate : Node)
  | whileStatement (test body : Node)
  | forStatement (start test update body : Node)
  | arrayPattern (elements : List Node)
  | assignmentPattern (left right : Node)
  | declarator (target value : Node)
  | declaration (kind : Value) (declarators : List Node)
  | forOf (left right body : Node)
  | program (body : List Node)
  deriving Repr, Inhabited, BEq

namespace Node

/-- The name of a node's type. -/
def typeName : Node → String
  | absent | unlisted _ => "undefined"
  | stray (.flag _) => "bool"
  | stray (.number (.double _)) => "float"
  | stray (.number _) => "int"
  | stray (.list _) => "tuple"
  | stray _ => "str"
  | identifier .. => "Identifier"
  | stringLiteral .. => "StringLiteral"
  | numericLiteral .. => "NumericLiteral"
  | booleanLiteral .. => "BooleanLiteral"
  | nullLiteral => "NullLiteral"
  | arrayExpression .. => "ArrayExpression"
  | objectProperty .. => "ObjectProperty"
  | objectExpression .. => "ObjectExpression"
  | assignment .. => "AssignmentExpression"
  | binary .. => "BinaryExpression"
  | logical .. => "LogicalExpression"
  | unary .. => "UnaryExpression"
  | update .. => "UpdateExpression"
  | conditional .. => "ConditionalExpression"
  | sequence .. => "SequenceExpression"
  | call .. => "CallExpression"
  | member .. => "MemberExpression"
  | expressionStatement .. => "ExpressionStatement"
  | block .. => "BlockStatement"
  | returnStatement .. => "ReturnStatement"
  | functionDeclaration .. => "FunctionDeclaration"
  | ifStatement .. => "IfStatement"
  | whileStatement .. => "WhileStatement"
  | forStatement .. => "ForStatement"
  | arrayPattern .. => "ArrayPattern"
  | assignmentPattern .. => "AssignmentPattern"
  | declarator .. => "VariableDeclarator"
  | declaration .. => "VariableDeclaration"
  | forOf .. => "ForOfStatement"
  | program .. => "Program"

/-- The nodes that may stand alone in a list of statements. -/
def isStatement : Node → Bool
  | expressionStatement .. | block .. | returnStatement .. | functionDeclaration ..
  | ifStatement .. | whileStatement .. | forStatement .. | forOf .. | declaration .. => true
  | _ => false

/-- A named function. -/
def isFunction : Node → Bool
  | functionDeclaration .. => true
  | _ => false

/-- There is a node. -/
def isPresent : Node → Bool
  | absent => false
  | _ => true

theorem eq_absent_of_not_isPresent {node : Node} (h : ¬ node.isPresent = true) : node = absent := by
  cases node <;> first | rfl | exact absurd rfl h

end Node

end PhpMigration.JavaScript
