/-
PHP syntax trees as the grammar builds them.

A value in such a tree is a node, a literal (truth value, text, number), a list, or nothing at
all.  The constructs that a conversion looks into have their parts; of every other construct only
the name is kept, and what it encloses if it is written down.  The name of a variable, a member or
a called function may be a text or an expression that yields it.  All other names and operators
are texts in a tree that the grammar has built, but a tree that is written down may hold anything
in their place.
-/
import PhpMigration.Document.Value

namespace PhpMigration.Php

/-- A node of a PHP syntax tree. -/
inductive Node where
  | absent
  | flag (value : Bool)
  | text (value : String)
  | number (value : Numeral)
  | list (items : List Node)
  /-- The only member of what should be a list and is none. -/
  | unlisted
  | inlineHtml (data : Node)
  | block (nodes : List Node)
  | assignment (target value : Node)
  | returnValue (value : Node)
  | echo (values : List Node)
  | print (value : Node)
  | function (name : Node) (parameters : List Node) (body : Node)
  | assignOp (operator target value : Node)
  | binaryOp (operator left right : Node)
  | unaryOp (operator operand : Node)
  | ternary (test consequent alternate : Node)
  | stepBefore (operator operand : Node)
  | stepBehind (operator operand : Node)
  | constant (name : Node)
  | variable (name : Node)
  | formalParameter (name default : Node)
  | parameter (value : Node)
  | functionCall (name : Node) (arguments : List Node)
  | array (elements : List Node)
  | arrayElement (key value : Node)
  | arrayOffset (base index : Node)
  | objectProperty (object name : Node)
  | methodCall (object name : Node) (arguments : List Node)
  | staticMethodCall (className name : Node) (arguments : List Node)
  | ifElse (test body : Node) (elseIfs : List Node) (otherwise : Node)
  | elseIf (test body : Node)
  | elseBranch (body : Node)
  | whileLoop (test body : Node)
  | forLoop (start test update : List Node) (body : Node)
  | foreach (source key value body : Node)
  | foreachVariable (target : Node)
  | other (name : String)
  /-- Another construct that encloses a node. -/
  | enclosing (name : String) (inner : Node)
  /-- Another construct that encloses a node under a condition. -/
  | guarded (name : String) (test inner : Node)
  deriving Repr, Inhabited, BEq

namespace Node

/-- The name of a construct. -/
def name : Node → String
  | .absent => ""
  | .flag _ => "bool"
  | .text _ => "text"
  | .number (.double _) => "float"
  | .number _ => "int"
  | .list _ => "list"
  | .unlisted => ""
  | .inlineHtml _ => "InlineHTML"
  | .block _ => "Block"
  | .assignment .. => "Assignment"
  | .returnValue _ => "Return"
  | .echo _ => "Echo"
  | .print _ => "Print"
  | .function .. => "Function"
  | .assignOp .. => "AssignOp"
  | .binaryOp .. => "BinaryOp"
  | .unaryOp .. => "UnaryOp"
  | .ternary .. => "TernaryOp"
  | .stepBefore .. => "PreIncDecOp"
  | .stepBehind .. => "PostIncDecOp"
  | .constant _ => "Constant"
  | .variable _ => "Variable"
  | .formalParameter .. => "FormalParameter"
  | .parameter _ => "Parameter"
  | .functionCall .. => "FunctionCall"
  | .array _ => "Array"
  | .arrayElement .. => "ArrayElement"
  | .arrayOffset .. => "ArrayOffset"
  | .objectProperty .. => "ObjectProperty"
  | .methodCall .. => "MethodCall"
  | .staticMethodCall .. => "StaticMethodCall"
  | .ifElse .. => "If"
  | .elseIf .. => "ElseIf"
  | .elseBranch _ => "Else"
  | .whileLoop .. => "While"
  | .forLoop .. => "For"
  | .foreach .. => "Foreach"
  | .foreachVariable _ => "ForeachVariable"
  | .other name | .enclosing name _ | .guarded name _ _ => name

/-- The value that a literal is; a construct has none. -/
def literal : Node → Value
  | .flag value => .flag value
  | .text value => .text value
  | .number value => .number value
  | _ => .null

end Node

end PhpMigration.Php
