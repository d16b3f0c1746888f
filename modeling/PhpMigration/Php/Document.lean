/-
PHP syntax trees as documents.

A node is an object that names its construct.  Literal values and lists are themselves, and a
part that is left out is nothing, also where a list is needed.  An object that names no construct
is zero.
-/
import PhpMigration.Document.Tree
import PhpMigration.Php.Node

namespace PhpMigration.Php.Node

open Document (Parts)

/-- The nodes that a member must list. -/
def listed (ps : Parts Node) (name : String) : List Node :=
  if Table.has ps name then ps.nodes (fun _ => [.unlisted]) name else [.unlisted]

/-- The nodes that a member lists, of which there are none if it is not given. -/
def listedIfAny (ps : Parts Node) (name : String) : List Node :=
  ps.nodes (fun v => if v.isGiven then [.unlisted] else []) name

/-- The constructs besides those of the conversion that enclose a node. -/
def enclosingNames : List String :=
  ["Clone", "Break", "Continue", "Yield", "Throw", "Declare", "Directive", "StaticProperty"]

/-- The constructs besides those of the conversion that enclose a node under a condition. -/
def guardedNames : List String := ["StringOffset", "DoWhile"]

/-- The node of a named construct. -/
def ofConstruct (ps : Parts Node) : String → Node
  | "InlineHTML" => .inlineHtml (ps.node "data")
  | "Block" => .block (listed ps "nodes")
  | "Assignment" => .assignment (ps.node "node_") (ps.node "expr")
  | "Return" => .returnValue (ps.node "node_")
  | "Echo" => .echo (listed ps "nodes")
  | "Print" => .print (ps.node "node_")
  | "Function" => .function (ps.node "name") (listedIfAny ps "params") (ps.node "nodes")
  | "AssignOp" => .assignOp (ps.node "op") (ps.node "left") (ps.node "right")
  | "BinaryOp" => .binaryOp (ps.node "op") (ps.node "left") (ps.node "right")
  | "UnaryOp" => .unaryOp (ps.node "op") (ps.node "expr")
  | "TernaryOp" => .ternary (ps.node "expr") (ps.node "iftrue") (ps.node "iffalse")
  | "PreIncDecOp" => .stepBefore (ps.node "op") (ps.node "expr")
  | "PostIncDecOp" => .stepBehind (ps.node "op") (ps.node "expr")
  | "Constant" => .constant (ps.node "name")
  | "Variable" => .variable (ps.node "name")
  | "FormalParameter" => .formalParameter (ps.node "name") (ps.node "default")
  | "Parameter" => .parameter (ps.node "node_")
  | "FunctionCall" => .functionCall (ps.node "name") (listedIfAny ps "params")
  | "Array" => .array (listedIfAny ps "nodes")
  | "ArrayElement" => .arrayElement (ps.node "key") (ps.node "value")
  | "ArrayOffset" => .arrayOffset (ps.node "node_") (ps.node "expr")
  | "ObjectProperty" => .objectProperty (ps.node "node_") (ps.node "name")
  | "MethodCall" => .methodCall (ps.node "node_") (ps.node "name") (listedIfAny ps "params")
  | "StaticMethodCall" =>
    .staticMethodCall (ps.node "class_") (ps.node "name") (listedIfAny ps "params")
  | "If" =>
    .ifElse (ps.node "expr") (ps.node "node_") (listedIfAny ps "elseifs") (ps.node "else_")
  | "ElseIf" => .elseIf (ps.node "expr") (ps.node "node_")
  | "Else" => .elseBranch (ps.node "node_")
  | "While" => .whileLoop (ps.node "expr") (ps.node "node_")
  | "For" =>
    .forLoop (listedIfAny ps "start") (listedIfAny ps "test") (listedIfAny ps "count")
      (ps.node "node_")
  | "Foreach" =>
    .foreach (ps.node "expr") (ps.node "keyvar") (ps.node "valvar") (ps.node "node_")
  | "ForeachVariable" => .foreachVariable (ps.node "name")
  | name =>
    if enclosingNames.contains name then .enclosing name (ps.node "node_")
    else if guardedNames.contains name then .guarded name (ps.node "expr") (ps.node "node_")
    else .other name

/-- The node that the members of an object make. -/
def ofParts (ps : Parts Node) : Node :=
  match ps.value "node" with
  | .text name => ofConstruct ps name
  | _ => .number 0

/-- The node that a value other than an object makes. -/
def ofPlain (v : Value) (items : List Node) : Node :=
  match v with
  | .flag b => .flag b
  | .number n => .number n
  | .text s => .text s
  | .list _ => .list items
  | _ => .absent

/-- The nodes that a document lists, of which there are none if it is not given. -/
def listOfDocument (v : Value) : List Node :=
  listedIfAny [("nodes", Document.readPart ofParts ofPlain v)] "nodes"

end PhpMigration.Php.Node
