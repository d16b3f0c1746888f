/-
Core programs as documents.

A node is an object that names its kind; a child that is not there is nothing.  An object of
another kind, or one that says so itself, is an unsupported construct.
-/
import PhpMigration.Core.Node
import PhpMigration.Document.Tree

namespace PhpMigration.Core.Node

open Document (Parts)

/-- The nodes that a member must list. -/
def listed (ps : Parts Node) (name : String) : List Node := ps.nodes (fun _ => [.unlisted]) name

/-- The nodes that a member lists, of which there are none if it is not given. -/
def listedIfAny (ps : Parts Node) (name : String) : List Node :=
  ps.nodes (fun v => if v.isGiven then [.unlisted] else []) name

/-- The branch of a member; nothing if the member is nothing. -/
def branchOf (ps : Parts Node) (name : String) : Option (List Node) :=
  match ps.value name with
  | .null => none
  | _ => some (listedIfAny ps name)

/-- The node that the members of an object make. -/
def ofParts (ps : Parts Node) : Node :=
  let kind := ps.text "kind"
  if ps.value "opaque" == .flag true then .unsupported kind (ps.text "detail")
  else match kind with
    | "program" => .program (listedIfAny ps "children")
    | "echo" => .echo (listed ps "expressions")
    | "print" => .print (ps.node "expression")
    | "expressionstatement" => .expressionStatement (ps.node "expression")
    | "return" => .returnValue (ps.node "expr")
    | "parameter" => .parameter (ps.value "name" (.text "")) (ps.node "default")
    | "function" =>
      .function (ps.value "name" (.text "")) (listed ps "arguments") (listedIfAny ps "body")
    | "if" => .ifElse (ps.node "test") (listedIfAny ps "body") (branchOf ps "alternate")
    | "while" => .whileLoop (ps.node "test") (listedIfAny ps "body")
    | "for" =>
      .forLoop (listedIfAny ps "init") (listedIfAny ps "test") (listedIfAny ps "update")
        (listedIfAny ps "body")
    | "foreach" =>
      .foreach (ps.node "source") (ps.node "key") (ps.node "value") (listedIfAny ps "body")
    | "variable" => .variable (ps.value "name" (.text ""))
    | "string" => .string (ps.value "value" (.text ""))
    | "number" => .number (ps.value "value" (.number 0))
    | "boolean" => .boolean (ps.value "value" (.flag false))
    | "null" => .null
    | "name" => .name (ps.value "name" (.text ""))
    | "assign" => .assign (ps.node "left") (ps.node "right") (ps.value "operator" (.text "="))
    | "entry" => .entry (ps.node "key") (ps.node "value")
    | "array" => .array (listed ps "items")
    | "call" => .call (ps.node "what") (listed ps "arguments")
    | "methodcall" =>
      .methodCall (ps.node "what") (ps.value "name" (.text "")) (listedIfAny ps "arguments")
    | "propertylookup" => .propertyLookup (ps.node "what") (ps.value "offset" (.text ""))
    | "offsetlookup" => .offsetLookup (ps.node "what") (ps.node "offset")
    | "bin" => .binary (ps.value "type" (.text "")) (ps.node "left") (ps.node "right")
    | "unary" => .unary (ps.value "type" (.text "")) (ps.node "what")
    | "pre" => .stepBefore (ps.value "type" (.text "+")) (ps.node "what")
    | "post" => .stepBehind (ps.value "type" (.text "+")) (ps.node "what")
    | "retif" => .ternary (ps.node "test") (ps.node "true_expr") (ps.node "false_expr")
    | kind => .unsupported kind (ps.text "detail")

/-- The node that a value other than an object makes. -/
def ofPlain (v : Value) (_ : List Node) : Node :=
  match v with
  | .null => .absent
  | v => .stray v

/-- The node that a document writes down. -/
def ofDocument (v : Value) : Node := (Document.readPart ofParts ofPlain v).node

/-- A node of a kind as an object. -/
def objectOf (kind : String) (members : List (String × Value)) : Value :=
  .object (("kind", .text kind) :: members)

mutual

/-- The node written down. -/
def toDocument : Node → Value
  | .absent | .unlisted => .null
  | .stray value => value
  | .program children => objectOf "program" [("children", .list (toDocuments children))]
  | .echo expressions => objectOf "echo" [("expressions", .list (toDocuments expressions))]
  | .print expression => objectOf "print" [("expression", expression.toDocument)]
  | .expressionStatement expression =>
    objectOf "expressionstatement" [("expression", expression.toDocument)]
  | .returnValue expression => objectOf "return" [("expr", expression.toDocument)]
  | .parameter label value =>
    objectOf "parameter" [("name", label), ("default", value.toDocument)]
  | .function label parameters body =>
    objectOf "function" [("name", label), ("arguments", .list (toDocuments parameters)),
      ("body", .list (toDocuments body))]
  | .ifElse test body alternate =>
    objectOf "if" [("test", test.toDocument), ("body", .list (toDocuments body)),
      ("alternate", match alternate with
        | none => .null
        | some branch => .list (toDocuments branch))]
  | .whileLoop test body =>
    objectOf "while" [("test", test.toDocument), ("body", .list (toDocuments body))]
  | .forLoop start test update body =>
    objectOf "for" [("init", .list (toDocuments start)), ("test", .list (toDocuments test)),
      ("update", .list (toDocuments update)), ("body", .list (toDocuments body))]
  | .foreach source key value body =>
    objectOf "foreach" [("source", source.toDocument), ("key", key.toDocument),
      ("value", value.toDocument), ("body", .list (toDocuments body))]
  | .variable label => objectOf "variable" [("name", label)]
  | .string value => objectOf "string" [("value", value)]
  | .number value => objectOf "number" [("value", value)]
  | .boolean value => objectOf "boolean" [("value", value)]
  | .null => objectOf "null" []
  | .name text => objectOf "name" [("name", text)]
  | .assign left right operator =>
    objectOf "assign"
      [("left", left.toDocument), ("right", right.toDocument), ("operator", operator)]
  | .entry key value => objectOf "entry" [("key", key.toDocument), ("value", value.toDocument)]
  | .array items => objectOf "array" [("items", .list (toDocuments items))]
  | .call callee arguments =>
    objectOf "call" [("what", callee.toDocument), ("arguments", .list (toDocuments arguments))]
  | .methodCall object label arguments =>
    objectOf "methodcall" [("what", object.toDocument), ("name", label),
      ("arguments", .list (toDocuments arguments))]
  | .propertyLookup object property =>
    objectOf "propertylookup" [("what", object.toDocument), ("offset", property)]
  | .offsetLookup object offset =>
    objectOf "offsetlookup" [("what", object.toDocument), ("offset", offset.toDocument)]
  | .binary operator left right =>
    objectOf "bin"
      [("type", operator), ("left", left.toDocument), ("right", right.toDocument)]
  | .unary operator operand =>
    objectOf "unary" [("type", operator), ("what", operand.toDocument)]
  | .stepBefore operator operand =>
    objectOf "pre" [("type", operator), ("what", operand.toDocument)]
  | .stepBehind operator operand =>
    objectOf "post" [("type", operator), ("what", operand.toDocument)]
  | .ternary test consequent alternate =>
    objectOf "retif" [("test", test.toDocument), ("true_expr", consequent.toDocument),
      ("false_expr", alternate.toDocument)]
  | .unsupported kind detail => objectOf kind [("detail", .text detail), ("opaque", .flag true)]

/-- The nodes written down. -/
def toDocuments : List Node → List Value
  | [] => []
  | node :: rest => node.toDocument :: toDocuments rest

end

end PhpMigration.Core.Node
