/-
JavaScript syntax trees as documents.

A node is an object that names its type; a child that is not there is nothing.  When a document
is read, a part that is left out takes its usual value.
-/
import PhpMigration.Document.Tree
import PhpMigration.JavaScript.Node

namespace PhpMigration.JavaScript.Node

open Document (Parts)

/-- The block of a member; an empty one if it is left out. -/
def blockOf (ps : Parts Node) (name : String) : Node :=
  if Table.has ps name then ps.node name else .block []

/-- The nodes that a member lists. -/
def listed (ps : Parts Node) (name : String) : List Node :=
  ps.nodes (fun v => [.unlisted v.isGiven]) name

/-- The value of a member stands for truth if it is not empty. -/
def flagOf (ps : Parts Node) (name : String) : Bool := (ps.value name).isGiven

/-- The node that the members of an object make. -/
def ofParts (ps : Parts Node) : Node :=
  match ps.text "type" with
  | "Identifier" => .identifier (ps.value "name" (.text ""))
  | "StringLiteral" => .stringLiteral (ps.value "value" (.text ""))
  | "NumericLiteral" => .numericLiteral (ps.value "value" (.number 0))
  | "BooleanLiteral" => .booleanLiteral (ps.value "value" (.flag false))
  | "NullLiteral" => .nullLiteral
  | "ArrayExpression" => .arrayExpression (listed ps "elements")
  | "ObjectProperty" => .objectProperty (ps.node "key") (ps.node "value") (flagOf ps "computed")
  | "ObjectExpression" => .objectExpression (listed ps "properties")
  | "AssignmentExpression" =>
    .assignment (ps.value "operator" (.text "=")) (ps.node "left") (ps.node "right")
  | "BinaryExpression" =>
    .binary (ps.value "operator" (.text "+")) (ps.node "left") (ps.node "right")
  | "LogicalExpression" =>
    .logical (ps.value "operator" (.text "&&")) (ps.node "left") (ps.node "right")
  | "UnaryExpression" => .unary (ps.value "operator" (.text "!")) (ps.node "argument")
  | "UpdateExpression" =>
    .update (ps.value "operator" (.text "++")) (ps.node "argument") (flagOf ps "prefix")
  | "ConditionalExpression" =>
    .conditional (ps.node "test") (ps.node "consequent") (ps.node "alternate")
  | "SequenceExpression" => .sequence (listed ps "expressions")
  | "CallExpression" => .call (ps.node "callee") (listed ps "arguments")
  | "MemberExpression" => .member (ps.node "object") (ps.node "property") (flagOf ps "computed")
  | "ExpressionStatement" => .expressionStatement (ps.node "expression")
  | "BlockStatement" => .block (listed ps "body")
  | "ReturnStatement" => .returnStatement (ps.node "argument")
  | "FunctionDeclaration" =>
    .functionDeclaration (ps.node "id") (listed ps "params") (blockOf ps "body")
  | "IfStatement" => .ifStatement (ps.node "test") (blockOf ps "consequent") (ps.node "alternate")
  | "WhileStatement" => .whileStatement (ps.node "test") (blockOf ps "body")
  | "ForStatement" =>
    .forStatement (ps.node "init") (ps.node "test") (ps.node "update") (blockOf ps "body")
  | "ArrayPattern" => .arrayPattern (listed ps "elements")
  | "AssignmentPattern" => .assignmentPattern (ps.node "left") (ps.node "right")
  | "VariableDeclarator" => .declarator (ps.node "id") (ps.node "init")
  | "VariableDeclaration" =>
    .declaration (ps.value "kind" (.text "const")) (listed ps "declarations")
  | "ForOfStatement" => .forOf (ps.node "left") (ps.node "right") (blockOf ps "body")
  | "Program" => .program (listed ps "body")
  | _ => .absent

/-- The node that a value other than an object makes. -/
def ofPlain (v : Value) (_ : List Node) : Node :=
  match v with
  | .null => .absent
  | v => .stray v

/-- The node that a document writes down. -/
def ofDocument (v : Value) : Node := (Document.readPart ofParts ofPlain v).node

/-- A node of a type as an object. -/
def objectOf (type : String) (members : List (String × Value)) : Value :=
  .object (("type", .text type) :: members)

mutual

/-- The node written down. -/
def toDocument : Node → Value
  | .absent | .unlisted _ => .null
  | .stray value => value
  | .identifier name => objectOf "Identifier" [("name", name)]
  | .stringLiteral value => objectOf "StringLiteral" [("value", value)]
  | .numericLiteral value => objectOf "NumericLiteral" [("value", value)]
  | .booleanLiteral value => objectOf "BooleanLiteral" [("value", value)]
  | .nullLiteral => objectOf "NullLiteral" []
  | .arrayExpression elements =>
    objectOf "ArrayExpression" [("elements", .list (toDocuments elements))]
  | .objectProperty key value computed =>
    objectOf "ObjectProperty"
      [("key", key.toDocument), ("value", value.toDocument), ("computed", .flag computed)]
  | .objectExpression properties =>
    objectOf "ObjectExpression" [("properties", .list (toDocuments properties))]
  | .assignment operator left right =>
    objectOf "AssignmentExpression"
      [("operator", operator), ("left", left.toDocument), ("right", right.toDocument)]
  | .binary operator left right =>
    objectOf "BinaryExpression"
      [("operator", operator), ("left", left.toDocument), ("right", right.toDocument)]
  | .logical operator left right =>
    objectOf "LogicalExpression"
      [("operator", operator), ("left", left.toDocument), ("right", right.toDocument)]
  | .unary operator argument =>
    objectOf "UnaryExpression" [("operator", operator), ("argument", argument.toDocument)]
  | .update operator argument before =>
    objectOf "UpdateExpression"
      [("operator", operator), ("argument", argument.toDocument), ("prefix", .flag before)]
  | .conditional test consequent alternate =>
    objectOf "ConditionalExpression"
      [("test", test.toDocument), ("consequent", consequent.toDocument),
        ("alternate", alternate.toDocument)]
  | .sequence expressions =>
    objectOf "SequenceExpression" [("expressions", .list (toDocuments expressions))]
  | .call callee arguments =>
    objectOf "CallExpression"
      [("callee", callee.toDocument), ("arguments", .list (toDocuments arguments))]
  | .member object property computed =>
    objectOf "MemberExpression"
      [("object", object.toDocument), ("property", property.toDocument),
        ("computed", .flag computed)]
  | .expressionStatement expression =>
    objectOf "ExpressionStatement" [("expression", expression.toDocument)]
  | .block body => objectOf "BlockStatement" [("body", .list (toDocuments body))]
  | .returnStatement argument => objectOf "ReturnStatement" [("argument", argument.toDocument)]
  | .functionDeclaration name params body =>
    objectOf "FunctionDeclaration"
      [("id", name.toDocument), ("params", .list (toDocuments params)), ("body", body.toDocument)]
  | .ifStatement test consequent alternate =>
    objectOf "IfStatement"
      [("test", test.toDocument), ("consequent", consequent.toDocument),
        ("alternate", alternate.toDocument)]
  | .whileStatement test body =>
    objectOf "WhileStatement" [("test", test.toDocument), ("body", body.toDocument)]
  | .forStatement start test next body =>
    objectOf "ForStatement"
      [("init", start.toDocument), ("test", test.toDocument), ("update", next.toDocument),
        ("body", body.toDocument)]
  | .arrayPattern elements => objectOf "ArrayPattern" [("elements", .list (toDocuments elements))]
  | .assignmentPattern left right =>
    objectOf "AssignmentPattern" [("left", left.toDocument), ("right", right.toDocument)]
  | .declarator target value =>
    objectOf "VariableDeclarator" [("id", target.toDocument), ("init", value.toDocument)]
  | .declaration kind declarators =>
    objectOf "VariableDeclaration"
      [("kind", kind), ("declarations", .list (toDocuments declarators))]
  | .forOf left right body =>
    objectOf "ForOfStatement"
      [("left", left.toDocument), ("right", right.toDocument), ("body", body.toDocument)]
  | .program body => objectOf "Program" [("body", .list (toDocuments body))]

/-- The nodes written down. -/
def toDocuments : List Node → List Value
  | [] => []
  | node :: rest => node.toDocument :: toDocuments rest

end

end PhpMigration.JavaScript.Node
