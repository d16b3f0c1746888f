/-
Lowering core programs to JavaScript.

Every construct becomes its JavaScript counterpart, built from the lowered children; an absent
child stays absent.  A construct that is not supported becomes a placeholder, a statement that
holds nothing but a text naming its kind, so one of them never keeps the rest of a file from
being converted.

Lowering fails only on a node that claims to be what it is not: an unsupported construct whose
kind is that of a supported one, a parameter that is no parameter, an array item that is absent,
or a value that is of no use where it stands.  Other values than texts are handed on as names and
operators as long as nothing has to be done with them.
-/
import PhpMigration.Core.Node
import PhpMigration.Document.Need
import PhpMigration.JavaScript.Node
import PhpMigration.Lowering.Operator
import PhpMigration.Text.Search

namespace PhpMigration.Lowering

open PhpMigration.Core (Node)

/-- Why a tree cannot be lowered. -/
inductive Fault where
  /-- An array has an item that is absent. -/
  | absentItem
  /-- An unsupported construct lacks the first part that its kind promises. -/
  | lacksPart (part : String)
  /-- A function has a parameter that is none. -/
  | notAParameter
  /-- A value is of no use in its place. -/
  | misfit (misfit : Misfit)
  deriving DecidableEq, Repr

/-- The wording of a fault, where it has one. -/
def Fault.message? : Fault → Option String
  | .absentItem => some "'NoneType' object has no attribute 'kind'"
  | .lacksPart part => some s!"'OpaqueNode' object has no attribute '{part}'"
  | .notAParameter => none
  | .misfit m => m.message?

/-- The part of each kind of construct that is looked at first. -/
def firstParts : List (String × String) :=
  [("program", "children"), ("echo", "expressions"), ("print", "expression"),
    ("expressionstatement", "expression"), ("return", "expr"), ("parameter", "name"),
    ("function", "name"), ("if", "alternate"), ("while", "test"), ("for", "init"),
    ("foreach", "key"), ("variable", "name"), ("string", "value"), ("number", "value"),
    ("boolean", "value"), ("name", "name"), ("assign", "operator"), ("entry", "key"),
    ("array", "items"), ("call", "what"), ("methodcall", "what"), ("propertylookup", "what"),
    ("offsetlookup", "what"), ("bin", "left"), ("unary", "type"), ("pre", "type"),
    ("post", "type"), ("retif", "test")]

/-- The name without its first dollar sign. -/
def stripSigilChars : List Char → List Char
  | [] => []
  | c :: rest => if c = '$' then rest else c :: stripSigilChars rest

/-- The name without its first dollar sign. -/
def stripSigil (name : String) : String := String.ofList (stripSigilChars name.toList)

/-- The name of a variable without its sigil; an empty value stays as it is. -/
def bareName : Value → Except Fault Value
  | .text name => pure (.text (stripSigil name))
  | v => if v.isGiven then throw (.misfit .noMembers) else pure v

/-- What every placeholder's text begins with. -/
def placeholderLead : String := "TODO: Handle "

/-- The statement that stands for a construct which is not supported. -/
def placeholder (kind : String) : JavaScript.Node :=
  .expressionStatement (.stringLiteral (.text (placeholderLead ++ kind)))

/-- The statement stands for a construct which is not supported; a literal of another value than a
text is asked in vain. -/
def isPlaceholder : JavaScript.Node → Except Fault Bool
  | .expressionStatement (.stringLiteral (.text value)) =>
    pure (placeholderLead.toList.isPrefixOf value.toList)
  | .expressionStatement (.stringLiteral _) => throw (.misfit .noMembers)
  | _ => pure false

/-- A lowered node for use as a statement. -/
def asStatement (node : JavaScript.Node) : JavaScript.Node :=
  if !node.isPresent || node.isStatement then node else .expressionStatement node

/-- Lowered nodes as the statements of a block; absent ones are left out. -/
def asBody (nodes : List JavaScript.Node) : List JavaScript.Node :=
  (nodes.map asStatement).filter JavaScript.Node.isPresent

/-- A list of expressions as one expression. -/
def asExpression : List JavaScript.Node → JavaScript.Node
  | [] => .absent
  | [only] => only
  | several => .sequence several

/-- A member by its name. -/
def namedMember (object : JavaScript.Node) (name : Value) : JavaScript.Node :=
  .member object (.identifier name) false

/-- A member of a global object. -/
def globalMember (object name : String) : JavaScript.Node :=
  namedMember (.identifier (.text object)) (.text name)

/-- The call that writes a value, or nothing, to the console. -/
def logCall (argument : JavaScript.Node) : JavaScript.Node :=
  .expressionStatement
    (.call (globalMember "console" "log")
      (if argument.isPresent then [argument] else []))

/-- Values that are written one after another are joined by a plus. -/
def joinEcho (values : List JavaScript.Node) : JavaScript.Node :=
  values.foldl
    (fun joined value => if joined.isPresent then .binary (.text "+") joined value else value)
    .absent

/-- A key that is no literal has to be computed. -/
def isComputedKey : JavaScript.Node → Bool
  | .stringLiteral _ | .numericLiteral _ => false
  | _ => true

/-- Only a parameter may stand among the parameters of a function. -/
def needParameter : Node → Except Fault Unit
  | .parameter .. => pure ()
  | .unlisted => throw (.misfit .wrongKind)
  | _ => throw .notAParameter

/-- The name that a loop over a collection binds, if its target is a variable. -/
def bindingName : Node → Except Fault Value
  | .variable name => bareName name
  | _ => throw (.lacksPart "name")

/-- The kind of the first target of a loop that is there but is no variable. -/
def unsupportedBinding? : List Node → Except Fault (Option String)
  | [] => pure none
  | .absent :: rest => unsupportedBinding? rest
  | .stray _ :: _ => throw (.misfit .noMembers)
  | target :: rest =>
    if target.kind = "variable" then unsupportedBinding? rest else pure (some target.kind)

/-- What a loop over a collection runs over, and what it binds: pairs of keys and values if both
are wanted. -/
def loopBinding (source : JavaScript.Node) (key value : Node) :
    Except Fault (JavaScript.Node × JavaScript.Node) := do
  match key.isPresent, value.isPresent with
  | true, true => do
    let key ← bindingName key
    let value ← bindingName value
    pure (.call (globalMember "Object" "entries") [source],
      .arrayPattern [.identifier key, .identifier value])
  | true, false => pure (source, .identifier (← bindingName key))
  | false, true => pure (source, .identifier (← bindingName value))
  | false, false => pure (source, .identifier (.text "item"))

/-- A keyed array element. -/
def isEntry (node : Node) : Bool := node.kind == "entry"

/-- The array has an item with a key; the search for it ends there. -/
def hasEntry : List Node → Except Fault Bool
  | [] => pure false
  | .absent :: _ => throw .absentItem
  | .stray _ :: _ => throw (.misfit .noMembers)
  | .unlisted :: _ => throw (.misfit .wrongKind)
  | node :: rest => if isEntry node then pure true else hasEntry rest

/-- An increment or a decrement from its one sign; a number in its place is doubled. -/
def doubled : Value → Except Fault Value
  | .text operator => pure (.text (operator ++ operator))
  | .list items => pure (.list (items ++ items))
  | v =>
    match v.numeral? with
    | some x => pure (.number (x.mul 2))
    | none => throw (.misfit .wrongKind)

/-- The operator of an assignment: a plain one where none is given. -/
def assignmentOperator : Value → Except Fault String
  | .text operator => pure (mapAssignment operator)
  | .list (_ :: _) => pure (mapAssignment "+=")
  | v => if v.isGiven then throw (.misfit .wrongKind) else pure (mapAssignment "")

/-- The text of an operator; no other value is in the tables. -/
def operatorText (v : Value) : String := v.text?.getD ""

/-- A property whose name is a number. -/
def numbered (index : Nat) (value : JavaScript.Node) : JavaScript.Node :=
  .objectProperty (.numericLiteral (.int index)) value false

mutual

/-- The JavaScript counterpart of a node. -/
def lower : Node → Except Fault JavaScript.Node
  | .absent => pure .absent
  | .stray _ => throw (.misfit .noMembers)
  | .unlisted => throw (.misfit .wrongKind)
  | .program children => do pure (.program (asBody (← lowerEach children)))
  | .echo expressions => do pure (logCall (joinEcho (← lowerEach expressions)))
  | .print expression => do pure (logCall (← lower expression))
  | .expressionStatement expression => do pure (asStatement (← lower expression))
  | .returnValue expression => do pure (.returnStatement (← lower expression))
  | .parameter name default => do
    let target := JavaScript.Node.identifier (← bareName name)
    if default.isPresent then pure (.assignmentPattern target (← lower default)) else pure target
  | .function name parameters body => do
    let parameters ← lowerParameters parameters
    let body ← lowerEach body
    pure (.functionDeclaration (.identifier name) parameters (.block (asBody body)))
  | .ifElse test body none => do
    let test ← lower test
    let body ← lowerEach body
    pure (.ifStatement test (.block (asBody body)) .absent)
  | .ifElse test body (some alternate) => do
    let alternate ← lowerEach alternate
    let test ← lower test
    let body ← lowerEach body
    pure (.ifStatement test (.block (asBody body)) (.block (asBody alternate)))
  | .whileLoop test body => do
    let test ← lower test
    let body ← lowerEach body
    pure (.whileStatement test (.block (asBody body)))
  | .forLoop start test update body => do
    let start ← lowerEach start
    let test ← lowerEach test
    let update ← lowerEach update
    let body ← lowerEach body
    pure (.forStatement (asExpression start) (asExpression test) (asExpression update)
      (.block (asBody body)))
  | .foreach source key value body => do
    match ← unsupportedBinding? [key, value] with
    | some kind => pure (placeholder ("foreach " ++ kind))
    | none => do
      let source ← lower source
      let (source, target) ← loopBinding source key value
      let body ← lowerEach body
      pure (.forOf (.declaration (.text "const") [.declarator target .absent]) source
        (.block (asBody body)))
  | .variable name => do pure (.identifier (← bareName name))
  | .string value => pure (.stringLiteral value)
  | .number value => pure (.numericLiteral value)
  | .boolean value => pure (.booleanLiteral value)
  | .null => pure .nullLiteral
  | .name text => pure (.identifier text)
  | .assign left right operator => do
    let operator ← assignmentOperator operator
    let left ← lower left
    let right ← lower right
    pure (.assignment (.text operator) left right)
  | .entry key value => do
    let key ← lower key
    let value ← lower value
    pure (.objectProperty key value (isComputedKey key))
  | .array items => do
    if ← hasEntry items then pure (.objectExpression (← lowerItems 0 items))
    else pure (.arrayExpression (← lowerEach items))
  | .call callee arguments => do
    let callee ← lower callee
    let arguments ← lowerEach arguments
    pure (.call callee arguments)
  | .methodCall object name _ => do pure (namedMember (← lower object) name)
  | .propertyLookup object property => do pure (namedMember (← lower object) property)
  | .offsetLookup object offset => do
    let object ← lower object
    let offset ← lower offset
    pure (.member object offset true)
  | .binary operator left right => do
    let left ← lower left
    let right ← lower right
    let operator := operatorText operator
    if isLogical operator then pure (.logical (.text (mapLogical operator)) left right)
    else pure (.binary (.text (mapBinary operator)) left right)
  | .unary operator operand => do pure (.unary operator (← lower operand))
  | .stepBefore operator operand => do
    let operator ← doubled operator
    pure (.update operator (← lower operand) true)
  | .stepBehind operator operand => do
    let operator ← doubled operator
    pure (.update operator (← lower operand) false)
  | .ternary test consequent alternate => do
    let test ← lower test
    let consequent ← lower consequent
    let alternate ← lower alternate
    pure (.conditional test consequent alternate)
  | .unsupported kind _ =>
    if kind = "null" then pure .nullLiteral
    else match firstParts.lookup kind with
      | some part => throw (.lacksPart part)
      | none => pure (placeholder kind)

/-- The counterparts of some nodes. -/
def lowerEach : List Node → Except Fault (List JavaScript.Node)
  | [] => pure []
  | node :: rest => do
    let first ← lower node
    let rest ← lowerEach rest
    pure (first :: rest)

/-- The counterparts of the parameters of a function. -/
def lowerParameters : List Node → Except Fault (List JavaScript.Node)
  | [] => pure []
  | node :: rest => do
    needParameter node
    let first ← lower node
    let rest ← lowerParameters rest
    pure (first :: rest)

/-- The properties of an object made from the items of an array, of which at least one has a key;
the items without one are numbered from `index`. -/
def lowerItems (index : Nat) : List Node → Except Fault (List JavaScript.Node)
  | [] => pure []
  | .entry .absent value :: rest => do
    let value ← lower value
    let rest ← lowerItems (index + 1) rest
    pure (numbered index value :: rest)
  | .entry key value :: rest => do
    let first ← do
      let key ← lower key
      let value ← lower value
      pure (.objectProperty key value (isComputedKey key))
    let rest ← lowerItems index rest
    pure (first :: rest)
  | .absent :: _ => throw .absentItem
  | node :: rest => do
    if isEntry node then throw (.lacksPart "key")
    else
      let value ← lower node
      let rest ← lowerItems (index + 1) rest
      pure (numbered index value :: rest)

end

attribute [grind =] lower

theorem lowerEach_cons (node : Node) (rest : List Node) :
    lowerEach (node :: rest) =
      lower node >>= fun j => lowerEach rest >>= fun js => pure (j :: js) := by
  rw [lowerEach]

theorem lower_returnValue (expression : Node) :
    lower (.returnValue expression) =
      lower expression >>= fun j => pure (.returnStatement j) := by
  rw [lower]

end PhpMigration.Lowering
