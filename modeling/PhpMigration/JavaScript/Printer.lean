/-
Printing JavaScript syntax trees.

An expression is printed together with the precedence of its outermost operator, and is put in
parentheses where its surroundings bind more tightly.  Statements are printed as lines, each
with its depth of indentation, and the unit of indentation is only multiplied in at the very
end, so it has no part in what the lines hold.  Declarations of functions are set apart by empty
lines, which have depth zero.

Printing fails on a node that is no expression where an expression is needed, and on a node that
lacks a part that its place requires.  A name that is no text is shown where it stands alone, and
fails where texts are put together.  An integer in the place of a literal is written in decimal
digits, of which there is a largest number, and printing fails on one that has more.
-/
import PhpMigration.Document.Shown
import PhpMigration.JavaScript.Node
import PhpMigration.JavaScript.Quoted
import PhpMigration.Text.Letter

namespace PhpMigration.JavaScript

/-- Why a tree cannot be printed. -/
inductive PrintFault where
  /-- The node, of the given type, stands where an expression is needed. -/
  | notAnExpression (typeName : String)
  /-- A node lacks a part that its place requires. -/
  | missingPart
  /-- Something else stands where a list is needed. -/
  | notAList
  /-- Something else stands where a text is needed. -/
  | notAText
  /-- An integer has more digits than may be written. -/
  | tooManyDigits
  deriving DecidableEq, Repr

/-- The wording of a fault, where it has one. -/
def PrintFault.message? : PrintFault → Option String
  | .notAnExpression typeName => some s!"Cannot print {typeName} as an expression"
  | .tooManyDigits => some (digitLimitMessage "")
  | _ => none

namespace Precedence

/-- A sequence of expressions. -/
def sequence : Nat := 1
/-- An assignment. -/
def assignment : Nat := 2
/-- A choice between two expressions. -/
def conditional : Nat := 3
/-- A binary operator that the table does not know. -/
def unknownBinary : Nat := 13
/-- An operator before its operand. -/
def unary : Nat := 15
/-- An operator behind its operand. -/
def postfixed : Nat := 16
/-- A call or an access to a member. -/
def member : Nat := 18
/-- An expression that no operator can take apart. -/
def primary : Nat := 20

/-- The binary operators; a higher number binds more tightly. -/
def table : List (String × Nat) :=
  [("||", 4), ("&&", 5), ("|", 6), ("^", 7), ("&", 8),
    ("==", 9), ("!=", 9), ("===", 9), ("!==", 9),
    ("<", 10), (">", 10), ("<=", 10), (">=", 10), ("in", 10), ("instanceof", 10),
    ("<<", 11), (">>", 11), (">>>", 11), ("+", 13), ("-", 13), ("*", 14), ("/", 14), ("%", 14)]

/-- How tightly a binary operator binds. -/
def ofBinary : Value → Nat
  | .text operator => (table.lookup operator).getD unknownBinary
  | _ => unknownBinary

end Precedence

/-- The text of a number: a double without a fraction is written like an integer as long as it is
smaller than ten to the sixteenth. -/
def numberText (value : Numeral) : String :=
  match value with
  | .truth b => if b then "1" else "0"
  | .int n => toString n
  | .double d =>
    match d.toInt? with
    | some n => if n.natAbs < Nat.pow 10 16 then toString n else d.toText
    | none => d.toText

/-- The text of what stands in place of a number; a truth value counts as one. -/
def literalText (value : Value) : String :=
  match value.numeral? with
  | some x => numberText x
  | none => value.shown

/-- The text of an expression and how tightly its outermost operator binds.  A name that is no text
is shown, but it is not put together with other texts. -/
structure Rendered where
  text : String
  precedence : Nat
  isText : Bool := true
  deriving DecidableEq, Repr

namespace Rendered

/-- The text where at least the given precedence is needed. -/
def within (least : Nat) (r : Rendered) : String :=
  if r.precedence < least then "(" ++ r.text ++ ")" else r.text

/-- The text where at least the given precedence is needed, if it is one. -/
def textWithin (least : Nat) (r : Rendered) : Except PrintFault String :=
  if r.isText then pure (r.within least) else throw .notAText

/-- The texts of the members of a list, each where at least the given precedence is needed. -/
def commaList (least : Nat) (rs : List Rendered) : Except PrintFault String := do
  pure (", ".intercalate (← rs.mapM (textWithin least)))

/-- A minus or plus must not touch another one, and a word must not touch its operand. -/
def separator (operator operand : String) : String :=
  if !operator.isEmpty && operator.toList.all Text.isLetter then " "
  else if (operator = "-" || operator = "+") && operator.toList.isPrefixOf operand.toList then " "
  else ""

/-- A literal or anything else that stands by itself. -/
def atom (text : String) : Rendered := { text, precedence := Precedence.primary }

/-- A name. -/
def ofName : Value → Rendered
  | .text name => atom name
  | name => { atom name.shown with isText := false }

/-- An operator before its operand. -/
def ofUnary (operator : Value) (operand : Rendered) : Except PrintFault Rendered :=
  match operator with
  | .text symbol =>
    let text := operand.within Precedence.unary
    if !operand.isText && (symbol = "-" || symbol = "+") then throw .missingPart
    else pure { text := symbol ++ separator symbol text ++ text, precedence := Precedence.unary }
  | _ => throw .missingPart

/-- Two operands with an operator that groups to the left. -/
def ofBinary (operator : Value) (left right : Rendered) : Rendered :=
  let p := Precedence.ofBinary operator
  { text := left.within p ++ " " ++ operator.shown ++ " " ++ right.within (p + 1), precedence := p }

/-- An increment or decrement, before or behind its operand. -/
def ofUpdate (operator : Value) (before : Bool) (operand : Rendered) :
    Except PrintFault Rendered := do
  let .text symbol := operator | throw .notAText
  if before then
    pure { text := symbol ++ (← operand.textWithin Precedence.unary),
           precedence := Precedence.unary }
  else
    pure { text := (← operand.textWithin Precedence.member) ++ symbol,
           precedence := Precedence.postfixed }

/-- A choice; its condition must bind more tightly than another choice. -/
def ofConditional (test consequent alternate : Rendered) : Rendered :=
  { text := test.within (Precedence.conditional + 1) ++ " ? " ++
      consequent.within Precedence.assignment ++ " : " ++ alternate.within Precedence.assignment,
    precedence := Precedence.conditional }

/-- An assignment, which groups to the right. -/
def ofAssignment (operator : Value) (left right : Rendered) : Rendered :=
  { text := left.within Precedence.member ++ " " ++ operator.shown ++ " " ++
      right.within Precedence.assignment,
    precedence := Precedence.assignment }

/-- A target with the value that it has if none is given. -/
def ofDefault (left right : Rendered) : Rendered :=
  { text := left.within Precedence.sequence ++ " = " ++ right.within Precedence.assignment,
    precedence := Precedence.assignment }

/-- An access to a member, by name or by a computed key. -/
def ofMember (object property : Rendered) (computed : Bool) : Rendered :=
  let object := object.within Precedence.member
  let property := property.within Precedence.sequence
  { text := if computed then object ++ "[" ++ property ++ "]" else object ++ "." ++ property,
    precedence := Precedence.member }

/-- A call. -/
def ofCall (callee : Rendered) (arguments : List Rendered) : Except PrintFault Rendered := do
  pure { text := callee.within Precedence.member ++ "(" ++
           (← commaList Precedence.assignment arguments) ++ ")",
         precedence := Precedence.member }

/-- The members of a list in brackets, each where at least the given precedence is needed. -/
def ofElements (least : Nat) (elements : List Rendered) : Except PrintFault Rendered := do
  pure (atom ("[" ++ (← commaList least elements) ++ "]"))

/-- A number, which a minus makes an operator's expression. -/
def ofNumber (value : Value) : Rendered :=
  let text := literalText value
  { text,
    precedence := if text.toList.head? = some '-' then Precedence.unary else Precedence.primary }

/-- A number, unless it is too long to be written. -/
def ofLiteral (value : Value) : Except PrintFault Rendered :=
  if value.isWritable then pure (ofNumber value) else throw .tooManyDigits

theorem ofLiteral_eq_ok_iff {value : Value} {r : Rendered} :
    ofLiteral value = .ok r ↔ value.isWritable = true ∧ r = ofNumber value := by
  unfold ofLiteral
  cases value.isWritable <;> simp [throw, throwThe, MonadExceptOf.throw, pure, Except.pure, eq_comm]

/-- A property of an object. -/
def propertyText (key value : Rendered) (computed : Bool) : String :=
  let key := key.within Precedence.assignment
  (if computed then "[" ++ key ++ "]" else key) ++ ": " ++ value.within Precedence.assignment

/-- An object from the texts of its properties. -/
def ofProperties (properties : List String) : Rendered :=
  atom (if properties.isEmpty then "\x7b\x7d"
    else "\x7b " ++ ", ".intercalate properties ++ " \x7d")

end Rendered

/-! ### Expressions -/

mutual

/-- The text of a node as an expression. -/
def Node.rendered : Node → Except PrintFault Rendered
  | .absent => pure (.atom "undefined")
  | .stray value => throw (.notAnExpression (Node.stray value).typeName)
  | .unlisted _ => throw .notAList
  | .expressionStatement e => e.rendered
  | .identifier name => pure (.ofName name)
  | .stringLiteral value => pure (.atom (Quoted.quoteValue value))
  | .numericLiteral value => Rendered.ofLiteral value
  | .booleanLiteral value => pure (.atom (if value.isGiven then "true" else "false"))
  | .nullLiteral => pure (.atom "null")
  | .arrayExpression elements => do
    Rendered.ofElements Precedence.assignment (← renderedEach elements)
  | .arrayPattern elements => do
    Rendered.ofElements Precedence.sequence (← renderedEach elements)
  | .assignmentPattern left right => do
    let left ← left.rendered
    let right ← right.rendered
    pure (.ofDefault left right)
  | .objectExpression properties => do pure (.ofProperties (← propertyTexts properties))
  | .member object property computed => do
    let object ← object.rendered
    let property ← property.rendered
    pure (.ofMember object property computed)
  | .call callee arguments => do
    let callee ← callee.rendered
    let arguments ← renderedEach arguments
    Rendered.ofCall callee arguments
  | .update operator argument before => do
    Rendered.ofUpdate operator before (← argument.rendered)
  | .unary operator argument => do Rendered.ofUnary operator (← argument.rendered)
  | .binary operator left right => do
    let left ← left.rendered
    let right ← right.rendered
    pure (.ofBinary operator left right)
  | .logical operator left right => do
    let left ← left.rendered
    let right ← right.rendered
    pure (.ofBinary operator left right)
  | .conditional test consequent alternate => do
    let test ← test.rendered
    let consequent ← consequent.rendered
    let alternate ← alternate.rendered
    pure (.ofConditional test consequent alternate)
  | .assignment operator left right => do
    let left ← left.rendered
    let right ← right.rendered
    pure (.ofAssignment operator left right)
  | .sequence expressions => do
    let text ← Rendered.commaList Precedence.assignment (← renderedEach expressions)
    pure { text, precedence := Precedence.sequence }
  | .objectProperty .. => throw (.notAnExpression "ObjectProperty")
  | .block .. => throw (.notAnExpression "BlockStatement")
  | .returnStatement .. => throw (.notAnExpression "ReturnStatement")
  | .functionDeclaration .. => throw (.notAnExpression "FunctionDeclaration")
  | .ifStatement .. => throw (.notAnExpression "IfStatement")
  | .whileStatement .. => throw (.notAnExpression "WhileStatement")
  | .forStatement .. => throw (.notAnExpression "ForStatement")
  | .declarator .. => throw (.notAnExpression "VariableDeclarator")
  | .declaration .. => throw (.notAnExpression "VariableDeclaration")
  | .forOf .. => throw (.notAnExpression "ForOfStatement")
  | .program .. => throw (.notAnExpression "Program")

/-- The texts of some nodes as expressions. -/
def renderedEach : List Node → Except PrintFault (List Rendered)
  | [] => pure []
  | node :: rest => do
    let first ← node.rendered
    let rest ← renderedEach rest
    pure (first :: rest)

/-- The texts of the properties of an object. -/
def propertyTexts : List Node → Except PrintFault (List String)
  | [] => pure []
  | .objectProperty key value computed :: rest => do
    let key ← key.rendered
    let value ← value.rendered
    let rest ← propertyTexts rest
    pure (Rendered.propertyText key value computed :: rest)
  | .unlisted given :: _ => if given then throw .notAList else pure []
  | _ :: _ => throw .missingPart

end

attribute [grind =] Node.rendered

/-- A statement that is an expression has the text of that expression. -/
theorem Node.rendered_expressionStatement (e : Node) :
    (Node.expressionStatement e).rendered = e.rendered := by
  rw [Node.rendered]

/-- Nodes that are printed as expressions are printed one by one. -/
theorem renderedEach_cons (node : Node) (rest : List Node) (r : Rendered) (rs : List Rendered)
    (h : node.rendered = .ok r) (hrs : renderedEach rest = .ok rs) :
    renderedEach (node :: rest) = .ok (r :: rs) := by
  rw [renderedEach, h, hrs]
  rfl

/-- Texts are put together with commas between them. -/
theorem Rendered.commaList_eq (least : Nat) {rs : List Rendered}
    (h : ∀ r ∈ rs, r.isText = true) :
    Rendered.commaList least rs = .ok (", ".intercalate (rs.map (Rendered.within least))) := by
  have hmap : rs.mapM (Rendered.textWithin least) =
      (.ok (rs.map (Rendered.within least)) : Except PrintFault (List String)) := by
    induction rs with
    | nil => rfl
    | cons r rest ih =>
        have hr : r.textWithin least = .ok (r.within least) := if_pos (h r (by simp))
        rw [List.mapM_cons, hr, ih (fun s hs => h s (by simp [hs]))]
        rfl
  rw [Rendered.commaList, hmap]
  rfl

/-- The text of a node as an expression that nothing surrounds. -/
def Node.expressionText (node : Node) : Except PrintFault String := do
  pure ((← node.rendered).within Precedence.sequence)

/-- A text that would begin a block or a function is put in parentheses. -/
def parenthesized (text : String) : String :=
  if ['\x7b'].isPrefixOf text.toList || "function".toList.isPrefixOf text.toList then
    "(" ++ text ++ ")"
  else text

/-- The variables of a declaration with their values. -/
def declaratorsRendered : List Node → Except PrintFault (List Rendered)
  | [] => pure []
  | .declarator target value :: rest => do
    let target ← target.rendered
    let first ← if value.isPresent then do
        let value ← value.rendered
        if target.isText && value.isText then pure (.ofDefault target value) else throw .notAText
      else pure target
    let rest ← declaratorsRendered rest
    pure (first :: rest)
  | .unlisted _ :: _ => throw .notAList
  | _ :: _ => throw .missingPart

/-- A declaration without its semicolon. -/
def Node.declarationText : Node → Except PrintFault String
  | .declaration kind declarators => do
    let targets ← Rendered.commaList Precedence.sequence (← declaratorsRendered declarators)
    pure (kind.shown ++ " " ++ targets)
  | _ => throw .missingPart

/-- The name of a function. -/
def Node.functionName : Node → Except PrintFault String
  | .absent => pure ""
  | .identifier name => pure name.shown
  | .stray value => if value.isGiven then throw .missingPart else pure ""
  | _ => throw .missingPart

/-- One part of the head of a counting loop, with the blank before it. -/
def Node.headerPart (lead : String) (node : Node) : Except PrintFault String := do
  if node.isPresent then pure (lead ++ (← (← node.rendered).textWithin Precedence.sequence))
  else pure ""

/-- An expression as a statement, which must be a text. -/
def Node.statementText (node : Node) : Except PrintFault String := do
  let r ← node.rendered
  if r.isText then pure (parenthesized (r.within Precedence.sequence)) else throw .missingPart

/-! ### Statements -/

/-- A line: its depth of indentation and the text behind the indentation. -/
structure Line where
  depth : Nat
  text : String
  deriving DecidableEq, Repr

/-- Some finished lines and the beginning of one that is still open. -/
structure Opened where
  lines : List Line
  last : String
  deriving DecidableEq, Repr

/-- The open line is finished. -/
def Opened.close (depth : Nat) (o : Opened) : List Line := o.lines ++ [⟨depth, o.last⟩]

/-- An empty line between two statements of which one is a function; a statement that is not there
is not set apart from the next. -/
def separation (previous : Option Node) (node : Node) : List Line :=
  match previous with
  | none | some .absent => []
  | some p => if node.isFunction || p.isFunction then [⟨0, ""⟩] else []

/-- A block behind its head: braces around its lines, or empty braces. -/
def bracketed (depth : Nat) (head : String) (body : List Line) : Opened :=
  if body.isEmpty then ⟨[], head ++ "\x7b\x7d"⟩ else ⟨⟨depth, head ++ "\x7b"⟩ :: body, "\x7d"⟩

/-- A choice between statements. -/
def Node.isChoice : Node → Bool
  | .ifStatement .. => true
  | _ => false

mutual

/-- The lines of a statement whose first line begins with `head`. -/
def Node.flow (depth : Nat) (head : String) : Node → Except PrintFault Opened
  | .expressionStatement e => do
    pure ⟨[], head ++ (← e.statementText) ++ ";"⟩
  | .block body => do pure (bracketed depth head (← linesEach (depth + 1) none body))
  | .returnStatement argument => do
    if argument.isPresent then pure ⟨[], head ++ "return " ++ (← argument.expressionText) ++ ";"⟩
    else pure ⟨[], head ++ "return;"⟩
  | .declaration kind declarators => do
    pure ⟨[], head ++ (← (Node.declaration kind declarators).declarationText) ++ ";"⟩
  | .functionDeclaration name params body => do
    let name ← name.functionName
    let params ← Rendered.commaList Precedence.assignment (← renderedEach params)
    body.blockFlow depth (head ++ "function " ++ name ++ "(" ++ params ++ ") ")
  | .ifStatement test consequent alternate => do
    let test ← test.expressionText
    let first ← consequent.blockFlow depth (head ++ "if (" ++ test ++ ") ")
    match ← alternate.elseFlow depth (first.last ++ " else ") with
    | none => pure first
    | some second => pure ⟨first.lines ++ second.lines, second.last⟩
  | .whileStatement test body => do
    let test ← test.expressionText
    body.blockFlow depth (head ++ "while (" ++ test ++ ") ")
  | .forStatement start test update body => do
    let start ← start.headerPart ""
    let test ← test.headerPart " "
    let update ← update.headerPart " "
    body.blockFlow depth (head ++ "for (" ++ start ++ ";" ++ test ++ ";" ++ update ++ ") ")
  | .forOf left right body => do
    let left ← left.declarationText
    let right ← right.expressionText
    body.blockFlow depth (head ++ "for (" ++ left ++ " of " ++ right ++ ") ")
  | node => do pure ⟨[], head ++ (← node.expressionText) ++ ";"⟩

/-- The lines of some statements, the one before them being `previous`. -/
def linesEach (depth : Nat) (previous : Option Node) : List Node → Except PrintFault (List Line)
  | [] => pure []
  | .unlisted false :: _ => pure []
  | node :: rest => do
    let first ← node.flow depth ""
    let rest ← linesEach depth (some node) rest
    pure (separation previous node ++ first.close depth ++ rest)

/-- The lines of a block behind its head; a node that could have a block and has none is empty. -/
def Node.blockFlow (depth : Nat) (head : String) : Node → Except PrintFault Opened
  | .block body => do pure (bracketed depth head (← linesEach (depth + 1) none body))
  | .program body => do pure (bracketed depth head (← linesEach (depth + 1) none body))
  | .functionDeclaration _ _ .absent | .whileStatement _ .absent | .forStatement _ _ _ .absent
  | .forOf _ _ .absent => pure (bracketed depth head [])
  | .functionDeclaration .. | .whileStatement .. | .forStatement .. | .forOf .. => throw .notAList
  | _ => throw .missingPart

/-- The lines of the second branch of a choice, if there is one.  A branch that is nothing but
another choice goes on in the same line. -/
def Node.elseFlow (depth : Nat) (head : String) : Node → Except PrintFault (Option Opened)
  | .absent => pure none
  | .block [.unlisted _] | .program [.unlisted _] => throw .notAList
  | .block [only] => do
    if only.isChoice then pure (some (← only.flow depth head))
    else pure (some (bracketed depth head ((← only.flow (depth + 1) "").close (depth + 1))))
  | .block body => do pure (some (bracketed depth head (← linesEach (depth + 1) none body)))
  | .program [only] => do
    if only.isChoice then pure (some (← only.flow depth head))
    else pure (some (bracketed depth head ((← only.flow (depth + 1) "").close (depth + 1))))
  | .program body => do pure (some (bracketed depth head (← linesEach (depth + 1) none body)))
  | .functionDeclaration .. | .whileStatement .. | .forStatement .. | .forOf .. => throw .notAList
  | _ => throw .missingPart

end

attribute [grind =] Node.flow Node.blockFlow Node.elseFlow

theorem Node.flow_block (depth : Nat) (head : String) (body : List Node) :
    (Node.block body).flow depth head =
      linesEach (depth + 1) none body >>= fun lines => pure (bracketed depth head lines) := by
  rw [Node.flow]

theorem Node.elseFlow_absent (depth : Nat) (head : String) :
    Node.absent.elseFlow depth head = pure none := by
  rw [Node.elseFlow]

/-- The lines of a statement. -/
def Node.lines (depth : Nat) (node : Node) : Except PrintFault (List Line) := do
  pure ((← node.flow depth "").close depth)

/-- A line with its indentation written out. -/
def Line.render (indent : String) (l : Line) : String :=
  String.join (List.replicate l.depth indent) ++ l.text

/-- The source text of a tree, with `indent` as the unit of indentation. -/
def Node.print (indent : String) : Node → Except PrintFault String
  | .absent => pure ""
  | .stray _ => throw .missingPart
  | .program [.unlisted _] => throw .notAList
  | .program body => do
    let lines ← linesEach 0 none body
    pure ("\n".intercalate (lines.map (Line.render indent)) ++ (if body.isEmpty then "" else "\n"))
  | node =>
    if node.isStatement then do
      pure ("\n".intercalate ((← node.lines 0).map (Line.render indent)) ++ "\n")
    else node.expressionText

/-- Two blanks. -/
def defaultIndent : String := "  "

/-- The source text of a tree in the usual layout. -/
def Node.source (node : Node) : Except PrintFault String := node.print defaultIndent

/-- There are lines to indent. -/
def Node.hasLines : Node → Bool
  | .program body => !body.isEmpty
  | node => node.isStatement

/-- The statements of a tree that stand in no other. -/
def Node.outermost : Node → List Node
  | .program body => body
  | node => [node]

/-- The statement is put together with its indentation, which has to be a text. -/
def Node.joinsIndentation : Node → Bool
  | .block _ | .ifStatement .. => true
  | _ => false

/-- What stands before a line without indentation if the unit is no text: a number or a list taken
no times. -/
def bareLead (unit : Value) : Except PrintFault String :=
  match unit, unit.numeral? with
  | .list _, _ => pure (Value.list []).shown
  | _, some x => pure (Value.number (x.mul 0)).shown
  | _, none => throw .notAText

/-- The source text of a tree whose unit of indentation is no text, so no line may be indented. -/
def Node.printFlat (unit : Value) (node : Node) : Except PrintFault String := do
  let lead ← bareLead unit
  let lines ← linesEach 0 none node.outermost
  if node.outermost.any Node.joinsIndentation || lines.any (0 < ·.depth) then throw .notAText
  else
    pure (String.join (lines.map fun l => (if l.text.isEmpty then "" else lead ++ l.text) ++ "\n"))

/-- What printing a tree yields.  A name alone is not touched, and without lines nothing asks for a
unit of indentation. -/
def Node.printed (node : Node) (indent : Value := .text defaultIndent) :
    Except PrintFault Value :=
  match node, indent with
  | .identifier name, _ => pure name
  | node, .text unit => do pure (.text (← node.print unit))
  | node, unit => do pure (.text (← if node.hasLines then node.printFlat unit else node.source))

end PhpMigration.JavaScript
