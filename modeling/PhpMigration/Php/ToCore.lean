/-
From PHP syntax trees to core programs.

Statements lose their grouping: a block stands for the statements in it, and blank text outside
the PHP tags for nothing.  A chain of conditions becomes choices nested in the last branch.  A
call of a method becomes a call of the member, so that its arguments are kept, and a call, member
or variable whose name is itself computed has no counterpart.  Every other construct without a
core counterpart becomes an unsupported node that carries its name.

All this fails only on a tree that the grammar does not build: one in which an increment has no
operator, a name or an operator is no text, a parameter or a branch of a choice is some other
construct, or what should be a list is none.
-/
import PhpMigration.Core.Node
import PhpMigration.Php.Node
import PhpMigration.Text.Blank
import PhpMigration.Text.Case

namespace PhpMigration.Php

/-- Why a tree has no core program. -/
inductive TreeFault where
  /-- A node lacks a part that its place requires. -/
  | missingPart
  /-- An increment or decrement has an empty operator. -/
  | emptyOperator
  /-- What should be a text or a list is something else. -/
  | wrongKind
  deriving DecidableEq, Repr

/-- The wording of a fault, where it has one. -/
def TreeFault.message? : TreeFault → Option String
  | .missingPart | .wrongKind => none
  | .emptyOperator => some "string index out of range"

/-- The operators that have a second spelling. -/
def operatorSpellings : List (String × String) := [("and", "&&"), ("or", "||"), ("<>", "!=")]

/-- The operator in its usual spelling. -/
def spellOperator (operator : String) : String :=
  (operatorSpellings.lookup (Text.lower operator)).getD operator

/-- The sign that an increment or decrement repeats. -/
def stepSign : Node → Except TreeFault String
  | .text operator =>
    match operator.toList with
    | [] => throw .emptyOperator
    | c :: _ => pure (String.singleton c)
  | _ => throw .wrongKind

/-- A bare name: a truth value, nothing, or a constant. -/
def constantToCore (name : String) : Core.Node :=
  let lowered := Text.lower name
  if lowered = "true" then .boolean (.flag true)
  else if lowered = "false" then .boolean (.flag false)
  else if lowered = "null" then .null
  else .name (.text name)

/-- An unsupported construct. -/
def unsupported (name : String) : Core.Node := .unsupported (Text.lower name) name

/-- The start of the text outside the tags that a placeholder remembers. -/
def htmlDetail (data : String) : String := String.ofList (data.toList.take 40)

/-- What a construct encloses, if it is one that encloses a node. -/
def Node.inner? : Node → Option Node
  | .elseBranch body | .elseIf _ body | .ifElse _ body _ _ | .whileLoop _ body
  | .forLoop _ _ _ body | .foreach _ _ _ body | .returnValue body | .print body | .parameter body
  | .assignment body _ | .arrayOffset body _ | .objectProperty body _ | .methodCall body _ _
  | .enclosing _ body | .guarded _ _ body => some body
  | _ => none

/-- The condition of a construct that encloses a node under one, and that node. -/
def Node.branch? : Node → Option (Node × Node)
  | .elseIf test body | .ifElse test body _ _ | .whileLoop test body | .foreach test _ _ body
  | .assignment body test | .arrayOffset body test | .guarded _ test body => some (test, body)
  | _ => none

theorem Node.sizeOf_inner? {node body : Node} (h : node.inner? = some body) :
    sizeOf body < sizeOf node := by
  cases node <;> simp only [inner?, Option.some.injEq, reduceCtorEq] at h <;> subst h <;>
    simp <;> omega

theorem Node.sizeOf_branch? {node test body : Node} (h : node.branch? = some (test, body)) :
    sizeOf test < sizeOf node ∧ sizeOf body < sizeOf node := by
  cases node <;> simp only [branch?, Option.some.injEq, Prod.mk.injEq, reduceCtorEq] at h <;>
    obtain ⟨rfl, rfl⟩ := h <;> simp <;> omega

/-- What a loop over a collection binds. -/
def targetToCore : Node → Core.Node
  | .absent => .absent
  | .text name => .variable (.text name)
  | .variable (.text name) => .variable (.text name)
  | node => .unsupported (Text.lower node.name) ""

/-- What a loop over a collection binds; the wrapper that marks references is taken off. -/
def bindingToCore : Node → Core.Node
  | .foreachVariable target => targetToCore target
  | node => targetToCore node

mutual

/-- The core counterpart of a node. -/
def Node.toCore : Node → Except TreeFault Core.Node
  | .absent => pure .absent
  | .flag value => pure (.boolean (.flag value))
  | .text value => pure (.string (.text value))
  | .number value => pure (.number (.number value))
  | .list _ => pure (.unsupported "list" "")
  | .unlisted => throw .wrongKind
  | .inlineHtml (.text data) => pure (.unsupported "inline" (htmlDetail data))
  | .inlineHtml _ => throw .wrongKind
  | .echo values => do pure (.echo (← toCoreEach values))
  | .print value => do pure (.print (← value.toCore))
  | .returnValue value => do pure (.returnValue (← value.toCore))
  | .function name parameters body => do
    let parameters ← parametersToCore parameters
    let body ← body.bodyToCore
    pure (.function name.literal parameters body)
  | .ifElse test body elseIfs otherwise => do
    let alternate ← otherwise.alternateToCore
    let alternate ← chainToCore alternate elseIfs
    let test ← test.toCore
    let body ← body.bodyToCore
    pure (.ifElse test body alternate)
  | .whileLoop test body => do
    let test ← test.toCore
    let body ← body.bodyToCore
    pure (.whileLoop test body)
  | .forLoop start test update body => do
    let start ← toCoreEach start
    let test ← toCoreEach test
    let update ← toCoreEach update
    let body ← body.bodyToCore
    pure (.forLoop start test update body)
  | .foreach source key value body => do
    let source ← source.toCore
    let body ← body.bodyToCore
    pure (.foreach source (bindingToCore key) (bindingToCore value) body)
  | .variable (.text name) => pure (.variable (.text name))
  | .variable _ => pure (.unsupported "variablevariable" "")
  | .constant (.text name) => pure (constantToCore name)
  | .constant _ => throw .missingPart
  | .assignment target value => do
    let target ← target.toCore
    let value ← value.toCore
    pure (.assign target value (.text "="))
  | .assignOp operator target value => do
    let target ← target.toCore
    let value ← value.toCore
    pure (.assign target value operator.literal)
  | .array elements => do pure (.array (← itemsToCore elements))
  | .functionCall (.text name) arguments => do
    pure (.call (.name (.text name)) (← argumentsToCore arguments))
  | .functionCall name arguments => do
    let callee ← name.toCore
    let arguments ← argumentsToCore arguments
    pure (.call callee arguments)
  | .methodCall object (.text name) arguments => do
    let object ← object.toCore
    let arguments ← argumentsToCore arguments
    pure (.call (.propertyLookup object (.text name)) arguments)
  | .methodCall .. => pure (.unsupported "methodcall" "")
  | .staticMethodCall (.text className) (.text name) arguments => do
    let arguments ← argumentsToCore arguments
    pure (.call (.propertyLookup (.name (.text className)) (.text name)) arguments)
  | .staticMethodCall .. => pure (.unsupported "staticcall" "")
  | .objectProperty object (.text name) => do
    pure (.propertyLookup (← object.toCore) (.text name))
  | .objectProperty object name => do
    let object ← object.toCore
    let name ← name.toCore
    pure (.offsetLookup object name)
  | .arrayOffset base index => do
    let base ← base.toCore
    let index ← index.toCore
    pure (.offsetLookup base index)
  | .binaryOp (.text operator) left right => do
    let left ← left.toCore
    let right ← right.toCore
    pure (.binary (.text (spellOperator operator)) left right)
  | .binaryOp .. => throw .missingPart
  | .unaryOp operator operand => do pure (.unary operator.literal (← operand.toCore))
  | .stepBefore operator operand => do
    let sign ← stepSign operator
    pure (.stepBefore (.text sign) (← operand.toCore))
  | .stepBehind operator operand => do
    let sign ← stepSign operator
    pure (.stepBehind (.text sign) (← operand.toCore))
  | .ternary test consequent alternate => do
    let test ← test.toCore
    let consequent ← consequent.toCore
    let alternate ← alternate.toCore
    pure (.ternary test consequent alternate)
  | .block _ => pure (unsupported "Block")
  | .formalParameter .. => pure (unsupported "FormalParameter")
  | .parameter _ => pure (unsupported "Parameter")
  | .arrayElement .. => pure (unsupported "ArrayElement")
  | .elseIf .. => pure (unsupported "ElseIf")
  | .elseBranch _ => pure (unsupported "Else")
  | .foreachVariable _ => pure (unsupported "ForeachVariable")
  | .other name | .enclosing name _ | .guarded name _ _ => pure (unsupported name)
  termination_by node => (sizeOf node, 0)
  decreasing_by all_goals (simp_wf; omega)

/-- The counterparts of some nodes. -/
def toCoreEach : List Node → Except TreeFault (List Core.Node)
  | [] => pure []
  | node :: rest => do
    let first ← node.toCore
    let rest ← toCoreEach rest
    pure (first :: rest)
  termination_by nodes => (sizeOf nodes, 0)
  decreasing_by all_goals (simp_wf; omega)

/-- Statements without their grouping. -/
def statementsToCore : List Node → Except TreeFault (List Core.Node)
  | [] => pure []
  | .block nodes :: rest => do
    let first ← statementsToCore nodes
    let rest ← statementsToCore rest
    pure (first ++ rest)
  | .inlineHtml (.text data) :: rest => do
    let rest ← statementsToCore rest
    pure (if Text.isBlankText data then rest else .unsupported "inline" (htmlDetail data) :: rest)
  | .inlineHtml _ :: _ => throw .missingPart
  | node :: rest => do
    let first ← node.toCore
    let rest ← statementsToCore rest
    pure (if first.isPresent then first :: rest else rest)
  termination_by nodes => (sizeOf nodes, 0)
  decreasing_by all_goals (simp_wf; omega)

/-- The statements of a body, which may be a block, a list, one statement or nothing. -/
def Node.bodyToCore : Node → Except TreeFault (List Core.Node)
  | .absent => pure []
  | .block nodes => statementsToCore nodes
  | .list nodes => statementsToCore nodes
  | .inlineHtml (.text data) =>
    pure (if Text.isBlankText data then [] else [.unsupported "inline" (htmlDetail data)])
  | .inlineHtml _ => throw .missingPart
  | node => do
    let only ← node.toCore
    pure (if only.isPresent then [only] else [])
  termination_by node => (sizeOf node, 1)
  decreasing_by all_goals (simp_wf; omega)

/-- The branch that is taken when no condition holds: what a construct encloses. -/
def Node.alternateToCore : Node → Except TreeFault (Option (List Core.Node))
  | .absent => pure none
  | node =>
    match h : node.inner? with
    | none => throw .missingPart
    | some body =>
      have := Node.sizeOf_inner? h
      do pure (some (← body.bodyToCore))
  termination_by node => (sizeOf node, 0)
  decreasing_by all_goals omega

/-- Further conditions, each a choice in the last branch of the one before it. -/
def chainToCore (alternate : Option (List Core.Node)) :
    List Node → Except TreeFault (Option (List Core.Node))
  | [] => pure alternate
  | .unlisted :: _ => throw .wrongKind
  | node :: rest => do
    let alternate ← chainToCore alternate rest
    match h : node.branch? with
    | none => throw .missingPart
    | some (test, body) =>
      have := Node.sizeOf_branch? h
      let test ← test.toCore
      let body ← body.bodyToCore
      pure (some [.ifElse test body alternate])
  termination_by nodes => (sizeOf nodes, 0)
  decreasing_by all_goals (simp_wf; omega)

/-- The parameters of a function. -/
def parametersToCore : List Node → Except TreeFault (List Core.Node)
  | [] => pure []
  | .formalParameter name default :: rest => do
    let default ← default.toCore
    let rest ← parametersToCore rest
    pure (.parameter name.literal default :: rest)
  | .unlisted :: _ => throw .wrongKind
  | _ :: _ => throw .missingPart
  termination_by nodes => (sizeOf nodes, 0)
  decreasing_by all_goals (simp_wf; omega)

/-- The arguments of a call; the wrapper that marks references is taken off. -/
def argumentsToCore : List Node → Except TreeFault (List Core.Node)
  | [] => pure []
  | .parameter value :: rest => do
    let first ← value.toCore
    let rest ← argumentsToCore rest
    pure (first :: rest)
  | node :: rest => do
    let first ← node.toCore
    let rest ← argumentsToCore rest
    pure (first :: rest)
  termination_by nodes => (sizeOf nodes, 0)
  decreasing_by all_goals (simp_wf; omega)

/-- The elements of an array; an element with a key becomes an entry. -/
def itemsToCore : List Node → Except TreeFault (List Core.Node)
  | [] => pure []
  | .arrayElement .absent value :: rest => do
    let value ← value.toCore
    let rest ← itemsToCore rest
    pure (value :: rest)
  | .arrayElement key value :: rest => do
    let value ← value.toCore
    let key ← key.toCore
    let rest ← itemsToCore rest
    pure (.entry key value :: rest)
  | node :: rest => do
    let first ← node.toCore
    let rest ← itemsToCore rest
    pure (first :: rest)
  termination_by nodes => (sizeOf nodes, 0)
  decreasing_by all_goals (simp_wf; omega)

end

attribute [grind =] Node.toCore

theorem toCoreEach_cons (node : Node) (rest : List Node) :
    toCoreEach (node :: rest) =
      node.toCore >>= fun c => toCoreEach rest >>= fun cs => pure (c :: cs) := by
  rw [toCoreEach]

theorem Node.toCore_returnValue (value : Node) :
    (Node.returnValue value).toCore = value.toCore >>= fun c => pure (.returnValue c) := by
  rw [Node.toCore]

/-- A statement that is neither a block nor text outside the tags stands for its counterpart. -/
theorem statementsToCore_plain {s : Node} (rest : List Node) (hblock : ∀ nodes, s ≠ .block nodes)
    (hhtml : ∀ data, s ≠ .inlineHtml data) :
    statementsToCore (s :: rest) = (do
      let first ← s.toCore
      let rest ← statementsToCore rest
      pure (if first.isPresent then first :: rest else rest)) := by
  rw [statementsToCore]
  · exact hblock
  · exact fun data => hhtml _
  · exact hhtml

/-- The core program of a list of statements. -/
def programToCore (nodes : List Node) : Except TreeFault Core.Node := do
  pure (.program (← statementsToCore nodes))

end PhpMigration.Php
