/-
Walks over syntax trees.

A property of a whole tree is a property of each of its nodes, so trees of both languages are
walked in the same way: a node comes before its children, and its children come from left to
right.  A child is smaller than its parent (`HasChildren.sizeOf_lt`), which makes the walk end and
gives the induction that proofs about whole trees use.

The children of a core node come in the order in which they are written.  In JavaScript the same
is true, so what lowering does to the order of the parts can be read off the two walks.
-/
import PhpMigration.Core.Node
import PhpMigration.JavaScript.Node

namespace PhpMigration

/-- Trees whose nodes have their parts in a list. -/
class HasChildren (α : Type) [SizeOf α] where
  children : α → List α
  sizeOf_lt : ∀ {node child : α}, child ∈ children node → sizeOf child < sizeOf node

section Walks

variable {α : Type} [SizeOf α] [HasChildren α]

open HasChildren

/-- What holds of a node when it holds of its children holds of every node. -/
theorem children_induction {P : α → Prop}
    (step : ∀ node, (∀ child ∈ children node, P child) → P node) (node : α) : P node :=
  step node fun child _ => children_induction step child
termination_by sizeOf node
decreasing_by exact sizeOf_lt ‹_›

/-- The nodes of a tree, each before its children and these from left to right. -/
def walk (node : α) : List α :=
  node :: (children node).attach.flatMap fun child => walk child.1
termination_by sizeOf node
decreasing_by exact sizeOf_lt child.2

theorem walk_eq (node : α) : walk node = node :: (children node).flatMap walk := by
  rw [walk]
  simp

/-- Something holds of all nodes of a tree. -/
def Everywhere (P : α → Prop) (node : α) : Prop := ∀ n ∈ walk node, P n

theorem everywhere_iff {P : α → Prop} {node : α} :
    Everywhere P node ↔ P node ∧ ∀ child ∈ children node, Everywhere P child := by
  unfold Everywhere
  rw [walk_eq]
  simp only [List.mem_cons, List.mem_flatMap]
  constructor
  · intro h
    exact ⟨h node (.inl rfl), fun child hchild n hn => h n (.inr ⟨child, hchild, hn⟩)⟩
  · rintro ⟨hnode, hchildren⟩ n (rfl | ⟨child, hchild, hn⟩)
    · exact hnode
    · exact hchildren child hchild n hn

end Walks

/-- The parts of a core node. -/
def Core.Node.parts : Core.Node → List Core.Node
  | .absent | .stray _ | .unlisted | .variable _ | .string _ | .number _ | .boolean _ | .null
  | .name _ | .unsupported .. => []
  | .program nodes | .echo nodes | .array nodes => nodes
  | .print e | .expressionStatement e | .returnValue e | .parameter _ e | .propertyLookup e _
  | .unary _ e | .stepBefore _ e | .stepBehind _ e => [e]
  | .function _ parameters body => parameters ++ body
  | .ifElse test body alternate => test :: body ++ alternate.getD []
  | .whileLoop test body => test :: body
  | .forLoop start test update body => start ++ test ++ update ++ body
  | .foreach source key value body => source :: key :: value :: body
  | .assign left right _ | .binary _ left right | .entry left right => [left, right]
  | .call callee arguments | .methodCall callee _ arguments => callee :: arguments
  | .offsetLookup object offset => [object, offset]
  | .ternary test consequent alternate => [test, consequent, alternate]

attribute [grind =] Core.Node.parts

theorem Core.Node.sizeOf_lt_of_mem_parts {node child : Core.Node} (h : child ∈ node.parts) :
    sizeOf child < sizeOf node := by
  have hlist : ∀ nodes : List Core.Node, child ∈ nodes → sizeOf child < sizeOf nodes :=
    fun _ => List.sizeOf_lt_of_mem
  cases node with
  | ifElse test body alternate =>
      cases alternate <;> grind [parts, ifElse.sizeOf_spec, Option.some.sizeOf_spec]
  | _ => simp only [parts] at h; grind

instance : HasChildren Core.Node := ⟨Core.Node.parts, Core.Node.sizeOf_lt_of_mem_parts⟩

/-- The parts of a JavaScript node. -/
def JavaScript.Node.parts : JavaScript.Node → List JavaScript.Node
  | .absent | .stray _ | .unlisted _ | .identifier _ | .stringLiteral _ | .numericLiteral _
  | .booleanLiteral _ | .nullLiteral => []
  | .arrayExpression nodes | .objectExpression nodes | .sequence nodes | .block nodes
  | .arrayPattern nodes | .declaration _ nodes | .program nodes => nodes
  | .unary _ e | .update _ e _ | .expressionStatement e | .returnStatement e => [e]
  | .objectProperty left right _ | .assignment _ left right | .binary _ left right
  | .logical _ left right | .member left right _ | .whileStatement left right
  | .assignmentPattern left right | .declarator left right => [left, right]
  | .conditional test consequent alternate | .ifStatement test consequent alternate =>
    [test, consequent, alternate]
  | .call callee arguments => callee :: arguments
  | .functionDeclaration name params body => name :: params ++ [body]
  | .forStatement first second third body => [first, second, third, body]
  | .forOf left right body => [left, right, body]

attribute [grind =] JavaScript.Node.parts

theorem JavaScript.Node.sizeOf_lt_of_mem_parts {node child : JavaScript.Node}
    (h : child ∈ node.parts) : sizeOf child < sizeOf node := by
  have hlist : ∀ nodes : List JavaScript.Node, child ∈ nodes → sizeOf child < sizeOf nodes :=
    fun _ => List.sizeOf_lt_of_mem
  cases node <;> simp only [parts] at h <;> grind

instance : HasChildren JavaScript.Node :=
  ⟨JavaScript.Node.parts, JavaScript.Node.sizeOf_lt_of_mem_parts⟩

end PhpMigration
