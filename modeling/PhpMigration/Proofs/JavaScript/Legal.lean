/-
The programs that printing is asked to be faithful to, and where it is not.

A tree may hold anything anywhere, but a program holds names that are names, numbers that are not
negative, and assigns to names and members only.  That is all that is asked for: which operators
meet, how deep they are nested and what the texts hold is left open.  Every such program can be
printed, unless one of its numbers is too long to be written (`prints_program`).

Between `for (` and the first semicolon the operator `in` may stand in brackets only, and what is
walked through by `of` may not be several expressions with commas between them.  The printer puts
parentheses by precedence alone and knows of neither rule.  And it writes a declaration as it finds
it, while a constant needs a value, except as the one variable of a loop by `of`.
`Node.isGrammatical` says that no statement of a program depends on these rules.
-/
import PhpMigration.Proofs.JavaScript.Grammar
import PhpMigration.Proofs.JavaScript.Printable

namespace PhpMigration.JavaScript

/-! ### Precedence and the operator `in` -/

namespace Node

/-- How tightly the outermost operator of an expression binds. -/
def precedence : Node → Nat
  | sequence _ => Precedence.sequence
  | assignment .. | assignmentPattern .. => Precedence.assignment
  | conditional .. => Precedence.conditional
  | binary operator .. | logical operator .. => Precedence.ofBinary operator
  | unary .. => Precedence.unary
  | update _ _ before => if before then Precedence.unary else Precedence.postfixed
  | call .. | member .. => Precedence.member
  | _ => Precedence.primary

/-- The operator that asks whether an object has a member. -/
def isIn : Value → Bool
  | .text operator => operator == "in"
  | _ => false

mutual

/-- Printed by itself, the expression shows the operator `in` outside of all brackets. -/
def hasOpenIn : Node → Bool
  | binary operator left right =>
    isIn operator ||
      decide (Precedence.ofBinary operator ≤ left.precedence) && left.hasOpenIn ||
      decide (Precedence.ofBinary operator + 1 ≤ right.precedence) && right.hasOpenIn
  | logical operator left right =>
    decide (Precedence.ofBinary operator ≤ left.precedence) && left.hasOpenIn ||
      decide (Precedence.ofBinary operator + 1 ≤ right.precedence) && right.hasOpenIn
  | conditional test _ alternate =>
    decide (Precedence.conditional + 1 ≤ test.precedence) && test.hasOpenIn ||
      decide (Precedence.assignment ≤ alternate.precedence) && alternate.hasOpenIn
  | assignment _ _ right => decide (Precedence.assignment ≤ right.precedence) && right.hasOpenIn
  | sequence expressions => anyOpenIn expressions
  | _ => false

/-- One of some expressions with commas between them shows the operator `in`. -/
def anyOpenIn : List Node → Bool
  | [] => false
  | e :: es => decide (Precedence.assignment ≤ e.precedence) && e.hasOpenIn || anyOpenIn es

end

/-- A declaration of one variable that is given no value. -/
def isLoopVariable : Node → Bool
  | declaration _ [declarator _ absent] => true
  | _ => false

mutual

/-- No loop of a statement shows an operator `in` in its first part or a comma in what it walks
through, every loop by `of` has one variable, and what is declared elsewhere has a value. -/
def isGrammatical : Node → Bool
  | block body | program body => allGrammatical body
  | functionDeclaration _ _ body => body.isGrammatical
  | declaration _ declarators => declarators.all Grammar.hasValue
  | ifStatement _ consequent alternate => consequent.isGrammatical && alternate.isGrammatical
  | whileStatement _ body => body.isGrammatical
  | forStatement start _ _ body => !start.hasOpenIn && body.isGrammatical
  | forOf left right body =>
    left.isLoopVariable && decide (Precedence.assignment ≤ right.precedence) && body.isGrammatical
  | _ => true

/-- The same for each of some statements. -/
def allGrammatical : List Node → Bool
  | [] => true
  | s :: ss => s.isGrammatical && allGrammatical ss

end

attribute [grind =] isGrammatical

end Node

/-! ### Legal trees -/

/-- A name that is no reserved word. -/
def Alphabet.IsVariable (A : Alphabet) (name : String) : Prop :=
  A.IsName name ∧ name ∉ Grammar.reservedWords

/-- The keys that need no brackets. -/
inductive IsPlainKey (A : Alphabet) : Node → Prop where
  | name {name : String} (h : A.IsName name) : IsPlainKey A (.identifier (.text name))
  | text (s : String) : IsPlainKey A (.stringLiteral (.text s))
  | number (n : Nat) : IsPlainKey A (.numericLiteral (.number (.int n)))

/-- A property of an object. -/
structure Property where
  key : Node
  value : Node
  computed : Bool

/-- The property as a node. -/
def Property.toNode (p : Property) : Node := .objectProperty p.key p.value p.computed

/-- The expressions of a program. -/
inductive IsExpression (A : Alphabet) : Node → Prop where
  | identifier {name : String} (h : A.IsVariable name) : IsExpression A (.identifier (.text name))
  | stringLiteral (s : String) : IsExpression A (.stringLiteral (.text s))
  | numericLiteral (n : Nat) : IsExpression A (.numericLiteral (.number (.int n)))
  | booleanLiteral (b : Bool) : IsExpression A (.booleanLiteral (.flag b))
  | nullLiteral : IsExpression A .nullLiteral
  | arrayExpression {es : List Node} (hes : ∀ e ∈ es, IsExpression A e) :
      IsExpression A (.arrayExpression es)
  | objectExpression {ps : List Property} (hvalues : ∀ p ∈ ps, IsExpression A p.value)
      (hkeys : ∀ p ∈ ps, p.computed = true → IsExpression A p.key)
      (hplain : ∀ p ∈ ps, p.computed = false → IsPlainKey A p.key) :
      IsExpression A (.objectExpression (ps.map Property.toNode))
  | member {object : Node} {name : String} (hobject : IsExpression A object)
      (hnumber : ∀ n, object ≠ .numericLiteral n) (hname : A.IsName name) :
      IsExpression A (.member object (.identifier (.text name)) false)
  | element {object property : Node} (hobject : IsExpression A object)
      (hproperty : IsExpression A property) : IsExpression A (.member object property true)
  | call {callee : Node} {arguments : List Node} (hcallee : IsExpression A callee)
      (harguments : ∀ e ∈ arguments, IsExpression A e) : IsExpression A (.call callee arguments)
  | update {operator : String} {argument : Node} {before : Bool}
      (hoperator : operator ∈ Grammar.updateOperators) (hplace : Grammar.isPlace argument = true)
      (hargument : IsExpression A argument) :
      IsExpression A (.update (.text operator) argument before)
  | unary {operator : String} {argument : Node} (hoperator : operator ∈ Grammar.unaryOperators)
      (hargument : IsExpression A argument) : IsExpression A (.unary (.text operator) argument)
  | binary {operator : String} {level : Nat} {left right : Node}
      (hoperator : (operator, level) ∈ Precedence.table)
      (hbinary : operator ∉ Grammar.logicalOperators) (hleft : IsExpression A left)
      (hright : IsExpression A right) : IsExpression A (.binary (.text operator) left right)
  | logical {operator : String} {left right : Node} (hoperator : operator ∈ Grammar.logicalOperators)
      (hleft : IsExpression A left) (hright : IsExpression A right) :
      IsExpression A (.logical (.text operator) left right)
  | conditional {test consequent alternate : Node} (htest : IsExpression A test)
      (hconsequent : IsExpression A consequent) (halternate : IsExpression A alternate) :
      IsExpression A (.conditional test consequent alternate)
  | assignment {operator : String} {left right : Node}
      (hoperator : operator ∈ Grammar.assignmentOperators) (hplace : Grammar.isPlace left = true)
      (hleft : IsExpression A left) (hright : IsExpression A right) :
      IsExpression A (.assignment (.text operator) left right)
  | sequence {first second : Node} {es : List Node} (hfirst : IsExpression A first)
      (hsecond : IsExpression A second) (hes : ∀ e ∈ es, IsExpression A e) :
      IsExpression A (.sequence (first :: second :: es))

/-- The names that a declaration declares. -/
inductive IsTarget (A : Alphabet) : Node → Prop where
  | name {name : String} (h : A.IsVariable name) : IsTarget A (.identifier (.text name))
  | names {names : List String} (h : ∀ name ∈ names, A.IsVariable name) :
      IsTarget A (.arrayPattern (names.map fun name => .identifier (.text name)))

/-- A variable that is declared, with its value. -/
inductive IsDeclarator (A : Alphabet) : Node → Prop where
  | bare {target : Node} (htarget : IsTarget A target) : IsDeclarator A (.declarator target .absent)
  | valued {target value : Node} (htarget : IsTarget A target) (hvalue : IsExpression A value) :
      IsDeclarator A (.declarator target value)

/-- A parameter of a function. -/
inductive IsParameter (A : Alphabet) : Node → Prop where
  | name {name : String} (h : A.IsVariable name) : IsParameter A (.identifier (.text name))
  | default {name : String} {value : Node} (h : A.IsVariable name) (hvalue : IsExpression A value) :
      IsParameter A (.assignmentPattern (.identifier (.text name)) value)

/-- A part of the head of a loop, which may be missing. -/
def IsPart (A : Alphabet) (e : Node) : Prop := e = .absent ∨ IsExpression A e

/-- The statements of a program. -/
inductive IsStatement (A : Alphabet) : Node → Prop where
  | expressionStatement {e : Node} (he : IsExpression A e) : IsStatement A (.expressionStatement e)
  | block {body : List Node} (hbody : ∀ s ∈ body, IsStatement A s) : IsStatement A (.block body)
  | returnStatement {argument : Node} (hargument : IsPart A argument) :
      IsStatement A (.returnStatement argument)
  | declaration {declarators : List Node} (hsome : declarators ≠ [])
      (hdeclarators : ∀ d ∈ declarators, IsDeclarator A d) :
      IsStatement A (.declaration (.text "const") declarators)
  | functionDeclaration {name : String} {params body : List Node} (hname : A.IsVariable name)
      (hparams : ∀ p ∈ params, IsParameter A p) (hbody : ∀ s ∈ body, IsStatement A s) :
      IsStatement A (.functionDeclaration (.identifier (.text name)) params (.block body))
  | ifStatement {test : Node} {consequent : List Node} (htest : IsExpression A test)
      (hconsequent : ∀ s ∈ consequent, IsStatement A s) :
      IsStatement A (.ifStatement test (.block consequent) .absent)
  | ifElse {test : Node} {consequent alternate : List Node} (htest : IsExpression A test)
      (hconsequent : ∀ s ∈ consequent, IsStatement A s)
      (halternate : ∀ s ∈ alternate, IsStatement A s) :
      IsStatement A (.ifStatement test (.block consequent) (.block alternate))
  | whileStatement {test : Node} {body : List Node} (htest : IsExpression A test)
      (hbody : ∀ s ∈ body, IsStatement A s) : IsStatement A (.whileStatement test (.block body))
  | forStatement {start test update : Node} {body : List Node} (hstart : IsPart A start)
      (htest : IsPart A test) (hupdate : IsPart A update) (hbody : ∀ s ∈ body, IsStatement A s) :
      IsStatement A (.forStatement start test update (.block body))
  | forOf {declarators body : List Node} {right : Node} (hsome : declarators ≠ [])
      (hdeclarators : ∀ d ∈ declarators, IsDeclarator A d) (hright : IsExpression A right)
      (hbody : ∀ s ∈ body, IsStatement A s) :
      IsStatement A (.forOf (.declaration (.text "const") declarators) right (.block body))

/-! ### Legal trees can be printed -/

section

variable {A : Alphabet} {e : Node}

theorem IsPlainKey.isPrintable (h : IsPlainKey A e) : e.IsPrintable := by
  cases h with
  | name _ => exact Node.isPrintable_identifier _
  | text _ => exact Node.isPrintable_string _
  | number _ => exact Node.isPrintable_number _

theorem IsExpression.isPrintable (h : IsExpression A e) : e.IsPrintable := by
  induction h with
  | identifier _ => exact Node.isPrintable_identifier _
  | stringLiteral _ => exact Node.isPrintable_string _
  | numericLiteral _ => exact Node.isPrintable_number _
  | booleanLiteral _ => exact Node.isPrintable_boolean _
  | nullLiteral => exact Node.isPrintable_null
  | arrayExpression _ ih => exact .array ih
  | objectExpression _ _ hplain ihvalues ihkeys =>
      refine .object fun q hq => ?_
      obtain ⟨⟨key, value, computed⟩, hp, rfl⟩ := List.mem_map.mp hq
      refine .intro computed ?_ (ihvalues _ hp)
      cases computed with
      | true => exact ihkeys _ hp rfl
      | false => exact (hplain _ hp rfl).isPrintable
  | member _ _ _ ih => exact .member false ih (Node.isPrintable_identifier _)
  | element _ _ iho ihp => exact .member true iho ihp
  | call _ _ ihc iha => exact .call ihc iha
  | update _ _ _ ih => exact .update _ _ ih
  | unary _ _ ih => exact .unary _ ih
  | binary _ _ _ _ ihl ihr => exact .binary _ ihl ihr
  | logical _ _ _ ihl ihr => exact .logical _ ihl ihr
  | conditional _ _ _ iht ihc iha => exact .conditional iht ihc iha
  | assignment _ _ _ _ ihl ihr => exact .assignment _ ihl ihr
  | sequence _ _ _ ihf ihs ihe =>
      exact .sequence (List.forall_mem_cons.mpr ⟨ihf, List.forall_mem_cons.mpr ⟨ihs, ihe⟩⟩)

theorem IsPart.isPrintable (h : IsPart A e) : e.IsPrintable := by
  rcases h with rfl | h
  · exact Node.isPrintable_absent
  · exact h.isPrintable

theorem IsTarget.isPrintable (h : IsTarget A e) : e.IsPrintable := by
  cases h with
  | name _ => exact Node.isPrintable_identifier _
  | names _ =>
      refine .arrayPattern fun q hq => ?_
      obtain ⟨name, -, rfl⟩ := List.mem_map.mp hq
      exact Node.isPrintable_identifier name

theorem IsDeclarator.isPrintable (h : IsDeclarator A e) : e.IsPrintableDeclarator := by
  cases h with
  | bare htarget => exact .intro htarget.isPrintable Node.isPrintable_absent
  | valued htarget hvalue => exact .intro htarget.isPrintable hvalue.isPrintable

theorem IsParameter.isPrintable (h : IsParameter A e) : e.IsPrintable := by
  cases h with
  | name _ => exact Node.isPrintable_identifier _
  | default _ hvalue => exact .assignmentPattern (Node.isPrintable_identifier _) hvalue.isPrintable

theorem IsStatement.flows (h : IsStatement A e) : e.Flows := by
  induction h with
  | expressionStatement he => exact he.isPrintable.flows_expressionStatement
  | block _ ih => exact Node.flows_block ih
  | returnStatement hargument => exact hargument.isPrintable.flows_return
  | declaration _ hds => exact Node.flows_declaration _ fun d hd => (hds d hd).isPrintable
  | functionDeclaration _ hparams _ ih =>
      exact Node.flows_function _ (fun p hp => (hparams p hp).isPrintable) ih
  | ifStatement htest _ ih => exact Node.flows_if htest.isPrintable ih
  | ifElse htest _ _ ihc iha => exact Node.flows_ifElse htest.isPrintable ihc iha
  | whileStatement htest _ ih => exact Node.flows_while htest.isPrintable ih
  | forStatement hstart htest hupdate _ ih =>
      exact Node.flows_for hstart.isPrintable htest.isPrintable hupdate.isPrintable ih
  | forOf _ hds hright _ ih =>
      exact Node.flows_forOf _ (fun d hd => (hds d hd).isPrintable) hright.isPrintable ih

/-- **A program is printed just if its numbers are short enough**, and otherwise the printer says
that one is too long. -/
theorem prints_program (indent : String) {body : List Node} (h : ∀ s ∈ body, IsStatement A s) :
    Prints (Node.program body).isWritable anything ((Node.program body).print indent) :=
  Node.print_of_flows indent fun s hs => (h s hs).flows

end

end PhpMigration.JavaScript
