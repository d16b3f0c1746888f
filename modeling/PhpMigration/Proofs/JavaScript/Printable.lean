/-
What can be printed.

An expression can be printed if it is rendered and the result is a text: a name that is none is
shown, and then the node around it may be lost, so both are asked for.  A statement can be printed
if its lines are found at every depth and behind every head.  Both are closed under the
constructors, each of which asks its children in turn and has nothing of its own to fail with, as
long as its operator is a text and its block a block.

One thing is left that printing fails on, wherever it stands: an integer with too many digits.  So
what can be printed is printed just if the integers of its literals are short enough
(`Node.isWritable`), and otherwise that is what the failure says (`Prints`).

A statement is also printed if it is an expression, so the statements of a body can be any
expressions at all, and only the ones that are not there have to be left out.
-/
import PhpMigration.JavaScript.Printer
import PhpMigration.Proofs.Attempt

namespace PhpMigration.JavaScript

/-! ### Integers that are too long -/

mutual

/-- No literal in the tree holds an integer that is too long to be written. -/
@[grind =]
def Node.isWritable : Node → Bool
  | .numericLiteral value => value.isWritable
  | .absent | .stray _ | .unlisted _ | .identifier _ | .stringLiteral _ | .booleanLiteral _
  | .nullLiteral => true
  | .arrayExpression nodes | .objectExpression nodes | .sequence nodes | .block nodes
  | .arrayPattern nodes | .declaration _ nodes | .program nodes => eachWritable nodes
  | .unary _ e | .update _ e _ | .expressionStatement e | .returnStatement e => e.isWritable
  | .objectProperty left right _ | .assignment _ left right | .binary _ left right
  | .logical _ left right | .member left right _ | .whileStatement left right
  | .assignmentPattern left right | .declarator left right => left.isWritable && right.isWritable
  | .conditional test consequent alternate | .ifStatement test consequent alternate =>
    test.isWritable && consequent.isWritable && alternate.isWritable
  | .call callee arguments => callee.isWritable && eachWritable arguments
  | .functionDeclaration name params body =>
    name.isWritable && eachWritable params && body.isWritable
  | .forStatement first second third body =>
    first.isWritable && second.isWritable && third.isWritable && body.isWritable
  | .forOf left right body => left.isWritable && right.isWritable && body.isWritable

/-- No literal in some trees holds an integer that is too long to be written. -/
def eachWritable : List Node → Bool
  | [] => true
  | node :: rest => node.isWritable && eachWritable rest

end

theorem eachWritable_eq_true {nodes : List Node} :
    eachWritable nodes = true ↔ ∀ node ∈ nodes, node.isWritable = true := by
  induction nodes with
  | nil => simp [eachWritable]
  | cons node rest ih => simp [eachWritable, ih]

/-- Something is printed just if its integers are short enough, and fails for one that is too long
otherwise. -/
abbrev Prints {α : Type} (writable : Bool) (good : α → Prop) (r : Except PrintFault α) : Prop :=
  Settles writable good (· = .tooManyDigits) r

/-- Whether or not it succeeds is all that is asked. -/
def anything {α : Type} (_ : α) : Prop := True

/-- The node is rendered as an expression, to a text. -/
def Node.IsPrintable (node : Node) : Prop :=
  Prints node.isWritable (fun r => r.isText = true) node.rendered

/-- The node has its lines as a statement, wherever it stands. -/
def Node.Flows (node : Node) : Prop :=
  ∀ depth head, Prints node.isWritable anything (node.flow depth head)

/-! ### Lists of expressions

A list is rendered member by member, and its texts are joined if they are texts. -/

theorem commaList_of_isText (least : Nat) {rs : List Rendered} (h : ∀ r ∈ rs, r.isText = true) :
    ∃ text, Rendered.commaList least rs = .ok text ∧ anything text :=
  ⟨_, Rendered.commaList_eq least h, trivial⟩

theorem renderedEach_of_isPrintable {nodes : List Node} (h : ∀ node ∈ nodes, node.IsPrintable) :
    Prints (eachWritable nodes) (fun rs => ∀ r ∈ rs, r.isText = true) (renderedEach nodes) := by
  induction nodes with
  | nil => exact ⟨rfl, by simp⟩
  | cons node rest ih =>
      rw [renderedEach, eachWritable]
      refine (h node (by simp)).bind fun r hr => (ih fun n hn => h n (by simp [hn])).map ?_
      exact fun rs hrs => List.forall_mem_cons.mpr ⟨hr, hrs⟩

/-- A text from the members of a list, put together with commas. -/
theorem commaList_of_isPrintable (least : Nat) {nodes : List Node}
    (h : ∀ node ∈ nodes, node.IsPrintable) :
    Prints (eachWritable nodes) anything (renderedEach nodes >>= Rendered.commaList least) :=
  (renderedEach_of_isPrintable h).bind_ok fun _ hrs => commaList_of_isText least hrs

/-- The properties of an object whose keys and values can be printed. -/
inductive Node.IsPrintableProperty : Node → Prop
  | intro {key value : Node} (computed : Bool) (hkey : key.IsPrintable)
      (hvalue : value.IsPrintable) : IsPrintableProperty (.objectProperty key value computed)

theorem propertyTexts_of_isPrintable {properties : List Node}
    (h : ∀ p ∈ properties, p.IsPrintableProperty) :
    Prints (eachWritable properties) anything (propertyTexts properties) := by
  induction properties with
  | nil => exact ⟨rfl, trivial⟩
  | cons p rest ih =>
      have hrest := ih fun q hq => h q (by simp [hq])
      cases h p (by simp) with
      | intro computed hkey hvalue =>
          rw [propertyTexts, eachWritable, Node.isWritable, Bool.and_assoc]
          exact hkey.bind fun k _ => hvalue.bind fun v _ => hrest.map fun _ _ => trivial

/-! ### Expressions -/

namespace Node

section

variable {left right test consequent alternate : Node}

theorem isPrintable_absent : IsPrintable .absent := ⟨rfl, rfl⟩

theorem isPrintable_null : IsPrintable .nullLiteral := ⟨rfl, rfl⟩

theorem isPrintable_identifier (name : String) : IsPrintable (.identifier (.text name)) :=
  ⟨rfl, rfl⟩

theorem isPrintable_string (value : Value) : IsPrintable (.stringLiteral value) := ⟨rfl, rfl⟩

theorem isPrintable_boolean (value : Value) : IsPrintable (.booleanLiteral value) := ⟨rfl, rfl⟩

/-- Here is what the test is about. -/
theorem isPrintable_number (value : Value) : IsPrintable (.numericLiteral value) := by
  rw [IsPrintable, isWritable, rendered, Rendered.ofLiteral]
  cases h : value.isWritable with
  | true => exact ⟨rfl, rfl⟩
  | false => exact ⟨rfl, rfl⟩

theorem IsPrintable.array {elements : List Node} (h : ∀ e ∈ elements, e.IsPrintable) :
    IsPrintable (.arrayExpression elements) := by
  rw [IsPrintable, isWritable, rendered]
  refine (renderedEach_of_isPrintable h).bind_ok fun rs hrs => ?_
  obtain ⟨text, htext, -⟩ := commaList_of_isText Precedence.assignment hrs
  exact ⟨.atom ("[" ++ text ++ "]"), by rw [Rendered.ofElements, htext]; rfl, rfl⟩

theorem IsPrintable.arrayPattern {elements : List Node} (h : ∀ e ∈ elements, e.IsPrintable) :
    IsPrintable (.arrayPattern elements) := by
  rw [IsPrintable, isWritable, rendered]
  refine (renderedEach_of_isPrintable h).bind_ok fun rs hrs => ?_
  obtain ⟨text, htext, -⟩ := commaList_of_isText Precedence.sequence hrs
  exact ⟨.atom ("[" ++ text ++ "]"), by rw [Rendered.ofElements, htext]; rfl, rfl⟩

theorem IsPrintable.object {properties : List Node}
    (h : ∀ p ∈ properties, p.IsPrintableProperty) : IsPrintable (.objectExpression properties) := by
  rw [IsPrintable, isWritable, rendered]
  exact (propertyTexts_of_isPrintable h).map fun _ _ => rfl

theorem IsPrintable.sequence {expressions : List Node} (h : ∀ e ∈ expressions, e.IsPrintable) :
    IsPrintable (.sequence expressions) := by
  rw [IsPrintable, isWritable, rendered]
  refine (renderedEach_of_isPrintable h).bind_ok fun rs hrs => ?_
  obtain ⟨text, htext, -⟩ := commaList_of_isText Precedence.assignment hrs
  exact ⟨⟨text, Precedence.sequence, true⟩, by rw [htext]; rfl, rfl⟩

theorem IsPrintable.call {callee : Node} {arguments : List Node} (hcallee : callee.IsPrintable)
    (h : ∀ e ∈ arguments, e.IsPrintable) : IsPrintable (.call callee arguments) := by
  rw [IsPrintable, isWritable, rendered]
  refine hcallee.bind fun r _ => (renderedEach_of_isPrintable h).bind_ok fun rs hrs => ?_
  obtain ⟨text, htext, -⟩ := commaList_of_isText Precedence.assignment hrs
  exact ⟨⟨r.within Precedence.member ++ "(" ++ text ++ ")", Precedence.member, true⟩,
    by rw [Rendered.ofCall, htext]; rfl, rfl⟩

theorem IsPrintable.assignment (operator : Value) (hl : left.IsPrintable)
    (hr : right.IsPrintable) : IsPrintable (.assignment operator left right) := by
  rw [IsPrintable, isWritable, rendered]
  exact hl.bind fun _ _ => hr.map fun _ _ => rfl

theorem IsPrintable.assignmentPattern (hl : left.IsPrintable) (hr : right.IsPrintable) :
    IsPrintable (.assignmentPattern left right) := by
  rw [IsPrintable, isWritable, rendered]
  exact hl.bind fun _ _ => hr.map fun _ _ => rfl

theorem IsPrintable.binary (operator : Value) (hl : left.IsPrintable) (hr : right.IsPrintable) :
    IsPrintable (.binary operator left right) := by
  rw [IsPrintable, isWritable, rendered]
  exact hl.bind fun _ _ => hr.map fun _ _ => rfl

theorem IsPrintable.logical (operator : Value) (hl : left.IsPrintable) (hr : right.IsPrintable) :
    IsPrintable (.logical operator left right) := by
  rw [IsPrintable, isWritable, rendered]
  exact hl.bind fun _ _ => hr.map fun _ _ => rfl

theorem IsPrintable.member (computed : Bool) (hl : left.IsPrintable) (hr : right.IsPrintable) :
    IsPrintable (.member left right computed) := by
  rw [IsPrintable, isWritable, rendered]
  exact hl.bind fun _ _ => hr.map fun _ _ => rfl

theorem IsPrintable.conditional (ht : test.IsPrintable) (hc : consequent.IsPrintable)
    (ha : alternate.IsPrintable) : IsPrintable (.conditional test consequent alternate) := by
  rw [IsPrintable, isWritable, rendered, Bool.and_assoc]
  exact ht.bind fun _ _ => hc.bind fun _ _ => ha.map fun _ _ => rfl

theorem IsPrintable.unary (symbol : String) (h : right.IsPrintable) :
    IsPrintable (.unary (.text symbol) right) := by
  rw [IsPrintable, isWritable, rendered]
  refine h.bind_ok fun r hr => ⟨⟨symbol ++ Rendered.separator symbol (r.within Precedence.unary) ++
    r.within Precedence.unary, Precedence.unary, true⟩, ?_, rfl⟩
  simp [Rendered.ofUnary, hr, pure, Except.pure]

theorem IsPrintable.update (symbol : String) (before : Bool) (h : right.IsPrintable) :
    IsPrintable (.update (.text symbol) right before) := by
  rw [IsPrintable, isWritable, rendered]
  refine h.bind_ok fun r hr => ?_
  cases before with
  | true =>
      refine ⟨⟨symbol ++ r.within Precedence.unary, Precedence.unary, true⟩, ?_, rfl⟩
      simp [Rendered.ofUpdate, Rendered.textWithin, hr, bind, Except.bind, pure, Except.pure]
  | false =>
      refine ⟨⟨r.within Precedence.member ++ symbol, Precedence.postfixed, true⟩, ?_, rfl⟩
      simp [Rendered.ofUpdate, Rendered.textWithin, hr, bind, Except.bind, pure, Except.pure]

theorem isPrintable_expressionStatement {e : Node} :
    IsPrintable (.expressionStatement e) ↔ e.IsPrintable := by
  rw [IsPrintable, IsPrintable, isWritable, rendered_expressionStatement]

theorem IsPrintable.expressionText (h : left.IsPrintable) :
    Prints left.isWritable anything left.expressionText := by
  rw [Node.expressionText]
  exact h.map fun _ _ => trivial

theorem IsPrintable.statementText (h : left.IsPrintable) :
    Prints left.isWritable anything left.statementText := by
  rw [Node.statementText]
  refine h.bind_ok fun r hr => ⟨parenthesized (r.within Precedence.sequence), ?_, trivial⟩
  rw [if_pos hr]
  rfl

theorem IsPrintable.headerPart (lead : String) (h : left.IsPrintable) :
    Prints left.isWritable anything (left.headerPart lead) := by
  rw [Node.headerPart]
  by_cases hp : left.isPresent = true
  · rw [if_pos hp]
    refine h.bind_ok fun r hr => ⟨lead ++ r.within Precedence.sequence, ?_, trivial⟩
    rw [Rendered.textWithin, if_pos hr]
    rfl
  · rw [if_neg hp]
    obtain rfl := eq_absent_of_not_isPresent hp
    exact ⟨rfl, trivial⟩

end

/-! ### Statements

A block flows if its statements do; only its own braces are added.  The second branch of a choice
is looked at more closely, but a branch of statements that flow passes every look. -/

theorem flows_absent : Flows .absent := fun _ _ => ⟨rfl, trivial⟩

/-- Something that should be a list of statements and is none does not flow. -/
theorem Flows.ne_unlisted {node : Node} (h : node.Flows) (given : Bool) :
    node ≠ .unlisted given := by
  rintro rfl
  exact PrintFault.noConfusion (h 0 "").2

theorem linesEach_of_flows {nodes : List Node} (h : ∀ node ∈ nodes, node.Flows) :
    ∀ depth previous, Prints (eachWritable nodes) anything (linesEach depth previous nodes) := by
  induction nodes with
  | nil => exact fun _ _ => ⟨rfl, trivial⟩
  | cons node rest ih =>
      intro depth previous
      have hnode := h node (by simp)
      rw [eachWritable, linesEach]
      · exact (hnode depth "").bind fun o _ =>
          (ih (fun n hn => h n (by simp [hn])) depth (some node)).map fun _ _ => trivial
      · exact fun heq => hnode.ne_unlisted false heq

theorem blockFlow_of_flows {body : List Node} (h : ∀ node ∈ body, node.Flows) (depth : Nat)
    (head : String) :
    Prints (Node.block body).isWritable anything ((Node.block body).blockFlow depth head) := by
  rw [isWritable, blockFlow]
  exact (linesEach_of_flows h (depth + 1) none).map fun _ _ => trivial

theorem elseFlow_of_flows {body : List Node} (h : ∀ node ∈ body, node.Flows) (depth : Nat)
    (head : String) :
    Prints (Node.block body).isWritable anything ((Node.block body).elseFlow depth head) := by
  rw [isWritable]
  rcases body with _ | ⟨only, _ | ⟨second, rest⟩⟩
  · exact ⟨rfl, trivial⟩
  · have honly := h only (by simp)
    rw [eachWritable, eachWritable, Bool.and_true, elseFlow]
    · split
      · exact (honly depth head).map fun _ _ => trivial
      · exact (honly (depth + 1) "").map fun _ _ => trivial
    · exact fun given heq => honly.ne_unlisted given heq
  · rw [elseFlow.eq_def]
    simp only
    exact (linesEach_of_flows h (depth + 1) none).map fun _ _ => trivial

section

variable {e test start update source : Node} {body alternate : List Node}

theorem IsPrintable.flows_expressionStatement (h : e.IsPrintable) :
    Flows (.expressionStatement e) := by
  intro depth head
  rw [isWritable, flow]
  exact h.statementText.map fun _ _ => trivial

theorem flows_block (h : ∀ node ∈ body, node.Flows) : Flows (.block body) := by
  intro depth head
  rw [flow_block, isWritable]
  exact (linesEach_of_flows h (depth + 1) none).map fun _ _ => trivial

theorem IsPrintable.flows_return (h : e.IsPrintable) : Flows (.returnStatement e) := by
  intro depth head
  rw [isWritable, flow]
  by_cases hp : e.isPresent = true
  · rw [if_pos hp]
    exact h.expressionText.map fun _ _ => trivial
  · rw [if_neg hp]
    obtain rfl := eq_absent_of_not_isPresent hp
    exact ⟨rfl, trivial⟩

/-- A variable that can be declared: what names it can be printed, and so can its value. -/
inductive IsPrintableDeclarator : Node → Prop
  | intro {target value : Node} (htarget : target.IsPrintable) (hvalue : value.IsPrintable) :
      IsPrintableDeclarator (.declarator target value)

theorem declaratorsRendered_of_isPrintable {declarators : List Node}
    (h : ∀ d ∈ declarators, d.IsPrintableDeclarator) :
    Prints (eachWritable declarators) (fun rs => ∀ r ∈ rs, r.isText = true)
      (declaratorsRendered declarators) := by
  induction declarators with
  | nil => exact ⟨rfl, by simp⟩
  | cons d rest ih =>
      have hrest := ih fun q hq => h q (by simp [hq])
      cases h d (by simp) with
      | @intro target value htarget hvalue =>
          have hcons (r : Rendered) (hr : r.isText = true) :
              Prints (eachWritable rest) (fun rs => ∀ r ∈ rs, r.isText = true)
                (declaratorsRendered rest >>= fun rs => pure (r :: rs)) :=
            hrest.map fun rs hrs => List.forall_mem_cons.mpr ⟨hr, hrs⟩
          rw [declaratorsRendered, eachWritable, isWritable, Bool.and_assoc]
          refine htarget.bind fun t ht => ?_
          by_cases hp : value.isPresent = true
          · rw [if_pos hp]
            refine hvalue.bind fun v hv => ?_
            rw [ht, hv]
            exact hcons (.ofDefault t v) rfl
          · obtain rfl := eq_absent_of_not_isPresent hp
            exact hcons t ht

theorem declarationText_of_isPrintable (kind : Value) {declarators : List Node}
    (h : ∀ d ∈ declarators, d.IsPrintableDeclarator) :
    Prints (eachWritable declarators) anything
      (Node.declaration kind declarators).declarationText := by
  rw [declarationText]
  refine (declaratorsRendered_of_isPrintable h).bind_ok fun rs hrs => ?_
  obtain ⟨text, htext, -⟩ := commaList_of_isText Precedence.sequence hrs
  exact ⟨kind.shown ++ " " ++ text, by rw [htext]; rfl, trivial⟩

theorem flows_declaration (kind : Value) {declarators : List Node}
    (h : ∀ d ∈ declarators, d.IsPrintableDeclarator) : Flows (.declaration kind declarators) := by
  intro depth head
  rw [flow, isWritable]
  exact (declarationText_of_isPrintable kind h).map fun _ _ => trivial

theorem flows_function (name : Value) {params : List Node} (hparams : ∀ p ∈ params, p.IsPrintable)
    (h : ∀ node ∈ body, node.Flows) :
    Flows (.functionDeclaration (.identifier name) params (.block body)) := by
  intro depth head
  rw [flow, isWritable, isWritable, Bool.true_and]
  show Prints _ anything (renderedEach params >>= fun rs => Rendered.commaList _ rs >>= fun _ => _)
  rw [← bind_assoc]
  exact (commaList_of_isPrintable _ hparams).bind fun text _ => blockFlow_of_flows h depth _

theorem flows_if (ht : test.IsPrintable) (h : ∀ node ∈ body, node.Flows) :
    Flows (.ifStatement test (.block body) .absent) := by
  intro depth head
  rw [flow, isWritable, isWritable, Bool.and_true]
  refine ht.expressionText.bind fun text _ => (blockFlow_of_flows h depth _).bind_ok fun o _ => ?_
  exact ⟨o, by rw [elseFlow_absent]; rfl, trivial⟩

theorem flows_ifElse (ht : test.IsPrintable) (h : ∀ node ∈ body, node.Flows)
    (ha : ∀ node ∈ alternate, node.Flows) :
    Flows (.ifStatement test (.block body) (.block alternate)) := by
  intro depth head
  rw [flow, isWritable, Bool.and_assoc]
  refine ht.expressionText.bind fun text _ => (blockFlow_of_flows h depth _).bind fun first _ => ?_
  refine (elseFlow_of_flows ha depth _).bind_ok fun second _ => ?_
  cases second with
  | none => exact ⟨_, rfl, trivial⟩
  | some second => exact ⟨_, rfl, trivial⟩

theorem flows_while (ht : test.IsPrintable) (h : ∀ node ∈ body, node.Flows) :
    Flows (.whileStatement test (.block body)) := by
  intro depth head
  rw [flow, isWritable]
  exact ht.expressionText.bind fun text _ => blockFlow_of_flows h depth _

theorem flows_for (hs : start.IsPrintable) (ht : test.IsPrintable) (hu : update.IsPrintable)
    (h : ∀ node ∈ body, node.Flows) : Flows (.forStatement start test update (.block body)) := by
  intro depth head
  rw [flow, isWritable, Bool.and_assoc, Bool.and_assoc]
  exact (hs.headerPart "").bind fun _ _ => (ht.headerPart " ").bind fun _ _ =>
    (hu.headerPart " ").bind fun _ _ => blockFlow_of_flows h depth _

theorem flows_forOf (kind : Value) {declarators : List Node}
    (hd : ∀ d ∈ declarators, d.IsPrintableDeclarator) (hs : source.IsPrintable)
    (h : ∀ node ∈ body, node.Flows) :
    Flows (.forOf (.declaration kind declarators) source (.block body)) := by
  intro depth head
  rw [flow, isWritable, Bool.and_assoc, isWritable]
  exact (declarationText_of_isPrintable kind hd).bind fun _ _ =>
    hs.expressionText.bind fun _ _ => blockFlow_of_flows h depth _

end

/-- A program of statements that flow has a text just if its integers are short enough. -/
theorem print_of_flows (indent : String) {body : List Node} (h : ∀ node ∈ body, node.Flows) :
    Prints (Node.program body).isWritable anything ((Node.program body).print indent) := by
  rw [isWritable, print]
  · exact (linesEach_of_flows h 0 none).map fun _ _ => trivial
  · rintro given rfl
    exact (h _ (by simp)).ne_unlisted given rfl

end Node

end PhpMigration.JavaScript
