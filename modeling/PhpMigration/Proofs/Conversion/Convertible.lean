/-
Which source trees can be converted.

The grammar builds trees in which expressions and statements stand where they belong, operators
and the names of functions, parameters and constants are texts, and the names of variables,
members, methods and loop targets may be expressions.  On such a tree the step to the core never
fails, and it yields a well-sorted program.

Whether that program can be lowered is read off the tree.  Three things keep it from being
lowered: a method whose name is computed, a loop whose target is a variable with a computed name,
and an array with an element that is not there.  The first two become unsupported constructs that
carry the kind of a supported one, and so are taken for it.  A call of a static method with a
computed name, or a variable with one, are no less dynamic, but their kinds are their own and so
they become placeholders like everything else that is not supported.
-/
import PhpMigration.Php.ToCore
import PhpMigration.Proofs.Conversion.Lowerable

namespace PhpMigration.Php

/-! ### The shape of a tree -/

/-- The constructs that the grammar builds and the core has no counterpart for. -/
def constructNames : List String :=
  ["ListAssignment", "New", "Clone", "Break", "Continue", "Yield", "Global", "Static", "Unset",
    "Try", "Catch", "Finally", "Throw", "Declare", "Directive", "Method", "Closure", "Class",
    "Trait", "ClassConstants", "ClassConstant", "ClassVariables", "ClassVariable", "Interface",
    "Cast", "IsSet", "Empty", "Eval", "Include", "Require", "Exit", "Silence", "MagicConstant",
    "StaticVariable", "LexicalVariable", "StringOffset", "StaticProperty", "DoWhile", "Switch",
    "Case", "Default", "Namespace", "UseDeclarations", "UseDeclaration", "ConstantDeclarations",
    "ConstantDeclaration", "TraitUse", "TraitModifier"]

namespace Node

/-- What an argument of a call passes; the wrapper that marks references is taken off. -/
def argument : Node → Node
  | .parameter value => value
  | node => node

/-- The key and the value of an element of an array, or the element itself. -/
def elementParts : Node → List Node
  | .arrayElement key value => [key, value]
  | node => [node]

/-- What a loop binds; the wrapper that marks references is taken off. -/
def target : Node → Node
  | .foreachVariable target => target
  | node => node

/-- The statements of a body, which may be a block, a list, one statement or nothing. -/
def statements : Node → List Node
  | .absent => []
  | .block nodes | .list nodes => nodes
  | node => [node]

end Node

/-- A node that the grammar builds where an expression is needed: an expression, a literal or
nothing. -/
inductive IsExpression : Node → Prop
  | absent : IsExpression .absent
  | flag (value : Bool) : IsExpression (.flag value)
  | text (value : String) : IsExpression (.text value)
  | number (value : Numeral) : IsExpression (.number value)
  | print {value : Node} (h : IsExpression value) : IsExpression (.print value)
  | assignment {target value : Node} (ht : IsExpression target) (hv : IsExpression value) :
      IsExpression (.assignment target value)
  | assignOp (operator : String) {target value : Node} (ht : IsExpression target)
      (hv : IsExpression value) : IsExpression (.assignOp (.text operator) target value)
  | binaryOp (operator : String) {left right : Node} (hl : IsExpression left)
      (hr : IsExpression right) : IsExpression (.binaryOp (.text operator) left right)
  | unaryOp (operator : String) {operand : Node} (h : IsExpression operand) :
      IsExpression (.unaryOp (.text operator) operand)
  | ternary {test consequent alternate : Node} (ht : IsExpression test)
      (hc : IsExpression consequent) (ha : IsExpression alternate) :
      IsExpression (.ternary test consequent alternate)
  | stepBefore {operator : String} {operand : Node} (hne : operator ≠ "")
      (h : IsExpression operand) : IsExpression (.stepBefore (.text operator) operand)
  | stepBehind {operator : String} {operand : Node} (hne : operator ≠ "")
      (h : IsExpression operand) : IsExpression (.stepBehind (.text operator) operand)
  | constant (name : String) : IsExpression (.constant (.text name))
  | variable (name : Node) : IsExpression (.variable name)
  | functionCall {name : Node} {arguments : List Node} (hn : IsExpression name)
      (h : ∀ a ∈ arguments, IsExpression a.argument) : IsExpression (.functionCall name arguments)
  | methodCall (name : Node) {object : Node} {arguments : List Node} (ho : IsExpression object)
      (h : ∀ a ∈ arguments, IsExpression a.argument) :
      IsExpression (.methodCall object name arguments)
  | staticMethodCall (className name : Node) {arguments : List Node}
      (h : ∀ a ∈ arguments, IsExpression a.argument) :
      IsExpression (.staticMethodCall className name arguments)
  | objectProperty {object name : Node} (ho : IsExpression object) (hn : IsExpression name) :
      IsExpression (.objectProperty object name)
  | arrayOffset {base index : Node} (hb : IsExpression base) (hi : IsExpression index) :
      IsExpression (.arrayOffset base index)
  | array {elements : List Node} (h : ∀ e ∈ elements, ∀ part ∈ e.elementParts, IsExpression part) :
      IsExpression (.array elements)
  | other {name : String} (h : name ∈ constructNames) : IsExpression (.other name)
  | enclosing {name : String} (inner : Node) (h : name ∈ constructNames) :
      IsExpression (.enclosing name inner)
  | guarded {name : String} (test inner : Node) (h : name ∈ constructNames) :
      IsExpression (.guarded name test inner)

/-- A node that the grammar builds as the target of a loop over a collection. -/
inductive IsTarget : Node → Prop
  | expression {node : Node} (h : IsExpression node) : IsTarget node
  | list (items : List Node) : IsTarget (.list items)

/-- A node that the grammar builds among the parameters of a function. -/
inductive IsParameter : Node → Prop
  | intro (name : String) {default : Node} (h : IsExpression default) :
      IsParameter (.formalParameter (.text name) default)

/-- A node that the grammar builds where a statement is needed. -/
inductive IsStatement : Node → Prop
  | expression {e : Node} (h : IsExpression e) : IsStatement e
  | inlineHtml (data : String) : IsStatement (.inlineHtml (.text data))
  | block {nodes : List Node} (h : ∀ s ∈ nodes, IsStatement s) : IsStatement (.block nodes)
  | echo {values : List Node} (h : ∀ e ∈ values, IsExpression e) : IsStatement (.echo values)
  | returnValue {value : Node} (h : IsExpression value) : IsStatement (.returnValue value)
  | function (name : String) {parameters : List Node} {body : Node}
      (hp : ∀ p ∈ parameters, IsParameter p) (h : ∀ s ∈ body.statements, IsStatement s) :
      IsStatement (.function (.text name) parameters body)
  | ifThen {test body : Node} {branches : List (Node × Node)} (ht : IsExpression test)
      (h : ∀ s ∈ body.statements, IsStatement s) (hts : ∀ b ∈ branches, IsExpression b.1)
      (hs : ∀ b ∈ branches, ∀ s ∈ b.2.statements, IsStatement s) :
      IsStatement (.ifElse test body (branches.map fun b => .elseIf b.1 b.2) .absent)
  | ifElse {test body last : Node} {branches : List (Node × Node)} (ht : IsExpression test)
      (h : ∀ s ∈ body.statements, IsStatement s) (hts : ∀ b ∈ branches, IsExpression b.1)
      (hs : ∀ b ∈ branches, ∀ s ∈ b.2.statements, IsStatement s)
      (hl : ∀ s ∈ last.statements, IsStatement s) :
      IsStatement (.ifElse test body (branches.map fun b => .elseIf b.1 b.2) (.elseBranch last))
  | whileLoop {test body : Node} (ht : IsExpression test)
      (h : ∀ s ∈ body.statements, IsStatement s) : IsStatement (.whileLoop test body)
  | forLoop {start test update : List Node} {body : Node} (hs : ∀ e ∈ start, IsExpression e)
      (ht : ∀ e ∈ test, IsExpression e) (hu : ∀ e ∈ update, IsExpression e)
      (h : ∀ s ∈ body.statements, IsStatement s) : IsStatement (.forLoop start test update body)
  | foreach {source key value body : Node} (hs : IsExpression source) (hk : IsTarget key.target)
      (hv : IsTarget value.target) (h : ∀ s ∈ body.statements, IsStatement s) :
      IsStatement (.foreach source key value body)

/-! ### What the conversion comes to -/

namespace Node

/-- A loop cannot bind the node and becomes a placeholder. -/
def isForeignTarget (node : Node) : Bool :=
  match node.target with
  | .absent | .text _ | .variable _ => false
  | _ => true

/-- The node is nothing or has the name that a loop binds. -/
def hasTargetName (node : Node) : Bool :=
  match node.target with
  | .absent | .text _ | .variable (.text _) => true
  | _ => false

/-- The element of an array is there. -/
def isElement : Node → Bool
  | .absent | .arrayElement .absent .absent => false
  | _ => true

end Node

mutual

/-- No node that the conversion comes to is a call of a method with a computed name, a loop that
binds a variable with a computed name, or an array with an element that is not there. -/
@[grind =]
def Node.isConvertible : Node → Bool
  | .absent | .flag _ | .text _ | .number _ | .unlisted | .inlineHtml _ | .constant _
  | .variable _ | .foreachVariable _ | .other _ | .enclosing .. | .guarded .. => true
  | .list nodes | .block nodes | .echo nodes => eachConvertible nodes
  | .returnValue value | .print value | .parameter value | .formalParameter _ value
  | .elseBranch value => value.isConvertible
  | .function _ parameters body => eachConvertible parameters && body.isConvertible
  | .assignment target value | .assignOp _ target value =>
    target.isConvertible && value.isConvertible
  | .binaryOp _ left right => left.isConvertible && right.isConvertible
  | .unaryOp _ operand | .stepBefore _ operand | .stepBehind _ operand => operand.isConvertible
  | .ternary test consequent alternate =>
    test.isConvertible && consequent.isConvertible && alternate.isConvertible
  | .functionCall name arguments => name.isConvertible && eachConvertible arguments
  | .array elements => elements.all Node.isElement && eachConvertible elements
  | .arrayElement key value => key.isConvertible && value.isConvertible
  | .arrayOffset base index => base.isConvertible && index.isConvertible
  | .objectProperty object name => object.isConvertible && name.isConvertible
  | .methodCall object (.text _) arguments => object.isConvertible && eachConvertible arguments
  | .methodCall .. => false
  | .staticMethodCall (.text _) (.text _) arguments => eachConvertible arguments
  | .staticMethodCall .. => true
  | .ifElse test body elseIfs otherwise =>
    test.isConvertible && body.isConvertible && eachConvertible elseIfs && otherwise.isConvertible
  | .elseIf test body | .whileLoop test body => test.isConvertible && body.isConvertible
  | .forLoop start test update body =>
    eachConvertible start && eachConvertible test && eachConvertible update && body.isConvertible
  | .foreach source key value body =>
    key.isForeignTarget || value.isForeignTarget ||
      source.isConvertible && (key.hasTargetName && value.hasTargetName) && body.isConvertible

/-- All of some nodes are convertible. -/
def eachConvertible : List Node → Bool
  | [] => true
  | node :: rest => node.isConvertible && eachConvertible rest

end

theorem isConvertible_statements (body : Node) :
    eachConvertible body.statements = body.isConvertible := by
  cases body <;> simp [Node.statements, eachConvertible, Node.isConvertible]

theorem isConvertible_argument (node : Node) : node.argument.isConvertible = node.isConvertible := by
  cases node <;> simp [Node.argument, Node.isConvertible]

/-! ### Names

The name of a construct is turned into small letters and becomes its kind. -/

theorem isNone_firstParts_of_mem {name : String} (h : name ∈ constructNames) :
    (Lowering.firstParts.lookup (Text.lower name)).isNone = true :=
  (by decide +kernel : ∀ name ∈ constructNames,
    (Lowering.firstParts.lookup (Text.lower name)).isNone = true) name h

/-- The kind of a target that is no variable is not that of a variable. -/
theorem lower_name_of_isTarget {node : Node} (h : IsTarget node) (hv : ∀ name, node ≠ .variable name) :
    Text.lower node.name ≠ "variable" := by
  have hconstruct : ∀ name ∈ constructNames, Text.lower name ≠ "variable" := by
    intro name hname hlower
    have hnone := isNone_firstParts_of_mem hname
    rw [hlower] at hnone
    exact absurd hnone (by decide)
  cases h with
  | list items => rw [Node.name]; decide
  | expression h =>
      cases h with
      | number value => cases value <;> (simp only [Node.name]; decide)
      | «variable» name => exact absurd rfl (hv name)
      | other hmem => exact hconstruct _ hmem
      | enclosing inner hmem => exact hconstruct _ hmem
      | guarded test inner hmem => exact hconstruct _ hmem
      | _ => simp only [Node.name]; decide

/-! ### Expressions -/

/-- The core node is a counterpart of the node: an expression that is lowerable just if the node
is convertible, and nothing only if the node is nothing. -/
structure Adapts (node : Node) (c : Core.Node) : Prop where
  sorted : Core.IsExpression c
  lowerable : c.isLowerable = node.isConvertible
  present : c.isPresent = false ↔ node = .absent

/-- The core nodes are counterparts of the nodes. -/
structure AdaptsEach (nodes : List Node) (cs : List Core.Node) : Prop where
  sorted : ∀ c ∈ cs, Core.IsExpression c
  lowerable : Core.eachLowerable cs = eachConvertible nodes

theorem AdaptsEach.nil : AdaptsEach [] [] := ⟨by simp, rfl⟩

theorem AdaptsEach.cons {node : Node} {c : Core.Node} {nodes : List Node} {cs : List Core.Node}
    (hs : Core.IsExpression c) (hl : c.isLowerable = node.isConvertible)
    (h : AdaptsEach nodes cs) : AdaptsEach (node :: nodes) (c :: cs) := by
  refine ⟨?_, ?_⟩
  · intro d hd
    rcases List.mem_cons.mp hd with rfl | hd
    · exact hs
    · exact h.sorted d hd
  · rw [Core.eachLowerable, eachConvertible, hl, h.lowerable]

theorem answers_toCoreEach {nodes : List Node}
    (h : ∀ n ∈ nodes, Answers true (Adapts n) n.toCore) :
    Answers true (AdaptsEach nodes) (toCoreEach nodes) := by
  induction nodes with
  | nil => rw [toCoreEach]; exact ⟨rfl, .nil⟩
  | cons n rest ih =>
      rw [toCoreEach_cons]
      exact (h n (by simp)).bind fun c hc => (ih fun m hm => h m (by simp [hm])).map fun cs hcs =>
        .cons hc.sorted hc.lowerable hcs

theorem answers_argumentsToCore {arguments : List Node}
    (h : ∀ a ∈ arguments, Answers true (Adapts a.argument) a.argument.toCore) :
    Answers true (AdaptsEach arguments) (argumentsToCore arguments) := by
  induction arguments with
  | nil => rw [argumentsToCore]; exact ⟨rfl, .nil⟩
  | cons a rest ih =>
      have hstep : argumentsToCore (a :: rest) = (do
          let first ← a.argument.toCore
          let rest ← argumentsToCore rest
          pure (first :: rest)) := by
        cases a <;> rw [argumentsToCore] <;> first | rfl | simp
      rw [hstep]
      refine (h a (by simp)).bind fun c hc =>
        (ih fun m hm => h m (by simp [hm])).map fun cs hcs => .cons hc.sorted ?_ hcs
      rw [hc.lowerable, isConvertible_argument]

/-- The items of a core array are counterparts of the elements of an array. -/
structure AdaptsItems (elements : List Node) (items : List Core.Node) : Prop where
  keys : ∀ key value, .entry key value ∈ items → Core.IsExpression key
  values : ∀ key value, .entry key value ∈ items → Core.IsExpression value
  plain : ∀ item ∈ items, (∀ key value, item ≠ .entry key value) → Core.IsExpression item
  present : items.all Core.Node.isPresent = elements.all Node.isElement
  lowerable : Core.eachLowerable items = eachConvertible elements

namespace AdaptsItems

variable {e : Node} {elements : List Node} {items : List Core.Node}

theorem nil : AdaptsItems [] [] := ⟨by simp, by simp, by simp, rfl, rfl⟩

theorem cons_plain {item : Core.Node} (hs : Core.IsExpression item)
    (hp : item.isPresent = e.isElement) (hl : item.isLowerable = e.isConvertible)
    (h : AdaptsItems elements items) : AdaptsItems (e :: elements) (item :: items) := by
  have hne : ∀ key value, item ≠ .entry key value := by
    intro key value heq
    subst heq
    cases hs
  refine ⟨?_, ?_, ?_, ?_, ?_⟩
  · intro key value hm
    exact h.keys key value ((List.mem_cons.mp hm).resolve_left (hne key value).symm)
  · intro key value hm
    exact h.values key value ((List.mem_cons.mp hm).resolve_left (hne key value).symm)
  · intro i hi hplain
    rcases List.mem_cons.mp hi with rfl | hi
    · exact hs
    · exact h.plain i hi hplain
  · rw [List.all_cons, List.all_cons, hp, h.present]
  · rw [Core.eachLowerable, eachConvertible, hl, h.lowerable]

theorem cons_entry {key value : Core.Node} (hk : Core.IsExpression key)
    (hv : Core.IsExpression value) (he : e.isElement = true)
    (hl : (Core.Node.entry key value).isLowerable = e.isConvertible)
    (h : AdaptsItems elements items) :
    AdaptsItems (e :: elements) (.entry key value :: items) := by
  refine ⟨?_, ?_, ?_, ?_, ?_⟩
  · intro k v hm
    rcases List.mem_cons.mp hm with heq | hm
    · cases heq; exact hk
    · exact h.keys k v hm
  · intro k v hm
    rcases List.mem_cons.mp hm with heq | hm
    · cases heq; exact hv
    · exact h.values k v hm
  · intro i hi hplain
    rcases List.mem_cons.mp hi with rfl | hi
    · exact absurd rfl (hplain key value)
    · exact h.plain i hi hplain
  · rw [List.all_cons, List.all_cons, he, h.present]
    rfl
  · rw [Core.eachLowerable, eachConvertible, hl, h.lowerable]

end AdaptsItems

theorem isElement_of_ne {node : Node} (hp : ∀ key value, node ≠ .arrayElement key value)
    (hn : node ≠ .absent) : node.isElement = true := by
  cases node <;> first | rfl | exact absurd rfl hn | exact absurd rfl (hp _ _)

theorem answers_itemsToCore {elements : List Node}
    (h : ∀ e ∈ elements, ∀ part ∈ e.elementParts, Answers true (Adapts part) part.toCore) :
    Answers true (AdaptsItems elements) (itemsToCore elements) := by
  induction elements with
  | nil => rw [itemsToCore]; exact ⟨rfl, .nil⟩
  | cons e rest ih =>
      have ih := ih fun m hm => h m (by simp [hm])
      by_cases helement : ∃ key value, e = .arrayElement key value
      · obtain ⟨key, value, rfl⟩ := helement
        have hvalue := h (.arrayElement key value) (by simp) value (by simp [Node.elementParts])
        by_cases habs : key = .absent
        · subst habs
          rw [itemsToCore]
          refine hvalue.bind fun c hc => ih.map fun cs hcs => .cons_plain hc.sorted ?_ ?_ hcs
          · by_cases hv : value = .absent
            · subst hv
              exact hc.present.mpr rfl
            · have hp : (Node.arrayElement .absent value).isElement = true := by
                cases value <;> first | rfl | exact absurd rfl hv
              rw [hp]
              exact (Bool.not_eq_false _).mp fun hfalse => hv (hc.present.mp hfalse)
          · rw [hc.lowerable, Node.isConvertible, Node.isConvertible, Bool.true_and]
        · have hkey := h (.arrayElement key value) (by simp) key (by simp [Node.elementParts])
          have hp : (Node.arrayElement key value).isElement = true := by
            cases key <;> first | rfl | exact absurd rfl habs
          rw [itemsToCore]
          · refine hvalue.bind fun v hv => hkey.bind fun k hk => ih.map fun cs hcs =>
              .cons_entry hk.sorted hv.sorted hp ?_ hcs
            rw [Core.Node.isLowerable, Node.isConvertible, hk.lowerable, hv.lowerable]
          · exact habs
      · have hplain : ∀ key value, e ≠ .arrayElement key value :=
          fun key value heq => helement ⟨key, value, heq⟩
        have hparts : e.elementParts = [e] := by
          cases e <;> first | rfl | exact absurd rfl (hplain _ _)
        have he := h e (by simp) e (by simp [hparts])
        rw [itemsToCore]
        · refine he.bind fun c hc => ih.map fun cs hcs => .cons_plain hc.sorted ?_ hc.lowerable hcs
          by_cases habs : e = .absent
          · subst habs
            exact hc.present.mpr rfl
          · rw [isElement_of_ne hplain habs]
            exact (Bool.not_eq_false _).mp fun hfalse => habs (hc.present.mp hfalse)
        · exact fun value => hplain _ value
        · exact hplain

theorem answers_stepSign {operator : String} (hne : operator ≠ "") :
    Answers true (fun _ => True) (stepSign (.text operator)) := by
  obtain ⟨c, rest, hchars⟩ := List.exists_cons_of_ne_nil
    (show operator.toList ≠ [] from fun h => hne (String.toList_injective h))
  have hsign : stepSign (.text operator) = .ok (String.singleton c) := by
    rw [stepSign, hchars]
    rfl
  rw [hsign]
  exact ⟨rfl, trivial⟩

theorem adapts_constant (name : String) :
    Adapts (.constant (.text name)) (constantToCore name) := by
  simp only [constantToCore]
  split
  · exact ⟨.boolean true, rfl, by simp [Core.Node.isPresent]⟩
  split
  · exact ⟨.boolean false, rfl, by simp [Core.Node.isPresent]⟩
  split
  · exact ⟨.null, rfl, by simp [Core.Node.isPresent]⟩
  · exact ⟨.name name, rfl, by simp [Core.Node.isPresent]⟩

/-- A name is a text or else an expression that yields one. -/
theorem text_or (name : Node) : (∃ text, name = .text text) ∨ ∀ text, name ≠ .text text := by
  by_cases h : ∃ text, name = .text text
  · exact .inl h
  · exact .inr fun text heq => h ⟨text, heq⟩

theorem adapts_methodCall (name : Node) {object : Node} {arguments : List Node}
    (ho : Answers true (Adapts object) object.toCore)
    (ha : Answers true (AdaptsEach arguments) (argumentsToCore arguments)) :
    Answers true (Adapts (.methodCall object name arguments))
      (Node.methodCall object name arguments).toCore := by
  rcases text_or name with ⟨text, rfl⟩ | hname
  · rw [Node.toCore]
    refine ho.bind fun o ho => ha.map fun cs hcs =>
      ⟨.call (.propertyLookup text ho.sorted) hcs.sorted, ?_, by simp [Core.Node.isPresent]⟩
    rw [Core.Node.isLowerable, Core.Node.isLowerable, Node.isConvertible, ho.lowerable,
      hcs.lowerable]
  · -- the unsupported construct has the kind of a supported one
    have hno : (Node.methodCall object name arguments).isConvertible = false := by
      cases name <;> first | rfl | exact absurd rfl (hname _)
    rw [Node.toCore]
    · refine ⟨rfl, .unsupported _ _, ?_, by simp [Core.Node.isPresent]⟩
      rw [hno]
      rfl
    · exact hname

theorem adapts_staticMethodCall (className name : Node) {arguments : List Node}
    (ha : Answers true (AdaptsEach arguments) (argumentsToCore arguments)) :
    Answers true (Adapts (.staticMethodCall className name arguments))
      (Node.staticMethodCall className name arguments).toCore := by
  by_cases htexts : ∃ c n, className = .text c ∧ name = .text n
  · obtain ⟨c, n, rfl, rfl⟩ := htexts
    rw [Node.toCore]
    refine ha.map fun cs hcs =>
      ⟨.call (.propertyLookup n (.name c)) hcs.sorted, ?_, by simp [Core.Node.isPresent]⟩
    rw [Core.Node.isLowerable, Core.Node.isLowerable, Core.Node.isLowerable, Node.isConvertible,
      hcs.lowerable, Bool.true_and]
  · have hno : ∀ c n, className = .text c → name = .text n → False :=
      fun c n hc hn => htexts ⟨c, n, hc, hn⟩
    have hyes : (Node.staticMethodCall className name arguments).isConvertible = true := by
      rw [Node.isConvertible]
      exact hno
    rw [Node.toCore]
    · refine ⟨rfl, .unsupported _ _, ?_, by simp [Core.Node.isPresent]⟩
      rw [hyes]
      rfl
    · exact hno

theorem adapts_functionCall {name : Node} {arguments : List Node}
    (hn : Answers true (Adapts name) name.toCore)
    (ha : Answers true (AdaptsEach arguments) (argumentsToCore arguments)) :
    Answers true (Adapts (.functionCall name arguments))
      (Node.functionCall name arguments).toCore := by
  rcases text_or name with ⟨text, rfl⟩ | hname
  · rw [Node.toCore]
    refine ha.map fun cs hcs =>
      ⟨.call (.name text) hcs.sorted, ?_, by simp [Core.Node.isPresent]⟩
    rw [Core.Node.isLowerable, Core.Node.isLowerable, Node.isConvertible, Node.isConvertible,
      hcs.lowerable]
  · rw [Node.toCore]
    · refine hn.bind fun c hc => ha.map fun cs hcs =>
        ⟨.call hc.sorted hcs.sorted, ?_, by simp [Core.Node.isPresent]⟩
      rw [Core.Node.isLowerable, Node.isConvertible, hc.lowerable, hcs.lowerable]
    · exact hname

theorem adapts_objectProperty {object name : Node} (ho : Answers true (Adapts object) object.toCore)
    (hn : Answers true (Adapts name) name.toCore) :
    Answers true (Adapts (.objectProperty object name)) (Node.objectProperty object name).toCore := by
  rcases text_or name with ⟨text, rfl⟩ | hname
  · rw [Node.toCore]
    refine ho.map fun o ho => ⟨.propertyLookup text ho.sorted, ?_, by simp [Core.Node.isPresent]⟩
    rw [Core.Node.isLowerable, Node.isConvertible, Node.isConvertible, ho.lowerable, Bool.and_true]
  · rw [Node.toCore]
    · refine ho.bind fun o ho => hn.map fun n hn =>
        ⟨.offsetLookup ho.sorted hn.sorted, ?_, by simp [Core.Node.isPresent]⟩
      rw [Core.Node.isLowerable, Node.isConvertible, ho.lowerable, hn.lowerable]
    · exact hname

theorem adapts_variable (name : Node) :
    Answers true (Adapts (.variable name)) (Node.variable name).toCore := by
  rcases text_or name with ⟨text, rfl⟩ | hname
  · rw [Node.toCore]
    exact ⟨rfl, .variable text, rfl, by simp [Core.Node.isPresent]⟩
  · rw [Node.toCore]
    · exact ⟨rfl, .unsupported _ _, rfl, by simp [Core.Node.isPresent]⟩
    · exact hname

theorem adapts_construct {node : Node} {name : String} (h : name ∈ constructNames)
    (hn : node ≠ .absent) (hc : node.isConvertible = true) : Adapts node (unsupported name) := by
  refine ⟨.unsupported _ _, ?_, ?_⟩
  · rw [unsupported, Core.Node.isLowerable, isNone_firstParts_of_mem h, hc]
  · simp [unsupported, Core.Node.isPresent, hn]

/-- **The step to the core succeeds on every expression**, and its counterpart is lowerable just
if the expression is convertible. -/
theorem answers_toCore_expression {e : Node} (h : IsExpression e) :
    Answers true (Adapts e) e.toCore := by
  induction h with
  | absent => rw [Node.toCore]; exact ⟨rfl, .absent, rfl, by simp [Core.Node.isPresent]⟩
  | flag value => rw [Node.toCore]; exact ⟨rfl, .boolean value, rfl, by simp [Core.Node.isPresent]⟩
  | text value => rw [Node.toCore]; exact ⟨rfl, .string value, rfl, by simp [Core.Node.isPresent]⟩
  | number value => rw [Node.toCore]; exact ⟨rfl, .number value, rfl, by simp [Core.Node.isPresent]⟩
  | print h ih =>
      rw [Node.toCore]
      exact ih.map fun c hc => ⟨.print hc.sorted, hc.lowerable, by simp [Core.Node.isPresent]⟩
  | assignment ht hv iht ihv =>
      rw [Node.toCore]
      refine iht.bind fun t ht => ihv.map fun v hv => ⟨.assign "=" ht.sorted hv.sorted, ?_, ?_⟩
      · rw [Core.Node.isLowerable, Node.isConvertible, ht.lowerable, hv.lowerable]
      · simp [Core.Node.isPresent]
  | assignOp operator ht hv iht ihv =>
      rw [Node.toCore]
      refine iht.bind fun t ht => ihv.map fun v hv => ⟨.assign operator ht.sorted hv.sorted, ?_, ?_⟩
      · rw [Core.Node.isLowerable, Node.isConvertible, ht.lowerable, hv.lowerable]
      · simp [Core.Node.isPresent]
  | binaryOp operator hl hr ihl ihr =>
      rw [Node.toCore]
      refine ihl.bind fun l hl => ihr.map fun r hr => ⟨.binary _ hl.sorted hr.sorted, ?_, ?_⟩
      · rw [Core.Node.isLowerable, Node.isConvertible, hl.lowerable, hr.lowerable]
      · simp [Core.Node.isPresent]
  | unaryOp operator h ih =>
      rw [Node.toCore]
      exact ih.map fun c hc =>
        ⟨.unary operator hc.sorted, hc.lowerable, by simp [Core.Node.isPresent]⟩
  | ternary ht hc ha iht ihc iha =>
      rw [Node.toCore]
      refine iht.bind fun t ht => ihc.bind fun c hc => iha.map fun a ha =>
        ⟨.ternary ht.sorted hc.sorted ha.sorted, ?_, ?_⟩
      · rw [Core.Node.isLowerable, Node.isConvertible, ht.lowerable, hc.lowerable, ha.lowerable]
      · simp [Core.Node.isPresent]
  | stepBefore hne h ih =>
      rw [Node.toCore]
      exact (answers_stepSign hne).bind fun sign _ => ih.map fun c hc =>
        ⟨.stepBefore sign hc.sorted, hc.lowerable, by simp [Core.Node.isPresent]⟩
  | stepBehind hne h ih =>
      rw [Node.toCore]
      exact (answers_stepSign hne).bind fun sign _ => ih.map fun c hc =>
        ⟨.stepBehind sign hc.sorted, hc.lowerable, by simp [Core.Node.isPresent]⟩
  | constant name => rw [Node.toCore]; exact ⟨rfl, adapts_constant name⟩
  | «variable» name => exact adapts_variable name
  | functionCall hn h ihn ih => exact adapts_functionCall ihn (answers_argumentsToCore ih)
  | methodCall name ho h iho ih => exact adapts_methodCall name iho (answers_argumentsToCore ih)
  | staticMethodCall className name h ih =>
      exact adapts_staticMethodCall className name (answers_argumentsToCore ih)
  | objectProperty ho hn iho ihn => exact adapts_objectProperty iho ihn
  | arrayOffset hb hi ihb ihi =>
      rw [Node.toCore]
      refine ihb.bind fun b hb => ihi.map fun i hi => ⟨.offsetLookup hb.sorted hi.sorted, ?_, ?_⟩
      · rw [Core.Node.isLowerable, Node.isConvertible, hb.lowerable, hi.lowerable]
      · simp [Core.Node.isPresent]
  | array h ih =>
      rw [Node.toCore]
      refine (answers_itemsToCore ih).map fun items hi =>
        ⟨.array hi.keys hi.values hi.plain, ?_, ?_⟩
      · rw [Core.Node.isLowerable, Node.isConvertible, hi.present, hi.lowerable]
      · simp [Core.Node.isPresent]
  | other h => rw [Node.toCore]; exact ⟨rfl, adapts_construct h (by simp) rfl⟩
  | enclosing inner h => rw [Node.toCore]; exact ⟨rfl, adapts_construct h (by simp) rfl⟩
  | guarded test inner h => rw [Node.toCore]; exact ⟨rfl, adapts_construct h (by simp) rfl⟩

/-! ### Statements

A body is a list of statements in one of four guises, and a list of statements is converted one by
one; only the grouping in blocks is lost. -/

/-- The core statements are counterparts of the statements. -/
structure AdaptsBody (nodes : List Node) (cs : List Core.Node) : Prop where
  sorted : ∀ c ∈ cs, Core.IsStatement c
  lowerable : Core.eachLowerable cs = eachConvertible nodes

theorem bodyToCore_eq (body : Node) : body.bodyToCore = statementsToCore body.statements := by
  have hsingle : ∀ data, statementsToCore [.inlineHtml (.text data)] =
      .ok (if Text.isBlankText data then [] else [.unsupported "inline" (htmlDetail data)]) := by
    intro data
    rw [statementsToCore, statementsToCore]
    rfl
  cases body with
  | absent => rw [Node.bodyToCore, Node.statements, statementsToCore]
  | block nodes => rw [Node.bodyToCore, Node.statements]
  | list nodes => rw [Node.bodyToCore, Node.statements]
  | inlineHtml data =>
      cases data with
      | text data => rw [Node.bodyToCore, Node.statements, hsingle] <;> first | rfl | simp
      | _ => rw [Node.bodyToCore, Node.statements, statementsToCore] <;> simp
  | _ =>
      rw [Node.bodyToCore, Node.statements, statementsToCore, statementsToCore] <;>
        first | rfl | simp

theorem eachLowerable_append (as bs : List Core.Node) :
    Core.eachLowerable (as ++ bs) = (Core.eachLowerable as && Core.eachLowerable bs) := by
  induction as with
  | nil => rfl
  | cons a rest ih => rw [List.cons_append, Core.eachLowerable, Core.eachLowerable, ih, Bool.and_assoc]

theorem statementsToCore_nil : statementsToCore [] = pure [] := by rw [statementsToCore]

/-- A statement and the rest of the statements. -/
theorem statementsToCore_cons (s : Node) (rest : List Node) :
    statementsToCore (s :: rest) = (do
      let first ← statementsToCore [s]
      let rest ← statementsToCore rest
      pure (first ++ rest)) := by
  by_cases hblock : ∃ nodes, s = .block nodes
  · obtain ⟨nodes, rfl⟩ := hblock
    simp [statementsToCore]
  by_cases hhtml : ∃ data, s = .inlineHtml data
  · obtain ⟨data, rfl⟩ := hhtml
    by_cases htext : ∃ text, data = .text text
    · obtain ⟨text, rfl⟩ := htext
      rw [statementsToCore, statementsToCore, statementsToCore_nil]
      by_cases hblank : Text.isBlankText text = true <;> simp [hblank]
    · have hthrow : ∀ rest, statementsToCore (.inlineHtml data :: rest) = throw .missingPart := by
        intro rest
        rw [statementsToCore]
        exact fun text heq => htext ⟨text, heq⟩
      rw [hthrow, hthrow]
      rfl
  have hplain := fun rest => statementsToCore_plain rest (fun nodes heq => hblock ⟨nodes, heq⟩)
    (fun data heq => hhtml ⟨data, heq⟩)
  rw [hplain, hplain, statementsToCore_nil]
  simp only [pure_bind, bind_assoc]
  refine bind_congr fun c => bind_congr fun cs => ?_
  by_cases hp : c.isPresent = true <;> simp [hp]

theorem answers_statementsToCore {nodes : List Node}
    (h : ∀ s ∈ nodes, Answers true (AdaptsBody [s]) (statementsToCore [s])) :
    Answers true (AdaptsBody nodes) (statementsToCore nodes) := by
  induction nodes with
  | nil => rw [statementsToCore]; exact ⟨rfl, by simp, rfl⟩
  | cons s rest ih =>
      obtain ⟨as, hs, ha⟩ := (h s (by simp)).exists_good
      obtain ⟨bs, hr, hb⟩ := (ih fun t ht => h t (by simp [ht])).exists_good
      rw [statementsToCore_cons, hs, hr]
      refine ⟨rfl, ?_, ?_⟩
      · intro c hc
        rcases List.mem_append.mp hc with hc | hc
        · exact ha.sorted c hc
        · exact hb.sorted c hc
      · rw [eachLowerable_append, ha.lowerable, hb.lowerable, eachConvertible, eachConvertible,
          eachConvertible, Bool.and_true]

theorem answers_bodyToCore {body : Node}
    (h : ∀ s ∈ body.statements, Answers true (AdaptsBody [s]) (statementsToCore [s])) :
    Answers true (fun cs => (∀ c ∈ cs, Core.IsStatement c) ∧
      Core.eachLowerable cs = body.isConvertible) body.bodyToCore := by
  rw [bodyToCore_eq, ← isConvertible_statements]
  exact (answers_statementsToCore h).mono fun cs hcs => ⟨hcs.sorted, hcs.lowerable⟩

/-- A statement that is neither a block nor text outside the tags stands for its counterpart. -/
theorem answers_single {s : Node} (hblock : ∀ nodes, s ≠ .block nodes)
    (hhtml : ∀ data, s ≠ .inlineHtml data)
    (h : Answers true (fun c => Core.IsStatement c ∧ c.isLowerable = s.isConvertible) s.toCore) :
    Answers true (AdaptsBody [s]) (statementsToCore [s]) := by
  rw [statementsToCore_plain [] hblock hhtml]
  refine h.bind fun c hc => ?_
  obtain ⟨hsorted, hl⟩ := hc
  rw [statementsToCore]
  by_cases hp : c.isPresent = true
  · refine ⟨rfl, ?_, ?_⟩
    · simpa [hp] using hsorted
    · simp [hp, Core.eachLowerable, eachConvertible, hl]
  · obtain rfl := Core.Node.eq_absent_of_not_isPresent hp
    refine ⟨rfl, by simp [Core.Node.isPresent], ?_⟩
    simp only [Core.Node.isPresent, eachConvertible, ← hl]
    rfl

theorem answers_parametersToCore {parameters : List Node} (h : ∀ p ∈ parameters, IsParameter p) :
    Answers true (fun cs => (∀ c ∈ cs, Core.IsParameter c) ∧
      Core.eachLowerable cs = eachConvertible parameters) (parametersToCore parameters) := by
  induction parameters with
  | nil => rw [parametersToCore]; exact ⟨rfl, by simp, rfl⟩
  | cons p rest ih =>
      cases h p (by simp) with
      | intro name hdefault =>
          rw [parametersToCore]
          refine (answers_toCore_expression hdefault).bind fun d hd =>
            (ih fun q hq => h q (by simp [hq])).map fun cs hcs => ⟨?_, ?_⟩
          · intro c hc
            rcases List.mem_cons.mp hc with rfl | hc
            · exact .intro name hd.sorted
            · exact hcs.1 c hc
          · rw [Core.eachLowerable, eachConvertible, Core.Node.isLowerable, Node.isConvertible,
              hd.lowerable, hcs.2]

/-! ### Choices

The branches with a condition of their own are folded into the last branch from the back, so the
invariant is about an alternate that may already hold some of them. -/

/-- The core statements may be the last branch of a choice, and are lowerable just if the test
holds. -/
structure AdaptsElse (test : Bool) (alternate : Option (List Core.Node)) : Prop where
  sorted : ∀ cs, alternate = some cs → ∀ c ∈ cs, Core.IsStatement c
  lowerable : alternate.elim true Core.eachLowerable = test

theorem isStatement_choice {test : Core.Node} {body : List Core.Node}
    {alternate : Option (List Core.Node)} {b : Bool} (ht : Core.IsExpression test)
    (hb : ∀ c ∈ body, Core.IsStatement c) (ha : AdaptsElse b alternate) :
    Core.IsStatement (.ifElse test body alternate) := by
  cases alternate with
  | none => exact .ifThen ht hb
  | some cs => exact .ifElse ht hb (ha.sorted cs rfl)

theorem isLowerable_choice (test : Core.Node) (body : List Core.Node) {b : Bool}
    {alternate : Option (List Core.Node)} (ha : AdaptsElse b alternate) :
    (Core.Node.ifElse test body alternate).isLowerable =
      (b && test.isLowerable && Core.eachLowerable body) := by
  rw [← ha.lowerable]
  cases alternate with
  | none => rw [Core.Node.isLowerable, Option.elim_none, Bool.true_and]
  | some cs => rw [Core.Node.isLowerable, Option.elim_some]

theorem chainToCore_of_branch? {node test body : Node} (h : node.branch? = some (test, body))
    (alternate : Option (List Core.Node)) (rest : List Node) :
    chainToCore alternate (node :: rest) = (do
      let alternate ← chainToCore alternate rest
      let test ← test.toCore
      let body ← body.bodyToCore
      pure (some [.ifElse test body alternate])) := by
  rw [chainToCore]
  · refine bind_congr fun alternate => ?_
    split
    · rename_i hnone
      cases h.symm.trans hnone
    · rename_i hsome
      cases h.symm.trans hsome
      rfl
  · rintro rfl
    cases h

theorem alternateToCore_of_inner? {node body : Node} (h : node.inner? = some body) :
    node.alternateToCore = (do pure (some (← body.bodyToCore))) := by
  rw [Node.alternateToCore]
  · split
    · rename_i hnone
      cases h.symm.trans hnone
    · rename_i hsome
      cases h.symm.trans hsome
      rfl
  · rintro rfl
    cases h

theorem answers_chainToCore {branches : List (Node × Node)} {b : Bool}
    {alternate : Option (List Core.Node)} (ha : AdaptsElse b alternate)
    (hts : ∀ b ∈ branches, IsExpression b.1)
    (hs : ∀ b ∈ branches, ∀ s ∈ b.2.statements,
      Answers true (AdaptsBody [s]) (statementsToCore [s])) :
    Answers true (AdaptsElse (eachConvertible (branches.map fun b => .elseIf b.1 b.2) && b))
      (chainToCore alternate (branches.map fun b => .elseIf b.1 b.2)) := by
  induction branches with
  | nil => rw [List.map_nil, chainToCore]; exact ⟨rfl, ha⟩
  | cons branch rest ih =>
      have ih := ih (fun c hc => hts c (by simp [hc])) (fun c hc => hs c (by simp [hc]))
      rw [List.map_cons, chainToCore_of_branch? rfl]
      refine ih.bind fun a ha => (answers_toCore_expression (hts branch (by simp))).bind fun t ht =>
        (answers_bodyToCore (hs branch (by simp))).map fun cs hcs => ⟨?_, ?_⟩
      · intro ds hds d hd
        cases hds
        rw [List.mem_singleton.mp hd]
        exact isStatement_choice ht.sorted hcs.1 ha
      · rw [Option.elim_some, Core.eachLowerable, Core.eachLowerable, Bool.and_true,
          isLowerable_choice _ _ ha, ht.lowerable, hcs.2, eachConvertible, Node.isConvertible]
        ac_rfl

theorem answers_choice {test body otherwise : Node} {branches : List (Node × Node)}
    (ht : IsExpression test)
    (hb : ∀ s ∈ body.statements, Answers true (AdaptsBody [s]) (statementsToCore [s]))
    (hts : ∀ b ∈ branches, IsExpression b.1)
    (hs : ∀ b ∈ branches, ∀ s ∈ b.2.statements,
      Answers true (AdaptsBody [s]) (statementsToCore [s]))
    (ho : Answers true (AdaptsElse otherwise.isConvertible) otherwise.alternateToCore) :
    Answers true (AdaptsBody [.ifElse test body (branches.map fun b => .elseIf b.1 b.2) otherwise])
      (statementsToCore [.ifElse test body (branches.map fun b => .elseIf b.1 b.2) otherwise]) := by
  refine answers_single (by simp) (by simp) ?_
  rw [Node.toCore]
  refine ho.bind fun o ho => (answers_chainToCore ho hts hs).bind fun a ha =>
    (answers_toCore_expression ht).bind fun t ht => (answers_bodyToCore hb).map fun cs hcs => ⟨?_, ?_⟩
  · exact isStatement_choice ht.sorted hcs.1 ha
  · rw [isLowerable_choice _ _ ha, ht.lowerable, hcs.2, Node.isConvertible]
    ac_rfl

/-! ### Loops over collections -/

theorem isBinding_bindingToCore {node : Node} (h : IsTarget node.target) :
    Core.IsBinding (bindingToCore node) ∧
      (bindingToCore node).isForeignBinding = node.isForeignTarget ∧
      (bindingToCore node).hasBoundName = node.hasTargetName := by
  have hcore : bindingToCore node = targetToCore node.target := by
    cases node <;> rfl
  rw [hcore, Node.isForeignTarget, Node.hasTargetName]
  generalize node.target = t at h
  by_cases hvar : ∃ name, t = .variable name
  · obtain ⟨name, rfl⟩ := hvar
    rcases text_or name with ⟨text, rfl⟩ | hname
    · exact ⟨.variable text, rfl, rfl⟩
    · have hdynamic : targetToCore (.variable name) = .unsupported "variable" "" := by
        rw [targetToCore, Node.name]
        · rfl
        · simp
        · exact fun text => by simp
        · exact fun text heq => by simp at heq; exact hname text heq
      rw [hdynamic]
      refine ⟨.unsupported _ _, rfl, ?_⟩
      cases name <;> first | rfl | exact absurd rfl (hname _)
  · have hkind := lower_name_of_isTarget h fun name heq => hvar ⟨name, heq⟩
    have hforeign : ∀ name, name ≠ "variable" →
        (Core.Node.unsupported name "").isForeignBinding = true := by
      intro name hne
      simp [Core.Node.isForeignBinding, Core.Node.isPresent, Core.Node.kind, hne]
    cases t with
    | absent => exact ⟨.absent, rfl, rfl⟩
    | text name => exact ⟨.variable name, rfl, rfl⟩
    | «variable» name => exact absurd ⟨name, rfl⟩ hvar
    | _ => exact ⟨.unsupported _ _, hforeign _ hkind, rfl⟩

theorem answers_foreach {source key value body : Node} (hs : IsExpression source)
    (hk : IsTarget key.target) (hv : IsTarget value.target)
    (hb : ∀ s ∈ body.statements, Answers true (AdaptsBody [s]) (statementsToCore [s])) :
    Answers true (AdaptsBody [.foreach source key value body])
      (statementsToCore [.foreach source key value body]) := by
  obtain ⟨hkey, hkf, hkn⟩ := isBinding_bindingToCore hk
  obtain ⟨hvalue, hvf, hvn⟩ := isBinding_bindingToCore hv
  refine answers_single (by simp) (by simp) ?_
  rw [Node.toCore]
  refine (answers_toCore_expression hs).bind fun c hc => (answers_bodyToCore hb).map fun cs hcs =>
    ⟨.foreach hc.sorted hkey hvalue hcs.1, ?_⟩
  rw [Core.Node.isLowerable, Node.isConvertible, hkf, hvf, hkn, hvn, hc.lowerable, hcs.2]

/-! ### Whole programs -/

/-- **The step to the core succeeds on every statement**, and its counterparts are lowerable just
if the statement is convertible. -/
theorem answers_toCore_statement {s : Node} (h : IsStatement s) :
    Answers true (AdaptsBody [s]) (statementsToCore [s]) := by
  induction h with
  | expression h =>
      refine answers_single ?_ ?_ ((answers_toCore_expression h).mono fun c hc =>
        ⟨.expression hc.sorted, hc.lowerable⟩)
      · rintro nodes rfl; cases h
      · rintro data rfl; cases h
  | inlineHtml data =>
      rw [statementsToCore, statementsToCore]
      by_cases hblank : Text.isBlankText data = true
      · simp only [hblank, if_true]
        exact ⟨rfl, by simp, rfl⟩
      · simp only [hblank]
        refine ⟨rfl, ?_, rfl⟩
        intro c hc
        rw [List.mem_singleton.mp hc]
        exact .expression (.unsupported _ _)
  | @block nodes h ih =>
      rw [statementsToCore, statementsToCore]
      refine (answers_statementsToCore ih).map fun cs hcs => ⟨by simpa using hcs.sorted, ?_⟩
      simp [hcs.lowerable, eachConvertible, Node.isConvertible]
  | echo h =>
      refine answers_single (by simp) (by simp) ?_
      rw [Node.toCore]
      exact (answers_toCoreEach fun e he => answers_toCore_expression (h e he)).map fun cs hcs =>
        ⟨.expression (.echo hcs.sorted), hcs.lowerable⟩
  | returnValue h =>
      refine answers_single (by simp) (by simp) ?_
      rw [Node.toCore_returnValue]
      exact (answers_toCore_expression h).map fun c hc => ⟨.returnValue hc.sorted, hc.lowerable⟩
  | function name hp h ih =>
      refine answers_single (by simp) (by simp) ?_
      rw [Node.toCore]
      refine (answers_parametersToCore hp).bind fun ps hps => (answers_bodyToCore ih).map
        fun cs hcs => ⟨.function name hps.1 hcs.1, ?_⟩
      rw [Core.Node.isLowerable, Node.isConvertible, hps.2, hcs.2]
  | ifThen ht h hts hs ih ihs =>
      refine answers_choice ht ih hts ihs ?_
      rw [Node.alternateToCore]
      exact ⟨rfl, by simp, rfl⟩
  | @ifElse test body last branches ht h hts hs hl ih ihs ihl =>
      refine answers_choice ht ih hts ihs ?_
      rw [alternateToCore_of_inner? rfl]
      refine (answers_bodyToCore ihl).map fun cs hcs => ⟨?_, hcs.2⟩
      intro ds hds
      cases hds
      exact hcs.1
  | whileLoop ht h ih =>
      refine answers_single (by simp) (by simp) ?_
      rw [Node.toCore]
      refine (answers_toCore_expression ht).bind fun t ht => (answers_bodyToCore ih).map
        fun cs hcs => ⟨.whileLoop ht.sorted hcs.1, ?_⟩
      rw [Core.Node.isLowerable, Node.isConvertible, ht.lowerable, hcs.2]
  | forLoop hs ht hu h ih =>
      refine answers_single (by simp) (by simp) ?_
      rw [Node.toCore]
      refine (answers_toCoreEach fun e he => answers_toCore_expression (hs e he)).bind fun ss hss =>
        (answers_toCoreEach fun e he => answers_toCore_expression (ht e he)).bind fun ts hts =>
          (answers_toCoreEach fun e he => answers_toCore_expression (hu e he)).bind fun us hus =>
            (answers_bodyToCore ih).map fun cs hcs =>
              ⟨.forLoop hss.sorted hts.sorted hus.sorted hcs.1, ?_⟩
      rw [Core.Node.isLowerable, Node.isConvertible, hss.lowerable, hts.lowerable, hus.lowerable,
        hcs.2]
  | foreach hs hk hv h ih => exact answers_foreach hs hk hv ih

end PhpMigration.Php
