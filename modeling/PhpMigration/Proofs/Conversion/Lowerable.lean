/-
Which core programs can be lowered.

A program is well-sorted if expressions, statements, parameters and array items stand where each
of them belongs and names are texts.  That says nothing about unsupported constructs, which may
stand anywhere and may claim any kind, and an item of an array may be absent.  Both are what
lowering fails on: a construct whose kind is that of a supported one is handed to the code for
that kind and found to lack its parts.

So there is a second property, which is decided on the tree: no node that lowering comes to is one
of these.  It matters what lowering comes to.  The arguments of a member are dropped with the
call, and a loop over a collection that binds anything unsupported becomes a placeholder before
its parts are looked at, so nothing in there can fail.

The main result is that on well-sorted trees the second property is exactly the condition for
lowering, and that whatever is lowered can be printed.
-/
import PhpMigration.Lowering.Basic
import PhpMigration.Proofs.Attempt
import PhpMigration.Proofs.JavaScript.Printable

namespace PhpMigration

/-- A computation that may fail yields a good value if the test holds, and fails otherwise. -/
abbrev Answers {ε α : Type} (test : Bool) (good : α → Prop) (r : Except ε α) : Prop :=
  Settles test good (fun _ => True) r

namespace Core

/-! ### Well-sorted trees -/

/-- A node that may stand where an expression is needed. -/
inductive IsExpression : Node → Prop
  | absent : IsExpression .absent
  | null : IsExpression .null
  | variable (name : String) : IsExpression (.variable (.text name))
  | string (value : String) : IsExpression (.string (.text value))
  | number (value : Numeral) : IsExpression (.number (.number value))
  | boolean (value : Bool) : IsExpression (.boolean (.flag value))
  | name (text : String) : IsExpression (.name (.text text))
  | echo {expressions : List Node} (h : ∀ e ∈ expressions, IsExpression e) :
      IsExpression (.echo expressions)
  | print {e : Node} (h : IsExpression e) : IsExpression (.print e)
  | expressionStatement {e : Node} (h : IsExpression e) : IsExpression (.expressionStatement e)
  | parameter (name : String) {default : Node} (h : IsExpression default) :
      IsExpression (.parameter (.text name) default)
  | assign (operator : String) {left right : Node} (hl : IsExpression left)
      (hr : IsExpression right) : IsExpression (.assign left right (.text operator))
  | array {items : List Node}
      (keys : ∀ key value, .entry key value ∈ items → IsExpression key)
      (values : ∀ key value, .entry key value ∈ items → IsExpression value)
      (plain : ∀ item ∈ items, (∀ key value, item ≠ .entry key value) → IsExpression item) :
      IsExpression (.array items)
  | call {callee : Node} {arguments : List Node} (hc : IsExpression callee)
      (h : ∀ e ∈ arguments, IsExpression e) : IsExpression (.call callee arguments)
  | methodCall (name : String) {object : Node} (arguments : List Node) (ho : IsExpression object) :
      IsExpression (.methodCall object (.text name) arguments)
  | propertyLookup (name : String) {object : Node} (ho : IsExpression object) :
      IsExpression (.propertyLookup object (.text name))
  | offsetLookup {object offset : Node} (ho : IsExpression object) (hf : IsExpression offset) :
      IsExpression (.offsetLookup object offset)
  | binary (operator : String) {left right : Node} (hl : IsExpression left)
      (hr : IsExpression right) : IsExpression (.binary (.text operator) left right)
  | unary (operator : String) {operand : Node} (h : IsExpression operand) :
      IsExpression (.unary (.text operator) operand)
  | stepBefore (operator : String) {operand : Node} (h : IsExpression operand) :
      IsExpression (.stepBefore (.text operator) operand)
  | stepBehind (operator : String) {operand : Node} (h : IsExpression operand) :
      IsExpression (.stepBehind (.text operator) operand)
  | ternary {test consequent alternate : Node} (ht : IsExpression test)
      (hc : IsExpression consequent) (ha : IsExpression alternate) :
      IsExpression (.ternary test consequent alternate)
  | unsupported (kind detail : String) : IsExpression (.unsupported kind detail)

/-- A node that may stand among the parameters of a function. -/
inductive IsParameter : Node → Prop
  | intro (name : String) {default : Node} (h : IsExpression default) :
      IsParameter (.parameter (.text name) default)

/-- A node that a loop over a collection may bind. -/
inductive IsBinding : Node → Prop
  | absent : IsBinding .absent
  | variable (name : String) : IsBinding (.variable (.text name))
  | unsupported (kind detail : String) : IsBinding (.unsupported kind detail)

/-- A node that may stand among statements. -/
inductive IsStatement : Node → Prop
  | expression {e : Node} (h : IsExpression e) : IsStatement e
  | expressionStatement {s : Node} (h : IsStatement s) : IsStatement (.expressionStatement s)
  | returnValue {e : Node} (h : IsExpression e) : IsStatement (.returnValue e)
  | function (name : String) {parameters body : List Node}
      (hp : ∀ p ∈ parameters, IsParameter p) (h : ∀ s ∈ body, IsStatement s) :
      IsStatement (.function (.text name) parameters body)
  | ifThen {test : Node} {body : List Node} (ht : IsExpression test)
      (h : ∀ s ∈ body, IsStatement s) : IsStatement (.ifElse test body none)
  | ifElse {test : Node} {body alternate : List Node} (ht : IsExpression test)
      (h : ∀ s ∈ body, IsStatement s) (ha : ∀ s ∈ alternate, IsStatement s) :
      IsStatement (.ifElse test body (some alternate))
  | whileLoop {test : Node} {body : List Node} (ht : IsExpression test)
      (h : ∀ s ∈ body, IsStatement s) : IsStatement (.whileLoop test body)
  | forLoop {start test update body : List Node} (hs : ∀ e ∈ start, IsExpression e)
      (ht : ∀ e ∈ test, IsExpression e) (hu : ∀ e ∈ update, IsExpression e)
      (h : ∀ s ∈ body, IsStatement s) : IsStatement (.forLoop start test update body)
  | foreach {source key value : Node} {body : List Node} (hs : IsExpression source)
      (hk : IsBinding key) (hv : IsBinding value) (h : ∀ s ∈ body, IsStatement s) :
      IsStatement (.foreach source key value body)

/-! ### What lowering comes to -/

/-- A loop cannot bind the node, and says so. -/
def Node.isForeignBinding (node : Node) : Bool := node.isPresent && node.kind != "variable"

/-- The node is nothing or has the name that it binds. -/
def Node.hasBoundName : Node → Bool
  | .unsupported .. => false
  | _ => true

mutual

/-- No node that lowering comes to is an absent item of an array or an unsupported construct with
the kind of a supported one. -/
@[grind =]
def Node.isLowerable : Node → Bool
  | .absent | .stray _ | .unlisted | .variable _ | .string _ | .number _ | .boolean _ | .null
  | .name _ => true
  | .program body => eachLowerable body
  | .echo expressions => eachLowerable expressions
  | .print e | .expressionStatement e | .returnValue e | .parameter _ e => e.isLowerable
  | .function _ parameters body => eachLowerable parameters && eachLowerable body
  | .ifElse test body none => test.isLowerable && eachLowerable body
  | .ifElse test body (some alternate) =>
    eachLowerable alternate && test.isLowerable && eachLowerable body
  | .whileLoop test body => test.isLowerable && eachLowerable body
  | .forLoop start test update body =>
    eachLowerable start && eachLowerable test && eachLowerable update && eachLowerable body
  | .foreach source key value body =>
    key.isForeignBinding || value.isForeignBinding ||
      source.isLowerable && (key.hasBoundName && value.hasBoundName) && eachLowerable body
  | .assign left right _ => left.isLowerable && right.isLowerable
  | .entry key value => key.isLowerable && value.isLowerable
  | .array items => items.all Node.isPresent && eachLowerable items
  | .call callee arguments => callee.isLowerable && eachLowerable arguments
  | .methodCall object _ _ | .propertyLookup object _ => object.isLowerable
  | .offsetLookup object offset => object.isLowerable && offset.isLowerable
  | .binary _ left right => left.isLowerable && right.isLowerable
  | .unary _ operand | .stepBefore _ operand | .stepBehind _ operand => operand.isLowerable
  | .ternary test consequent alternate =>
    test.isLowerable && consequent.isLowerable && alternate.isLowerable
  | .unsupported kind _ => (Lowering.firstParts.lookup kind).isNone

/-- All of some nodes are lowerable. -/
def eachLowerable : List Node → Bool
  | [] => true
  | node :: rest => node.isLowerable && eachLowerable rest

end

end Core

namespace Lowering

open PhpMigration.Core

open JavaScript.Node (IsPrintable Flows IsPrintableProperty)

/-! ### Statements of a body -/

theorem asStatement_asStatement (j : JavaScript.Node) :
    asStatement (asStatement j) = asStatement j := by
  unfold asStatement
  by_cases h : (!j.isPresent || j.isStatement) = true
  · rw [if_pos h, if_pos h]
  · rw [if_neg h]
    rfl

theorem flows_asStatement_of_isPrintable {j : JavaScript.Node} (h : j.IsPrintable) :
    (asStatement j).Flows := by
  cases j with
  | absent => exact JavaScript.Node.flows_absent
  | expressionStatement e =>
      exact (JavaScript.Node.isPrintable_expressionStatement.mp h).flows_expressionStatement
  | block | returnStatement | functionDeclaration | ifStatement | whileStatement | forStatement
  | forOf | declaration =>
      exact JavaScript.PrintFault.noConfusion h.2
  | _ => exact h.flows_expressionStatement

/-- The statements of a body flow if each of its nodes does in its place. -/
theorem flows_of_mem_asBody {nodes : List JavaScript.Node}
    (h : ∀ j ∈ nodes, (asStatement j).Flows) : ∀ s ∈ asBody nodes, s.Flows := by
  intro s hs
  obtain ⟨hs, -⟩ := List.mem_filter.mp hs
  obtain ⟨j, hj, rfl⟩ := List.mem_map.mp hs
  exact h j hj

/-! ### Lists -/

theorem answers_lowerEach {good : JavaScript.Node → Prop} {nodes : List Node}
    (h : ∀ node ∈ nodes, Answers node.isLowerable good (lower node)) :
    Answers (eachLowerable nodes) (fun js => ∀ j ∈ js, good j) (lowerEach nodes) := by
  induction nodes with
  | nil =>
      rw [lowerEach]
      exact ⟨rfl, by simp⟩
  | cons node rest ih =>
      rw [lowerEach_cons, eachLowerable]
      refine (h node (by simp)).bind fun j hj => (ih fun n hn => h n (by simp [hn])).map ?_
      intro js hjs i hi
      rcases List.mem_cons.mp hi with rfl | hi
      · exact hj
      · exact hjs i hi

/-! ### Arrays

The items are first searched for one with a key, and the search ends there.  So an absent item
stops the search only if it comes before, and otherwise stops the lowering of the items. -/

theorem isEntry_iff {item : Node} (h : IsExpression item) :
    isEntry item = true ↔ ∃ detail, item = .unsupported "entry" detail := by
  cases h with
  | unsupported kind detail => simp [isEntry, Node.kind]
  | _ => simp [isEntry, Node.kind]

/-- The node of a construct. -/
def isConstruct : Node → Bool
  | .absent | .stray _ | .unlisted => false
  | _ => true

theorem hasEntry_cons {item : Node} (h : isConstruct item = true) (rest : List Node) :
    hasEntry (item :: rest) = if isEntry item then pure true else hasEntry rest := by
  cases item <;> first | rfl | cases h

theorem hasEntry_cases {items : List Node}
    (h : ∀ item ∈ items, (∃ key value, item = .entry key value) ∨ IsExpression item) :
    ((∃ f, hasEntry items = .error f) ∧ items.all Node.isPresent = false) ∨
      hasEntry items = .ok true ∨
      hasEntry items = .ok false ∧ items.all Node.isPresent = true ∧
        ∀ item ∈ items, isEntry item = false := by
  induction items with
  | nil => exact .inr (.inr ⟨rfl, rfl, by simp⟩)
  | cons item rest ih =>
      have ih := ih fun i hi => h i (by simp [hi])
      rcases h item (by simp) with ⟨key, value, rfl⟩ | hitem
      · exact .inr (.inl rfl)
      · by_cases habs : item = .absent
        · subst habs
          exact .inl ⟨⟨_, rfl⟩, rfl⟩
        · have hpresent : item.isPresent = true := by
            cases item <;> first | rfl | exact absurd rfl habs
          have hconstruct : isConstruct item = true := by
            cases hitem <;> first | rfl | exact absurd rfl habs
          rw [hasEntry_cons hconstruct]
          by_cases hentry : isEntry item = true
          · rw [if_pos hentry]
            exact .inr (.inl rfl)
          · rw [if_neg hentry, List.all_cons, hpresent, Bool.true_and]
            rcases ih with ih | ih | ⟨hno, hall, hrest⟩
            · exact .inl ih
            · exact .inr (.inl ih)
            · refine .inr (.inr ⟨hno, hall, ?_⟩)
              intro i hi
              rcases List.mem_cons.mp hi with rfl | hi
              · exact Bool.eq_false_iff.mpr hentry
              · exact hrest i hi

theorem lowerItems_plain {item : Node} (index : Nat) (rest : List Node)
    (hplain : ∀ key value, item ≠ .entry key value) (hpresent : item ≠ .absent) :
    lowerItems index (item :: rest) =
      (if isEntry item then throw (.lacksPart "key")
      else do
        let value ← lower item
        let rest ← lowerItems (index + 1) rest
        pure (numbered index value :: rest)) := by
  rw [lowerItems]
  · exact fun value => hplain _ value
  · exact hplain
  · exact hpresent

theorem IsPrintableProperty.cons {p : JavaScript.Node} {ps : List JavaScript.Node}
    (hp : p.IsPrintableProperty) (hps : ∀ q ∈ ps, q.IsPrintableProperty) :
    ∀ q ∈ p :: ps, q.IsPrintableProperty := by
  intro q hq
  rcases List.mem_cons.mp hq with rfl | hq
  · exact hp
  · exact hps q hq

theorem isPrintableProperty_numbered {value : JavaScript.Node} (index : Nat)
    (h : value.IsPrintable) : (numbered index value).IsPrintableProperty :=
  .intro false (JavaScript.Node.isPrintable_number _) h

theorem answers_lowerItems {items : List Node}
    (hk : ∀ key value, .entry key value ∈ items →
      Answers key.isLowerable IsPrintable (lower key))
    (hv : ∀ key value, .entry key value ∈ items →
      Answers value.isLowerable IsPrintable (lower value))
    (hp : ∀ item ∈ items, (∀ key value, item ≠ .entry key value) →
      IsExpression item ∧ Answers item.isLowerable IsPrintable (lower item)) :
    ∀ index, Answers (items.all Node.isPresent && eachLowerable items)
      (fun ps => ∀ p ∈ ps, p.IsPrintableProperty) (lowerItems index items) := by
  induction items with
  | nil =>
      intro index
      rw [lowerItems]
      exact ⟨rfl, by simp⟩
  | cons item rest ih =>
      intro index
      have ih := ih (fun k v hm => hk k v (by simp [hm])) (fun k v hm => hv k v (by simp [hm]))
        (fun i hi => hp i (by simp [hi]))
      rw [List.all_cons, eachLowerable]
      by_cases hentry : ∃ key value, item = .entry key value
      · obtain ⟨key, value, rfl⟩ := hentry
        have hkey := hk key value (by simp)
        have hvalue := hv key value (by simp)
        rw [Node.isLowerable]
        by_cases habs : key = .absent
        · -- an entry without a key counts like any other item
          subst habs
          rw [lowerItems, Node.isLowerable]
          refine ((hvalue.bind fun j hj => (ih (index + 1)).map ?_).of_eq ?_)
          · exact fun ps hps => IsPrintableProperty.cons (isPrintableProperty_numbered index hj) hps
          · simp [Node.isPresent, Bool.and_left_comm]
        · rw [lowerItems]
          · refine (hkey.bind fun j hj => hvalue.bind fun i hi => (ih index).map ?_).of_eq ?_
            · exact fun ps hps => IsPrintableProperty.cons (.intro (isComputedKey j) hj hi) hps
            · simp [Node.isPresent, Bool.and_assoc, Bool.and_left_comm]
          · exact habs
      · have hplain : ∀ key value, item ≠ .entry key value :=
          fun key value h => hentry ⟨key, value, h⟩
        obtain ⟨hsorted, hitem⟩ := hp item (by simp) hplain
        by_cases habs : item = .absent
        · subst habs
          rw [lowerItems]
          exact ⟨rfl, trivial⟩
        · rw [lowerItems_plain index rest hplain habs]
          by_cases hkind : isEntry item = true
          · obtain ⟨detail, rfl⟩ := (isEntry_iff hsorted).mp hkind
            rw [if_pos hkind, Node.isLowerable]
            exact ⟨Bool.and_false _, trivial⟩
          · have hpresent : item.isPresent = true := by
              cases item <;> first | rfl | exact absurd rfl habs
            rw [if_neg hkind, hpresent, Bool.true_and]
            refine (hitem.bind fun j hj => (ih (index + 1)).map ?_).of_eq ?_
            · exact fun ps hps => IsPrintableProperty.cons (isPrintableProperty_numbered index hj) hps
            · simp [Bool.and_left_comm]

theorem answers_array {items : List Node}
    (hk : ∀ key value, .entry key value ∈ items →
      Answers key.isLowerable IsPrintable (lower key))
    (hv : ∀ key value, .entry key value ∈ items →
      Answers value.isLowerable IsPrintable (lower value))
    (hp : ∀ item ∈ items, (∀ key value, item ≠ .entry key value) →
      IsExpression item ∧ Answers item.isLowerable IsPrintable (lower item)) :
    Answers (Node.array items).isLowerable IsPrintable (lower (.array items)) := by
  have hsorted : ∀ item ∈ items, (∃ key value, item = .entry key value) ∨ IsExpression item := by
    intro item hitem
    by_cases hentry : ∃ key value, item = .entry key value
    · exact .inl hentry
    · exact .inr (hp item hitem fun key value h => hentry ⟨key, value, h⟩).1
  rw [lower, Node.isLowerable]
  rcases hasEntry_cases hsorted with ⟨⟨f, hf⟩, habs⟩ | hyes | ⟨hno, hall, hrest⟩
  · rw [hf, habs]
    exact ⟨rfl, trivial⟩
  · rw [hyes]
    exact (answers_lowerItems hk hv hp 0).map fun ps hps => .object hps
  · rw [hno, hall, Bool.true_and]
    refine Settles.map (answers_lowerEach fun item hitem => ?_) fun js hjs => .array hjs
    refine (hp item hitem ?_).2
    intro key value h
    have := hrest item hitem
    simp [h, isEntry, Node.kind] at this

/-! ### Expressions -/

theorem isPrintable_global (object name : String) : (globalMember object name).IsPrintable :=
  .member false (JavaScript.Node.isPrintable_identifier object)
    (JavaScript.Node.isPrintable_identifier name)

theorem isPrintable_logCall {argument : JavaScript.Node} (h : argument.IsPrintable) :
    (logCall argument).IsPrintable := by
  refine JavaScript.Node.isPrintable_expressionStatement.mpr (.call (isPrintable_global _ _) ?_)
  intro e he
  split at he
  · rwa [List.mem_singleton.mp he]
  · exact absurd he List.not_mem_nil

theorem isPrintable_joinEcho {values : List JavaScript.Node} (h : ∀ v ∈ values, v.IsPrintable) :
    (joinEcho values).IsPrintable := by
  unfold joinEcho
  suffices ∀ joined : JavaScript.Node, joined.IsPrintable →
      (values.foldl (fun joined value =>
        if joined.isPresent then .binary (.text "+") joined value else value) joined).IsPrintable from
    this _ JavaScript.Node.isPrintable_absent
  induction values with
  | nil => exact fun joined hj => hj
  | cons value rest ih =>
      intro joined hj
      have hvalue := h value (by simp)
      refine ih (fun v hv => h v (by simp [hv])) _ ?_
      show (if joined.isPresent then .binary (.text "+") joined value else value).IsPrintable
      split
      · exact .binary _ hj hvalue
      · exact hvalue

theorem isPrintable_placeholder (kind : String) : (placeholder kind).IsPrintable :=
  JavaScript.Node.isPrintable_expressionStatement.mpr (JavaScript.Node.isPrintable_string _)

theorem isPrintable_asStatement {j : JavaScript.Node} (h : j.IsPrintable) :
    (asStatement j).IsPrintable := by
  unfold asStatement
  split
  · exact h
  · exact JavaScript.Node.isPrintable_expressionStatement.mpr h

theorem isPrintable_asExpression {js : List JavaScript.Node} (h : ∀ j ∈ js, j.IsPrintable) :
    (asExpression js).IsPrintable := by
  rcases js with _ | ⟨only, _ | ⟨second, rest⟩⟩
  · exact JavaScript.Node.isPrintable_absent
  · exact h only (by simp)
  · exact .sequence h

theorem answers_unsupported (kind detail : String) :
    Answers (Node.unsupported kind detail).isLowerable IsPrintable
      (lower (.unsupported kind detail)) := by
  rw [lower, Node.isLowerable]
  by_cases hnull : kind = "null"
  · subst hnull
    exact ⟨rfl, JavaScript.Node.isPrintable_null⟩
  · rw [if_neg hnull]
    cases firstParts.lookup kind with
    | none => exact ⟨rfl, isPrintable_placeholder kind⟩
    | some part => exact ⟨rfl, trivial⟩

theorem answers_parameter (name : String) {default : Node}
    (h : Answers default.isLowerable IsPrintable (lower default)) :
    Answers (Node.parameter (.text name) default).isLowerable IsPrintable
      (lower (.parameter (.text name) default)) := by
  have htarget := JavaScript.Node.isPrintable_identifier (stripSigil name)
  rw [lower, Node.isLowerable]
  show Answers _ _ (if default.isPresent then do
      pure (JavaScript.Node.assignmentPattern (.identifier (.text (stripSigil name)))
        (← lower default))
    else pure (JavaScript.Node.identifier (.text (stripSigil name))))
  by_cases hp : default.isPresent = true
  · rw [if_pos hp]
    exact h.map fun j hj => .assignmentPattern htarget hj
  · obtain rfl := Node.eq_absent_of_not_isPresent hp
    exact ⟨rfl, htarget⟩

/-- **Lowering answers an expression just if it is lowerable**, with an expression that can be
printed. -/
theorem answers_lower_expression {e : Node} (h : IsExpression e) :
    Answers e.isLowerable IsPrintable (lower e) := by
  induction h with
  | absent => rw [lower]; exact ⟨rfl, JavaScript.Node.isPrintable_absent⟩
  | null => rw [lower]; exact ⟨rfl, JavaScript.Node.isPrintable_null⟩
  | «variable» name => rw [lower]; exact ⟨rfl, JavaScript.Node.isPrintable_identifier _⟩
  | string value => rw [lower]; exact ⟨rfl, JavaScript.Node.isPrintable_string _⟩
  | number value => rw [lower]; exact ⟨rfl, JavaScript.Node.isPrintable_number _⟩
  | boolean value => rw [lower]; exact ⟨rfl, JavaScript.Node.isPrintable_boolean _⟩
  | name text => rw [lower]; exact ⟨rfl, JavaScript.Node.isPrintable_identifier text⟩
  | echo h ih =>
      rw [lower]
      exact (answers_lowerEach ih).map fun js hjs => isPrintable_logCall (isPrintable_joinEcho hjs)
  | print h ih =>
      rw [lower]
      exact ih.map fun j hj => isPrintable_logCall hj
  | expressionStatement h ih =>
      rw [lower]
      exact ih.map fun j hj => isPrintable_asStatement hj
  | parameter name h ih => exact answers_parameter name ih
  | assign operator hl hr ihl ihr =>
      rw [lower]
      exact ihl.bind fun l hl => ihr.map fun r hr => .assignment _ hl hr
  | array keys values plain ihk ihv ihp =>
      exact answers_array ihk ihv fun item hm hne => ⟨plain item hm hne, ihp item hm hne⟩
  | call hc h ihc ih =>
      rw [lower]
      exact ihc.bind fun c hc => (answers_lowerEach ih).map fun js hjs => .call hc hjs
  | methodCall name arguments ho ih =>
      rw [lower]
      exact ih.map fun j hj => .member false hj (JavaScript.Node.isPrintable_identifier name)
  | propertyLookup name ho ih =>
      rw [lower]
      exact ih.map fun j hj => .member false hj (JavaScript.Node.isPrintable_identifier name)
  | offsetLookup ho hf iho ihf =>
      rw [lower]
      exact iho.bind fun o ho => ihf.map fun f hf => .member true ho hf
  | binary operator hl hr ihl ihr =>
      rw [lower]
      refine ihl.bind fun l hl => (ihr.bind (c := true) fun r hr => ?_).of_eq (Bool.and_true _)
      show Answers true _ (if isLogical operator then _ else _)
      split
      · exact ⟨rfl, .logical _ hl hr⟩
      · exact ⟨rfl, .binary _ hl hr⟩
  | unary operator h ih =>
      rw [lower]
      exact ih.map fun j hj => .unary operator hj
  | stepBefore operator h ih =>
      rw [lower]
      exact ih.map fun j hj => .update _ true hj
  | stepBehind operator h ih =>
      rw [lower]
      exact ih.map fun j hj => .update _ false hj
  | ternary ht hc ha iht ihc iha =>
      rw [lower, Node.isLowerable, Bool.and_assoc]
      exact iht.bind fun t ht => ihc.bind fun c hc => iha.map fun a ha => .conditional ht hc ha
  | unsupported kind detail => exact answers_unsupported kind detail

/-! ### Loops over collections -/

theorem unsupportedBinding?_eq {key value : Node} (hk : IsBinding key) (hv : IsBinding value) :
    unsupportedBinding? [key, value] = .ok (if key.isForeignBinding then some key.kind
      else if value.isForeignBinding then some value.kind else none) := by
  have hlast : unsupportedBinding? [value] =
      .ok (if value.isForeignBinding then some value.kind else none) := by
    cases hv with
    | unsupported kind detail =>
        by_cases h : kind = "variable" <;>
          simp [unsupportedBinding?, Node.isForeignBinding, Node.isPresent, Node.kind, h, pure,
            Except.pure]
    | _ => rfl
  cases hk with
  | unsupported kind detail =>
      show (if kind = "variable" then unsupportedBinding? [value] else pure (some kind)) = _
      by_cases h : kind = "variable"
      · rw [if_pos h, hlast]
        simp [Node.isForeignBinding, Node.kind, h]
      · rw [if_neg h]
        simp [Node.isForeignBinding, Node.isPresent, Node.kind, h, pure, Except.pure]
  | _ => exact hlast

theorem answers_bindingName {node : Node} (h : IsBinding node) (hp : node.isPresent = true) :
    Answers node.hasBoundName (fun name => ∃ text, name = .text text) (bindingName node) := by
  cases h with
  | absent => exact Bool.noConfusion hp
  | «variable» name => exact ⟨rfl, _, rfl⟩
  | unsupported kind detail => exact ⟨rfl, trivial⟩

theorem answers_loopBinding {source : JavaScript.Node} {key value : Node}
    (hs : source.IsPrintable) (hk : IsBinding key) (hv : IsBinding value) :
    Answers (key.hasBoundName && value.hasBoundName)
      (fun loop => loop.1.IsPrintable ∧ loop.2.IsPrintable) (loopBinding source key value) := by
  have habsent : ∀ node : Node, ¬ node.isPresent = true → node.hasBoundName = true := by
    intro node h
    cases node <;> first | rfl | exact absurd rfl h
  unfold loopBinding
  by_cases hkey : key.isPresent = true <;> by_cases hvalue : value.isPresent = true
  · rw [hkey, hvalue]
    refine (answers_bindingName hk hkey).bind fun k hk => (answers_bindingName hv hvalue).map ?_
    obtain ⟨k, rfl⟩ := hk
    rintro _ ⟨v, rfl⟩
    refine ⟨.call (isPrintable_global _ _) (by simpa using hs),
      JavaScript.Node.isPrintable_identifier v⟩
  · rw [hkey, Bool.eq_false_iff.mpr hvalue, habsent value hvalue, Bool.and_true]
    refine (answers_bindingName hk hkey).map ?_
    rintro _ ⟨k, rfl⟩
    exact ⟨hs, JavaScript.Node.isPrintable_identifier k⟩
  · rw [hvalue, Bool.eq_false_iff.mpr hkey, habsent key hkey, Bool.true_and]
    refine (answers_bindingName hv hvalue).map ?_
    rintro _ ⟨v, rfl⟩
    exact ⟨hs, JavaScript.Node.isPrintable_identifier v⟩
  · rw [Bool.eq_false_iff.mpr hkey, Bool.eq_false_iff.mpr hvalue, habsent key hkey,
      habsent value hvalue]
    exact ⟨rfl, hs, JavaScript.Node.isPrintable_identifier "item"⟩

/-! ### Statements -/

theorem answers_lowerEach_expressions {es : List Node} (h : ∀ e ∈ es, IsExpression e) :
    Answers (eachLowerable es) (fun js => ∀ j ∈ js, j.IsPrintable) (lowerEach es) :=
  answers_lowerEach fun e he => answers_lower_expression (h e he)

theorem answers_lowerParameters {parameters : List Node} (h : ∀ p ∈ parameters, IsParameter p) :
    Answers (eachLowerable parameters) (fun js => ∀ j ∈ js, j.IsPrintable)
      (lowerParameters parameters) := by
  have heq : lowerParameters parameters = lowerEach parameters := by
    induction parameters with
    | nil => rw [lowerParameters, lowerEach]
    | cons p rest ih =>
        rw [lowerParameters, lowerEach, ih fun q hq => h q (by simp [hq])]
        cases h p (by simp)
        rfl
  rw [heq]
  refine answers_lowerEach_expressions fun p hp => ?_
  cases h p hp with
  | intro name hdefault => exact .parameter name hdefault

/-- The lowered node flows as a statement of a body. -/
def FlowsInBody (j : JavaScript.Node) : Prop := (asStatement j).Flows

theorem answers_foreach {source key value : Node} {body : List Node} (hs : IsExpression source)
    (hk : IsBinding key) (hv : IsBinding value)
    (hbody : Answers (eachLowerable body) (fun js => ∀ j ∈ js, FlowsInBody j) (lowerEach body)) :
    Answers (Node.foreach source key value body).isLowerable FlowsInBody
      (lower (.foreach source key value body)) := by
  rw [lower, Node.isLowerable, unsupportedBinding?_eq hk hv]
  have hplaceholder : ∀ kind, FlowsInBody (placeholder kind) := fun kind =>
    flows_asStatement_of_isPrintable (isPrintable_placeholder kind)
  by_cases hkey : key.isForeignBinding = true
  · rw [if_pos hkey, hkey, Bool.true_or, Bool.true_or]
    exact ⟨rfl, hplaceholder _⟩
  by_cases hvalue : value.isForeignBinding = true
  · rw [if_neg hkey, if_pos hvalue, hvalue, Bool.or_true, Bool.true_or]
    exact ⟨rfl, hplaceholder _⟩
  rw [if_neg hkey, if_neg hvalue, Bool.eq_false_iff.mpr hkey, Bool.eq_false_iff.mpr hvalue,
    Bool.false_or, Bool.false_or, Bool.and_assoc]
  refine (answers_lower_expression hs).bind fun s hs => (answers_loopBinding hs hk hv).bind ?_
  rintro ⟨source, target⟩ ⟨hsource, htarget⟩
  exact hbody.map fun js hjs =>
    JavaScript.Node.flows_forOf _
      (List.forall_mem_singleton.mpr (.intro htarget JavaScript.Node.isPrintable_absent)) hsource
      (flows_of_mem_asBody hjs)

/-- **Lowering answers a statement just if it is lowerable**, with a statement that can be
printed in a body. -/
theorem answers_lower_statement {s : Node} (h : IsStatement s) :
    Answers s.isLowerable FlowsInBody (lower s) := by
  induction h with
  | expression h =>
      exact (answers_lower_expression h).mono fun j hj => flows_asStatement_of_isPrintable hj
  | expressionStatement h ih =>
      rw [lower]
      refine ih.map fun j hj => ?_
      rw [FlowsInBody, asStatement_asStatement]
      exact hj
  | returnValue h =>
      rw [lower_returnValue]
      exact (answers_lower_expression h).map fun j hj => hj.flows_return
  | function name hp h ih =>
      rw [lower]
      refine (answers_lowerParameters hp).bind fun ps hps => (answers_lowerEach ih).map ?_
      exact fun js hjs => JavaScript.Node.flows_function _ hps (flows_of_mem_asBody hjs)
  | ifThen ht h ih =>
      rw [lower]
      refine (answers_lower_expression ht).bind fun t ht => (answers_lowerEach ih).map ?_
      exact fun js hjs => JavaScript.Node.flows_if ht (flows_of_mem_asBody hjs)
  | ifElse ht h ha ih iha =>
      rw [lower, Node.isLowerable, Bool.and_assoc]
      refine (answers_lowerEach iha).bind fun as has =>
        (answers_lower_expression ht).bind fun t ht => (answers_lowerEach ih).map ?_
      exact fun js hjs => JavaScript.Node.flows_ifElse ht (flows_of_mem_asBody hjs)
        (flows_of_mem_asBody has)
  | whileLoop ht h ih =>
      rw [lower]
      refine (answers_lower_expression ht).bind fun t ht => (answers_lowerEach ih).map ?_
      exact fun js hjs => JavaScript.Node.flows_while ht (flows_of_mem_asBody hjs)
  | forLoop hs ht hu h ih =>
      rw [lower, Node.isLowerable, Bool.and_assoc, Bool.and_assoc]
      refine (answers_lowerEach_expressions hs).bind fun ss hss =>
        (answers_lowerEach_expressions ht).bind fun ts hts =>
          (answers_lowerEach_expressions hu).bind fun us hus => (answers_lowerEach ih).map ?_
      exact fun js hjs => JavaScript.Node.flows_for (isPrintable_asExpression hss)
        (isPrintable_asExpression hts) (isPrintable_asExpression hus) (flows_of_mem_asBody hjs)
  | foreach hs hk hv h ih => exact answers_foreach hs hk hv (answers_lowerEach ih)

/-- **A program of statements is lowered just if it is lowerable**, and then it has a source text
just if the integers of what it is lowered to are short enough. -/
theorem answers_lower_program {body : List Node} (h : ∀ s ∈ body, IsStatement s) :
    Answers (eachLowerable body)
      (fun j => JavaScript.Prints j.isWritable JavaScript.anything j.source)
      (lower (.program body)) := by
  rw [lower]
  refine (answers_lowerEach fun s hs => answers_lower_statement (h s hs)).map fun js hjs => ?_
  exact JavaScript.Node.print_of_flows _ (flows_of_mem_asBody hjs)

end Lowering

end PhpMigration
