/-
What is not supported is marked, once and in its place, and nothing else is.

The marks of a core tree are the texts that its unsupported parts have to leave behind, in the
order in which the parts are written.  A loop over a collection that binds something unsupported
is one such part with all that is in it.  The marks of a JavaScript tree are the texts of the
placeholders that a walk through it meets.

Lowering carries the one over to the other (`Carries`).  A placeholder is a statement made of a
text, so it matters that no other text becomes a statement that looks like one: that is the second
half of the invariant, and the reason why texts that begin like a placeholder are left out.  The
arguments of a method call are dropped with their marks, so they must not have any.
-/
import PhpMigration.Proofs.Conversion.WellSorted

namespace PhpMigration

open Lowering (placeholderLead)

/-! ### Marks of a core tree -/

namespace Core

/-- The text that a node leaves behind for itself and all of its parts. -/
def Node.ownMark? : Node → Option String
  | .unsupported kind _ => some (placeholderLead ++ kind)
  | .foreach _ key value _ =>
    ([key, value].find? Node.isForeignBinding).map fun binding =>
      placeholderLead ++ ("foreach " ++ binding.kind)
  | _ => none

/-- The texts that the parts of a tree leave behind, from left to right. -/
def Node.marks (node : Node) : List String :=
  match node.ownMark? with
  | some mark => [mark]
  | none => node.parts.attach.flatMap fun part => part.1.marks
termination_by sizeOf node
decreasing_by exact Node.sizeOf_lt_of_mem_parts part.2

theorem Node.marks_of_own {node : Node} {mark : String} (h : node.ownMark? = some mark) :
    node.marks = [mark] := by
  rw [marks, h]

theorem Node.marks_of_parts {node : Node} (h : node.ownMark? = none) :
    node.marks = node.parts.flatMap marks := by
  rw [marks, h]
  simp

/-- What lowering needs of a node to answer, and texts must not be taken for placeholders. -/
def IsPlain : Node → Prop
  | .stray _ | .unlisted => False
  | .variable name | .parameter name _ => ∃ text, name = .text text
  | .assign _ _ operator | .stepBefore operator _ | .stepBehind operator _ =>
    ∃ text, operator = .text text
  | .string value => ∃ text, value = .text text ∧
      placeholderLead.toList.isPrefixOf text.toList = false
  | .function _ parameters _ => ∀ p ∈ parameters, ∃ name default, p = .parameter name default
  | .array items => ∀ item ∈ items, item ≠ .absent
  | .methodCall _ _ arguments => ∀ a ∈ arguments, a.marks = []
  | .unsupported kind _ => kind ∉ knownKinds
  | _ => True

/-- A loop binds the node by its name, or binds nothing. -/
def Node.IsNameOrNothing (node : Node) : Prop := node = .absent ∨ ∃ name, node = .variable name

/-- A node of a kind that is supported; what a loop binds are variables. -/
def IsSupported : Node → Prop
  | .unsupported .. => False
  | .foreach _ key value _ => key.IsNameOrNothing ∧ value.IsNameOrNothing
  | _ => True

theorem Node.IsNameOrNothing.isForeignBinding {node : Node} (h : node.IsNameOrNothing) :
    node.isForeignBinding = false := by
  rcases h with rfl | ⟨name, rfl⟩ <;> rfl

/-- Where all is supported there is nothing to mark. -/
theorem marks_of_isSupported {node : Node} (h : Everywhere IsSupported node) : node.marks = [] := by
  induction node using children_induction with
  | step node ih =>
  obtain ⟨hnode, hchildren⟩ := everywhere_iff.mp h
  have hown : node.ownMark? = none := by
    cases node with
    | unsupported kind detail => exact hnode.elim
    | foreach source key value body =>
        simp [Node.ownMark?, hnode.1.isForeignBinding, hnode.2.isForeignBinding]
    | _ => rfl
  rw [Node.marks_of_parts hown, List.flatMap_eq_nil_iff]
  exact fun part hpart => ih part hpart (hchildren part hpart)

end Core

namespace Lowering

open PhpMigration.Core (Node IsPlain IsSupported)

/-! ### Placeholders of a JavaScript tree -/

/-- The text of a placeholder. -/
def markText? : JavaScript.Node → Option String
  | .expressionStatement (.stringLiteral (.text text)) =>
    if placeholderLead.toList.isPrefixOf text.toList then some text else none
  | _ => none

/-- The texts of the placeholders that a walk through a tree meets. -/
def placeholders (j : JavaScript.Node) : List String := (walk j).filterMap markText?

theorem placeholders_eq (j : JavaScript.Node) :
    placeholders j = (markText? j).toList ++ j.parts.flatMap placeholders := by
  have hparts : ∀ js : List JavaScript.Node,
      (js.flatMap walk).filterMap markText? = js.flatMap placeholders := by
    intro js
    induction js with
    | nil => rfl
    | cons j js ih => rw [List.flatMap_cons, List.filterMap_append, ih, List.flatMap_cons]; rfl
  unfold placeholders
  rw [walk_eq, List.filterMap_cons]
  cases markText? j with
  | none => exact hparts _
  | some text => exact congrArg (text :: ·) (hparts _)

theorem placeholders_of_parts {j : JavaScript.Node} (h : markText? j = none) :
    placeholders j = j.parts.flatMap placeholders := by
  rw [placeholders_eq, h]
  rfl

theorem markText?_placeholder (kind : String) :
    markText? (placeholder kind) = some (placeholderLead ++ kind) := by
  have hprefix : placeholderLead.toList.isPrefixOf (placeholderLead ++ kind).toList = true := by
    rw [String.toList_append, List.isPrefixOf_iff_prefix]
    exact List.prefix_append _ _
  rw [placeholder, markText?, if_pos hprefix]

theorem placeholders_placeholder (kind : String) :
    placeholders (placeholder kind) = [placeholderLead ++ kind] := by
  have hleaf : placeholders (.stringLiteral (.text (placeholderLead ++ kind))) = [] := by
    rw [placeholders_of_parts rfl]
    rfl
  rw [placeholders_eq, markText?_placeholder]
  simp [placeholder, JavaScript.Node.parts, hleaf]

/-! ### What lowering carries over -/

/-- The placeholders are the marks, and as a statement the node is not one of them by itself. -/
structure Carries (node : Node) (j : JavaScript.Node) : Prop where
  marks : placeholders j = node.marks
  bare : markText? (.expressionStatement j) = none

/-- The same of some nodes, one behind the other. -/
structure CarriesEach (nodes : List Node) (js : List JavaScript.Node) : Prop where
  marks : js.flatMap placeholders = nodes.flatMap Node.marks
  bare : ∀ j ∈ js, markText? (.expressionStatement j) = none

/-- Lowering answers, and carries the marks over. -/
def IsCarried (node : Node) : Prop := ∃ j, lower node = .ok j ∧ Carries node j

variable {node : Node} {nodes : List Node} {j : JavaScript.Node} {js : List JavaScript.Node}

theorem CarriesEach.nil : CarriesEach [] [] := ⟨rfl, fun _ hj => absurd hj List.not_mem_nil⟩

theorem CarriesEach.cons (h : Carries node j) (hs : CarriesEach nodes js) :
    CarriesEach (node :: nodes) (j :: js) := by
  refine ⟨?_, List.forall_mem_cons.mpr ⟨h.bare, hs.bare⟩⟩
  rw [List.flatMap_cons, List.flatMap_cons, h.marks, hs.marks]

theorem exists_lowerEach (h : ∀ node ∈ nodes, IsCarried node) :
    ∃ js, lowerEach nodes = .ok js ∧ CarriesEach nodes js := by
  induction nodes with
  | nil => exact ⟨[], by rw [lowerEach]; rfl, .nil⟩
  | cons node rest ih =>
      obtain ⟨⟨j, hj, hcarries⟩, hrest⟩ := List.forall_mem_cons.mp h
      obtain ⟨js, hjs, hcarriesEach⟩ := ih hrest
      exact ⟨j :: js, by rw [lowerEach, hj, hjs]; rfl, .cons hcarries hcarriesEach⟩

/-- A node that leaves nothing behind for itself carries what its parts carry. -/
theorem Carries.of_parts (hnode : node.ownMark? = none) (hj : markText? j = none)
    (hbare : markText? (.expressionStatement j) = none)
    (h : j.parts.flatMap placeholders = node.parts.flatMap Node.marks) : Carries node j :=
  ⟨by rw [placeholders_of_parts hj, Node.marks_of_parts hnode, h], hbare⟩

/-! ### Bodies and lists -/

theorem placeholders_absent : placeholders .absent = [] := by
  rw [placeholders_of_parts rfl]
  rfl

theorem placeholders_identifier (name : Value) : placeholders (.identifier name) = [] := by
  rw [placeholders_of_parts rfl]
  rfl

theorem placeholders_asStatement (h : markText? (.expressionStatement j) = none) :
    placeholders (asStatement j) = placeholders j := by
  unfold asStatement
  split
  · rfl
  · rw [placeholders_of_parts h]
    simp [JavaScript.Node.parts]

theorem placeholders_asBody (h : ∀ j ∈ js, markText? (.expressionStatement j) = none) :
    (asBody js).flatMap placeholders = js.flatMap placeholders := by
  induction js with
  | nil => rfl
  | cons j js ih =>
      obtain ⟨hj, hjs⟩ := List.forall_mem_cons.mp h
      unfold asBody at ih ⊢
      rw [List.map_cons, List.filter_cons, List.flatMap_cons, ← ih hjs,
        ← placeholders_asStatement hj]
      split
      · rw [List.flatMap_cons]
      · rename_i habsent
        rw [JavaScript.Node.eq_absent_of_not_isPresent habsent, placeholders_absent, List.nil_append]

theorem CarriesEach.block (h : CarriesEach nodes js) :
    placeholders (.block (asBody js)) = nodes.flatMap Node.marks := by
  rw [placeholders_of_parts rfl, ← h.marks, ← placeholders_asBody h.bare]
  rfl

theorem CarriesEach.asExpression (h : CarriesEach nodes js) :
    placeholders (asExpression js) = nodes.flatMap Node.marks := by
  rw [← h.marks]
  rcases js with _ | ⟨only, _ | ⟨second, rest⟩⟩
  · exact placeholders_absent
  · simp [Lowering.asExpression]
  · exact placeholders_of_parts rfl

theorem placeholders_joinEcho (js : List JavaScript.Node) :
    placeholders (joinEcho js) = js.flatMap placeholders := by
  have hfold : ∀ joined : JavaScript.Node,
      placeholders (js.foldl (fun joined value =>
        if joined.isPresent then .binary (.text "+") joined value else value) joined) =
        placeholders joined ++ js.flatMap placeholders := by
    induction js with
    | nil => intro joined; simp
    | cons value rest ih =>
        intro joined
        rw [List.foldl_cons, ih, List.flatMap_cons, ← List.append_assoc]
        congr 1
        split
        · rw [placeholders_of_parts rfl]
          simp [JavaScript.Node.parts]
        · rename_i habsent
          rw [JavaScript.Node.eq_absent_of_not_isPresent habsent, placeholders_absent, List.nil_append]
  rw [joinEcho, hfold, placeholders_absent, List.nil_append]

theorem placeholders_global (object name : String) :
    placeholders (globalMember object name) = [] := by
  rw [globalMember, namedMember, placeholders_of_parts rfl]
  simp [JavaScript.Node.parts, placeholders_identifier]

theorem placeholders_logCall (j : JavaScript.Node) : placeholders (logCall j) = placeholders j := by
  rw [logCall, placeholders_of_parts rfl]
  simp only [JavaScript.Node.parts, List.flatMap_cons, List.flatMap_nil, List.append_nil]
  rw [placeholders_of_parts rfl]
  simp only [JavaScript.Node.parts, List.flatMap_cons, placeholders_global, List.nil_append]
  split
  · simp
  · rename_i habsent
    rw [JavaScript.Node.eq_absent_of_not_isPresent habsent, placeholders_absent]
    rfl

/-! ### Parameters, items and bindings -/

theorem lowerParameters_eq_lowerEach
    (h : ∀ p ∈ nodes, ∃ name default, p = .parameter name default) :
    lowerParameters nodes = lowerEach nodes := by
  induction nodes with
  | nil => rw [lowerParameters, lowerEach]
  | cons p rest ih =>
      obtain ⟨⟨name, default, rfl⟩, hrest⟩ := List.forall_mem_cons.mp h
      rw [lowerParameters, lowerEach, ih hrest]
      rfl

theorem isEntry_eq_false (hplain : IsPlain node) (h : ∀ key value, node ≠ .entry key value) :
    isEntry node = false := by
  cases node with
  | entry key value => exact absurd rfl (h key value)
  | unsupported kind detail =>
      refine beq_eq_false_iff_ne.mpr ?_
      rintro rfl
      exact hplain (by decide)
  | _ => rfl

theorem exists_hasEntry (hplain : ∀ item ∈ nodes, IsPlain item)
    (hpresent : ∀ item ∈ nodes, item ≠ .absent) : ∃ keyed, hasEntry nodes = .ok keyed := by
  induction nodes with
  | nil => exact ⟨false, rfl⟩
  | cons item rest ih =>
      obtain ⟨hitem, hrest⟩ := List.forall_mem_cons.mp hplain
      obtain ⟨hne, hpresent⟩ := List.forall_mem_cons.mp hpresent
      obtain ⟨keyed, hkeyed⟩ := ih hrest hpresent
      have hconstruct : isConstruct item = true := by
        cases item <;> first | rfl | exact absurd rfl hne | exact hitem.elim
      rw [hasEntry_cons hconstruct, hkeyed]
      split
      · exact ⟨true, rfl⟩
      · exact ⟨keyed, rfl⟩

theorem placeholders_numbered (index : Nat) (j : JavaScript.Node) :
    placeholders (numbered index j) = placeholders j := by
  rw [numbered, placeholders_of_parts rfl]
  simp only [JavaScript.Node.parts, List.flatMap_cons, List.flatMap_nil, List.append_nil]
  rw [placeholders_of_parts rfl]
  rfl

/-- The value of an entry without a key carries the marks of the entry. -/
theorem exists_value_of_entry {value : Node} (h : IsCarried (.entry .absent value)) :
    ∃ j, lower value = .ok j ∧ placeholders j = (Node.entry .absent value).marks := by
  obtain ⟨i, hi, hcarries⟩ := h
  rw [lower, lower] at hi
  cases hj : lower value with
  | error f =>
      rw [hj] at hi
      cases hi
  | ok j =>
      rw [hj] at hi
      cases hi
      refine ⟨j, rfl, ?_⟩
      rw [← hcarries.marks, placeholders_of_parts (j := .objectProperty _ _ _) rfl]
      simp [JavaScript.Node.parts, placeholders_absent]

theorem exists_lowerItems (h : ∀ item ∈ nodes, IsCarried item)
    (hplain : ∀ item ∈ nodes, IsPlain item) (hpresent : ∀ item ∈ nodes, item ≠ .absent)
    (index : Nat) : ∃ js, lowerItems index nodes = .ok js ∧
      js.flatMap placeholders = nodes.flatMap Node.marks := by
  induction nodes generalizing index with
  | nil => exact ⟨[], by rw [lowerItems]; rfl, rfl⟩
  | cons item rest ih =>
      obtain ⟨hitem, hrest⟩ := List.forall_mem_cons.mp h
      obtain ⟨hplainItem, hplain⟩ := List.forall_mem_cons.mp hplain
      obtain ⟨hne, hpresent⟩ := List.forall_mem_cons.mp hpresent
      have ih := ih hrest hplain hpresent
      by_cases hentry : ∃ value, item = .entry .absent value
      · obtain ⟨value, rfl⟩ := hentry
        obtain ⟨j, hj, hmarks⟩ := exists_value_of_entry hitem
        obtain ⟨js, hjs, hrestMarks⟩ := ih (index + 1)
        refine ⟨numbered index j :: js, by rw [lowerItems, hj, hjs]; rfl, ?_⟩
        rw [List.flatMap_cons, List.flatMap_cons, placeholders_numbered, hmarks, hrestMarks]
      obtain ⟨j, hj, hcarries⟩ := hitem
      by_cases hkeyed : ∃ key value, item = .entry key value
      · obtain ⟨key, value, rfl⟩ := hkeyed
        have hkey : key ≠ .absent := by
          rintro rfl
          exact hentry ⟨value, rfl⟩
        obtain ⟨js, hjs, hrestMarks⟩ := ih index
        refine ⟨j :: js, by rw [lowerItems_entry index rest hkey, hj, hjs]; rfl, ?_⟩
        rw [List.flatMap_cons, List.flatMap_cons, hcarries.marks, hrestMarks]
      · have hno : ∀ key value, item ≠ .entry key value :=
          fun key value heq => hkeyed ⟨key, value, heq⟩
        obtain ⟨js, hjs, hrestMarks⟩ := ih (index + 1)
        refine ⟨numbered index j :: js, ?_, ?_⟩
        · rw [lowerItems_plain index rest hno hne, isEntry_eq_false hplainItem hno, hj, hjs]
          rfl
        · rw [List.flatMap_cons, List.flatMap_cons, placeholders_numbered, hcarries.marks,
            hrestMarks]

theorem unsupportedBinding?_of_isPlain (h : ∀ node ∈ nodes, IsPlain node) :
    unsupportedBinding? nodes = .ok ((nodes.find? Node.isForeignBinding).map Node.kind) := by
  induction nodes with
  | nil => rfl
  | cons node rest ih =>
      obtain ⟨hnode, hrest⟩ := List.forall_mem_cons.mp h
      by_cases habsent : node = .absent
      · subst habsent
        exact ih hrest
      have hstep : unsupportedBinding? (node :: rest) =
          if node.kind = "variable" then unsupportedBinding? rest else pure (some node.kind) := by
        cases node <;> first | rfl | exact absurd rfl habsent | exact hnode.elim
      have hforeign : node.isForeignBinding = (node.kind != "variable") := by
        cases node <;> first | rfl | exact absurd rfl habsent
      rw [hstep, ih hrest, List.find?_cons, hforeign]
      by_cases hkind : node.kind = "variable"
      · rw [if_pos hkind, bne_eq_false_iff_eq.mpr hkind]
      · rw [if_neg hkind, bne_iff_ne.mpr hkind]
        rfl

/-- A plain node that a loop can bind is a variable or not there. -/
theorem binding_cases (hplain : IsPlain node) (h : node.isForeignBinding = false) :
    node = .absent ∨ ∃ name, node = .variable (.text name) := by
  cases node with
  | absent => exact .inl rfl
  | «variable» name =>
      obtain ⟨text, rfl⟩ := hplain
      exact .inr ⟨text, rfl⟩
  | stray | unlisted => exact hplain.elim
  | unsupported kind detail =>
      have hkind : kind = "variable" := by
        simpa [Node.isForeignBinding, Node.isPresent, Node.kind] using h
      subst hkind
      exact absurd (by decide) hplain
  | _ => cases h

theorem exists_loopBinding {key value : Node} (source : JavaScript.Node)
    (hk : key = .absent ∨ ∃ name, key = .variable (.text name))
    (hv : value = .absent ∨ ∃ name, value = .variable (.text name)) :
    ∃ loop, loopBinding source key value = .ok loop ∧
      placeholders loop.1 = placeholders source ∧ placeholders loop.2 = [] := by
  rcases hk with rfl | ⟨k, rfl⟩ <;> rcases hv with rfl | ⟨v, rfl⟩
  · exact ⟨_, rfl, rfl, placeholders_identifier _⟩
  · exact ⟨_, rfl, rfl, placeholders_identifier _⟩
  · exact ⟨_, rfl, rfl, placeholders_identifier _⟩
  · refine ⟨_, rfl, ?_, ?_⟩
    · rw [placeholders_of_parts rfl]
      simp [JavaScript.Node.parts, placeholders_global]
    · rw [placeholders_of_parts rfl]
      simp [JavaScript.Node.parts, placeholders_identifier]

theorem marks_of_binding (h : node = .absent ∨ ∃ name, node = .variable (.text name)) :
    node.marks = [] := by
  rcases h with rfl | ⟨name, rfl⟩
  · rw [Node.marks_of_parts rfl]
    rfl
  · rw [Node.marks_of_parts rfl]
    rfl

/-! ### Nodes -/

/-- A loop over a collection becomes one placeholder, or carries what is in it. -/
theorem isCarried_foreach {source key value : Node} {body : List Node} (hs : IsCarried source)
    (hk : IsPlain key) (hv : IsPlain value)
    (hbody : ∃ js, lowerEach body = .ok js ∧ CarriesEach body js) :
    IsCarried (.foreach source key value body) := by
  have hplain : ∀ node ∈ [key, value], IsPlain node := by simpa using ⟨hk, hv⟩
  have hforeign := unsupportedBinding?_of_isPlain hplain
  cases hfind : [key, value].find? Node.isForeignBinding with
  | some binding =>
      have hown : (Node.foreach source key value body).ownMark? =
          some (placeholderLead ++ ("foreach " ++ binding.kind)) := by
        rw [Node.ownMark?, hfind]
        rfl
      refine ⟨placeholder ("foreach " ++ binding.kind), ?_, ?_, rfl⟩
      · rw [lower, hforeign, hfind]
        rfl
      · rw [placeholders_placeholder, Node.marks_of_own hown]
  | none =>
      have hnone := List.find?_eq_none.mp hfind
      have hkey := binding_cases hk (by simpa using hnone key (by simp))
      have hvalue := binding_cases hv (by simpa using hnone value (by simp))
      obtain ⟨s, hsource, hcarries⟩ := hs
      obtain ⟨loop, hloop, hmarks, hbare⟩ := exists_loopBinding s hkey hvalue
      obtain ⟨js, hjs, hcarriesEach⟩ := hbody
      have htarget : placeholders (.declaration (.text "const") [.declarator loop.2 .absent]) = [] := by
        rw [placeholders_of_parts rfl]
        simp only [JavaScript.Node.parts, List.flatMap_cons, List.flatMap_nil, List.append_nil]
        rw [placeholders_of_parts rfl]
        simp [JavaScript.Node.parts, hbare, placeholders_absent]
      refine ⟨.forOf (.declaration (.text "const") [.declarator loop.2 .absent]) loop.1
        (.block (asBody js)), ?_, .of_parts ?_ rfl rfl ?_⟩
      · rw [lower, hforeign, hfind]
        show (do
          let source ← lower source
          let loop ← loopBinding source key value
          let body ← lowerEach body
          pure (JavaScript.Node.forOf (.declaration (.text "const") [.declarator loop.2 .absent])
            loop.1 (.block (asBody body)))) = _
        rw [hsource]
        show (loopBinding s key value >>= _) = _
        rw [hloop, hjs]
        rfl
      · rw [Node.ownMark?, hfind]
        rfl
      · simp only [JavaScript.Node.parts, Node.parts, List.flatMap_cons, List.flatMap_nil,
          htarget, hmarks, hcarries.marks, hcarriesEach.block, marks_of_binding hkey,
          marks_of_binding hvalue, List.nil_append, List.append_nil]

theorem isCarried_parameter {name : String} {default : Node} (h : IsCarried default) :
    IsCarried (.parameter (.text name) default) := by
  obtain ⟨j, hj, hcarries⟩ := h
  by_cases hpresent : default.isPresent = true
  · refine ⟨.assignmentPattern (.identifier (.text (stripSigil name))) j, ?_, .of_parts rfl rfl rfl ?_⟩
    · rw [lower, hj]
      show (if default.isPresent = true then _ else _) = _
      rw [if_pos hpresent]
      rfl
    · simp [JavaScript.Node.parts, Node.parts, placeholders_identifier, hcarries.marks]
  · obtain rfl := Node.eq_absent_of_not_isPresent hpresent
    refine ⟨.identifier (.text (stripSigil name)), by rw [lower]; rfl, .of_parts rfl rfl rfl ?_⟩
    simp [JavaScript.Node.parts, Node.parts, marks_of_binding (.inl rfl)]

theorem isCarried_array {items : List Node} (h : ∀ item ∈ items, IsCarried item)
    (hplain : ∀ item ∈ items, IsPlain item) (hpresent : ∀ item ∈ items, item ≠ .absent) :
    IsCarried (.array items) := by
  obtain ⟨keyed, hkeyed⟩ := exists_hasEntry hplain hpresent
  cases keyed with
  | true =>
      obtain ⟨js, hjs, hmarks⟩ := exists_lowerItems h hplain hpresent 0
      refine ⟨.objectExpression js, ?_, .of_parts rfl rfl rfl hmarks⟩
      rw [lower, hkeyed, hjs]
      rfl
  | false =>
      obtain ⟨js, hjs, hcarries⟩ := exists_lowerEach h
      refine ⟨.arrayExpression js, ?_, .of_parts rfl rfl rfl hcarries.marks⟩
      rw [lower, hkeyed, hjs]
      rfl

theorem marks_expressionStatement (e : Node) : (Node.expressionStatement e).marks = e.marks := by
  rw [Node.marks_of_parts rfl]
  simp [Node.parts]

theorem marks_print (e : Node) : (Node.print e).marks = e.marks := by
  rw [Node.marks_of_parts rfl]
  simp [Node.parts]

/-- A statement of one expression is what the expression becomes as a statement. -/
theorem isCarried_expressionStatement {e : Node} (h : IsCarried e) :
    IsCarried (.expressionStatement e) := by
  obtain ⟨j, hj, hcarries⟩ := h
  refine ⟨asStatement j, by rw [lower, hj]; rfl, ?_, ?_⟩
  · rw [placeholders_asStatement hcarries.bare, hcarries.marks, marks_expressionStatement]
  · unfold asStatement
    split
    · exact hcarries.bare
    · rfl

theorem isCarried_unsupported {kind : String} (detail : String) (h : kind ∉ Core.knownKinds) :
    IsCarried (.unsupported kind detail) := by
  have hnull : kind ≠ "null" := by
    rintro rfl
    exact h (by decide)
  refine ⟨placeholder kind, ?_, ?_, rfl⟩
  · rw [lower, if_neg hnull, Core.lookup_firstParts_eq_none h]
    rfl
  · exact (placeholders_placeholder kind).trans (Node.marks_of_own rfl).symm

/-- Every plain tree is lowered, and its marks are carried over. -/
theorem isCarried_of_isPlain {node : Node} (h : Everywhere IsPlain node) : IsCarried node := by
  induction node using children_induction with
  | step node ih =>
  obtain ⟨hnode, hchildren⟩ := everywhere_iff.mp h
  have hpart : ∀ part ∈ node.parts, IsCarried part :=
    fun part hmem => ih part hmem (hchildren part hmem)
  have hplain : ∀ part ∈ node.parts, IsPlain part :=
    fun part hmem => (everywhere_iff.mp (hchildren part hmem)).1
  have heach (nodes : List Node) (hmem : ∀ n ∈ nodes, n ∈ node.parts) :
      ∃ js, lowerEach nodes = .ok js ∧ CarriesEach nodes js :=
    exists_lowerEach fun n hn => hpart n (hmem n hn)
  clear ih h hchildren
  cases node with
  | stray | unlisted => exact hnode.elim
  | absent | number | boolean | null | name =>
      exact ⟨_, by rw [lower]; rfl, .of_parts rfl rfl rfl rfl⟩
  | string value =>
      obtain ⟨text, rfl, htext⟩ := hnode
      refine ⟨.stringLiteral (.text text), by rw [lower]; rfl, .of_parts rfl rfl ?_ rfl⟩
      rw [markText?, if_neg (by simp [htext])]
  | «variable» name =>
      obtain ⟨text, rfl⟩ := hnode
      exact ⟨.identifier (.text (stripSigil text)), by rw [lower]; rfl, .of_parts rfl rfl rfl rfl⟩
  | program nodes =>
      obtain ⟨js, hjs, hcarries⟩ := heach nodes fun _ hn => hn
      refine ⟨.program (asBody js), by rw [lower, hjs]; rfl, .of_parts rfl rfl rfl ?_⟩
      exact (placeholders_asBody hcarries.bare).trans hcarries.marks
  | echo nodes =>
      obtain ⟨js, hjs, hcarries⟩ := heach nodes fun _ hn => hn
      refine ⟨logCall (joinEcho js), by rw [lower, hjs]; rfl, ?_, rfl⟩
      rw [placeholders_logCall, placeholders_joinEcho, hcarries.marks, Node.marks_of_parts rfl]
      rfl
  | print e =>
      obtain ⟨j, hj, hcarries⟩ := hpart e (by simp [Node.parts])
      refine ⟨logCall j, by rw [lower, hj]; rfl, ?_, rfl⟩
      rw [placeholders_logCall, hcarries.marks, marks_print]
  | expressionStatement e => exact isCarried_expressionStatement (hpart e (by simp [Node.parts]))
  | returnValue e =>
      obtain ⟨j, hj, hcarries⟩ := hpart e (by simp [Node.parts])
      refine ⟨.returnStatement j, by rw [lower, hj]; rfl, .of_parts rfl rfl rfl ?_⟩
      simp [JavaScript.Node.parts, Node.parts, hcarries.marks]
  | parameter name default =>
      obtain ⟨text, rfl⟩ := hnode
      exact isCarried_parameter (hpart default (by simp [Node.parts]))
  | function name parameters body =>
      obtain ⟨ps, hps, hparameters⟩ := heach parameters (by simp +contextual [Node.parts])
      obtain ⟨js, hjs, hbody⟩ := heach body (by simp +contextual [Node.parts])
      refine ⟨.functionDeclaration (.identifier name) ps (.block (asBody js)), ?_,
        .of_parts rfl rfl rfl ?_⟩
      · rw [lower, lowerParameters_eq_lowerEach hnode, hps, hjs]
        rfl
      · simp [JavaScript.Node.parts, Node.parts, placeholders_identifier, hparameters.marks,
          hbody.block]
  | ifElse test body alternate =>
      obtain ⟨t, ht, htest⟩ := hpart test (by simp [Node.parts])
      obtain ⟨js, hjs, hbody⟩ := heach body (by simp +contextual [Node.parts])
      cases alternate with
      | none =>
          refine ⟨.ifStatement t (.block (asBody js)) .absent, ?_, .of_parts rfl rfl rfl ?_⟩
          · rw [lower, ht, hjs]
            rfl
          · simp [JavaScript.Node.parts, Node.parts, htest.marks, hbody.block, placeholders_absent]
      | some alternate =>
          obtain ⟨as, has, halternate⟩ := heach alternate (by simp +contextual [Node.parts])
          refine ⟨.ifStatement t (.block (asBody js)) (.block (asBody as)), ?_,
            .of_parts rfl rfl rfl ?_⟩
          · rw [lower, has, ht, hjs]
            rfl
          · simp [JavaScript.Node.parts, Node.parts, htest.marks, hbody.block, halternate.block]
  | whileLoop test body =>
      obtain ⟨t, ht, htest⟩ := hpart test (by simp [Node.parts])
      obtain ⟨js, hjs, hbody⟩ := heach body (by simp +contextual [Node.parts])
      refine ⟨.whileStatement t (.block (asBody js)), by rw [lower, ht, hjs]; rfl,
        .of_parts rfl rfl rfl ?_⟩
      simp [JavaScript.Node.parts, Node.parts, htest.marks, hbody.block]
  | forLoop start test update body =>
      obtain ⟨ss, hss, hstart⟩ := heach start (by simp +contextual [Node.parts])
      obtain ⟨ts, hts, htest⟩ := heach test (by simp +contextual [Node.parts])
      obtain ⟨us, hus, hupdate⟩ := heach update (by simp +contextual [Node.parts])
      obtain ⟨js, hjs, hbody⟩ := heach body (by simp +contextual [Node.parts])
      refine ⟨.forStatement (asExpression ss) (asExpression ts) (asExpression us)
        (.block (asBody js)), by rw [lower, hss, hts, hus, hjs]; rfl, .of_parts rfl rfl rfl ?_⟩
      simp [JavaScript.Node.parts, Node.parts, hstart.asExpression, htest.asExpression,
        hupdate.asExpression, hbody.block]
  | foreach source key value body =>
      exact isCarried_foreach (hpart source (by simp [Node.parts]))
        (hplain key (by simp [Node.parts])) (hplain value (by simp [Node.parts]))
        (heach body (by simp +contextual [Node.parts]))
  | assign left right operator =>
      obtain ⟨symbol, rfl⟩ := hnode
      obtain ⟨l, hl, hleft⟩ := hpart left (by simp [Node.parts])
      obtain ⟨r, hr, hright⟩ := hpart right (by simp [Node.parts])
      refine ⟨.assignment (.text (mapAssignment symbol)) l r, by rw [lower, hl, hr]; rfl,
        .of_parts rfl rfl rfl ?_⟩
      simp [JavaScript.Node.parts, Node.parts, hleft.marks, hright.marks]
  | entry key value =>
      obtain ⟨k, hk, hkey⟩ := hpart key (by simp [Node.parts])
      obtain ⟨v, hv, hvalue⟩ := hpart value (by simp [Node.parts])
      refine ⟨.objectProperty k v (isComputedKey k), by rw [lower, hk, hv]; rfl,
        .of_parts rfl rfl rfl ?_⟩
      simp [JavaScript.Node.parts, Node.parts, hkey.marks, hvalue.marks]
  | array items => exact isCarried_array hpart hplain hnode
  | call callee arguments =>
      obtain ⟨c, hc, hcallee⟩ := hpart callee (by simp [Node.parts])
      obtain ⟨js, hjs, harguments⟩ := heach arguments (by simp +contextual [Node.parts])
      refine ⟨.call c js, by rw [lower, hc, hjs]; rfl, .of_parts rfl rfl rfl ?_⟩
      simp [JavaScript.Node.parts, Node.parts, hcallee.marks, harguments.marks]
  | methodCall object name arguments =>
      obtain ⟨j, hj, hobject⟩ := hpart object (by simp [Node.parts])
      refine ⟨namedMember j name, by rw [lower, hj]; rfl, .of_parts rfl rfl rfl ?_⟩
      have hnone : arguments.flatMap Node.marks = [] := List.flatMap_eq_nil_iff.mpr hnode
      simp [namedMember, JavaScript.Node.parts, Node.parts, hobject.marks, placeholders_identifier,
        hnone]
  | propertyLookup object property =>
      obtain ⟨j, hj, hobject⟩ := hpart object (by simp [Node.parts])
      refine ⟨namedMember j property, by rw [lower, hj]; rfl, .of_parts rfl rfl rfl ?_⟩
      simp [namedMember, JavaScript.Node.parts, Node.parts, hobject.marks, placeholders_identifier]
  | offsetLookup object offset =>
      obtain ⟨o, ho, hobject⟩ := hpart object (by simp [Node.parts])
      obtain ⟨f, hf, hoffset⟩ := hpart offset (by simp [Node.parts])
      refine ⟨.member o f true, by rw [lower, ho, hf]; rfl, .of_parts rfl rfl rfl ?_⟩
      simp [JavaScript.Node.parts, Node.parts, hobject.marks, hoffset.marks]
  | binary operator left right =>
      obtain ⟨l, hl, hleft⟩ := hpart left (by simp [Node.parts])
      obtain ⟨r, hr, hright⟩ := hpart right (by simp [Node.parts])
      by_cases hlogical : isLogical (operatorText operator) = true
      · refine ⟨.logical (.text (mapLogical (operatorText operator))) l r, ?_,
          .of_parts rfl rfl rfl ?_⟩
        · rw [lower, hl, hr]
          exact if_pos hlogical
        · simp [JavaScript.Node.parts, Node.parts, hleft.marks, hright.marks]
      · refine ⟨.binary (.text (mapBinary (operatorText operator))) l r, ?_,
          .of_parts rfl rfl rfl ?_⟩
        · rw [lower, hl, hr]
          exact if_neg hlogical
        · simp [JavaScript.Node.parts, Node.parts, hleft.marks, hright.marks]
  | unary operator e =>
      obtain ⟨j, hj, hcarries⟩ := hpart e (by simp [Node.parts])
      refine ⟨.unary operator j, by rw [lower, hj]; rfl, .of_parts rfl rfl rfl ?_⟩
      simp [JavaScript.Node.parts, Node.parts, hcarries.marks]
  | stepBefore operator e =>
      obtain ⟨symbol, rfl⟩ := hnode
      obtain ⟨j, hj, hcarries⟩ := hpart e (by simp [Node.parts])
      refine ⟨.update (.text (symbol ++ symbol)) j true, by rw [lower, hj]; rfl,
        .of_parts rfl rfl rfl ?_⟩
      simp [JavaScript.Node.parts, Node.parts, hcarries.marks]
  | stepBehind operator e =>
      obtain ⟨symbol, rfl⟩ := hnode
      obtain ⟨j, hj, hcarries⟩ := hpart e (by simp [Node.parts])
      refine ⟨.update (.text (symbol ++ symbol)) j false, by rw [lower, hj]; rfl,
        .of_parts rfl rfl rfl ?_⟩
      simp [JavaScript.Node.parts, Node.parts, hcarries.marks]
  | ternary test consequent alternate =>
      obtain ⟨t, ht, htest⟩ := hpart test (by simp [Node.parts])
      obtain ⟨c, hc, hconsequent⟩ := hpart consequent (by simp [Node.parts])
      obtain ⟨a, ha, halternate⟩ := hpart alternate (by simp [Node.parts])
      refine ⟨.conditional t c a, by rw [lower, ht, hc, ha]; rfl, .of_parts rfl rfl rfl ?_⟩
      simp [JavaScript.Node.parts, Node.parts, htest.marks, hconsequent.marks, halternate.marks]
  | unsupported kind detail => exact isCarried_unsupported detail hnode

/-- **The placeholders of what a tree is lowered to are the marks of the tree, in the same order;
a tree that is all supported has none.** -/
theorem exists_lower_placeholders {node : Node} (h : Everywhere IsPlain node) :
    ∃ j, lower node = .ok j ∧ placeholders j = node.marks ∧
      (Everywhere IsSupported node → placeholders j = []) := by
  obtain ⟨j, hj, hcarries⟩ := isCarried_of_isPlain h
  refine ⟨j, hj, hcarries.marks, fun hsupported => ?_⟩
  rw [hcarries.marks, Core.marks_of_isSupported hsupported]

/-- An object that is created and a loop that binds a list leave a placeholder each; what is in the
loop leaves none of its own. -/
theorem exists_lower_placeholders_foreach : ∃ j, lower (.program [.echo [.unsupported "new" ""],
      .foreach (.variable (.text "$a")) .absent (.unsupported "list" "") [.unsupported "yield" ""],
      .string (.text "end")]) = .ok j ∧
    placeholders j = ["TODO: Handle new", "TODO: Handle foreach list"] := by
  have hplain : Everywhere IsPlain (.program [.echo [.unsupported "new" ""],
      .foreach (.variable (.text "$a")) .absent (.unsupported "list" "") [.unsupported "yield" ""],
      .string (.text "end")]) := by
    simp only [Everywhere, walk_eq, HasChildren.children, Node.parts, List.flatMap_cons,
      List.flatMap_nil, List.cons_append, List.nil_append, List.append_nil, List.forall_mem_cons]
    simp [IsPlain, Core.knownKinds, Core.coreKinds, Core.extendedKinds, placeholderLead,
      List.isPrefixOf]
  have hnew : (Node.unsupported "new" "").marks = ["TODO: Handle new"] := Node.marks_of_own rfl
  have hloop : (Node.foreach (.variable (.text "$a")) .absent (.unsupported "list" "")
      [.unsupported "yield" ""]).marks = ["TODO: Handle foreach list"] := Node.marks_of_own rfl
  have hecho : (Node.echo [.unsupported "new" ""]).marks = ["TODO: Handle new"] := by
    rw [Node.marks_of_parts rfl]
    simp [Node.parts, hnew]
  have hend : (Node.string (.text "end")).marks = [] := by
    rw [Node.marks_of_parts rfl]
    rfl
  obtain ⟨j, hj, hmarks, -⟩ := exists_lower_placeholders hplain
  refine ⟨j, hj, hmarks.trans ?_⟩
  rw [Node.marks_of_parts rfl]
  simp [Node.parts, hecho, hloop, hend]

end Lowering

end PhpMigration
