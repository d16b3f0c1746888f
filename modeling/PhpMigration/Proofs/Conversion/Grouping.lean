/-
Grouping statements changes nothing.

The statements of a source tree may stand in blocks, to any depth, with blank text between them, and
a body may be a block, a list or its only statement.  `Regroups` says that one list of statements
arises from another by more of that, at the top or in the body of any function, loop or branch.

`ungroup` takes all of it away again.  Two lists of which the one arises from the other are the same
without their grouping (`Regroups.ungroup_eq`), and a list has the core program that it has without
it (`statementsToCore_ungroup`): a counterpart for every statement that is left, in their order.
-/
import Mathlib.Data.List.Forall2
import PhpMigration.Proofs.Conversion.Convertible
import PhpMigration.Proofs.Lowering.Bodies

namespace PhpMigration.Php

/-! ### Lists of statements with more grouping -/

mutual

/-- The second list of statements arises from the first: runs of statements are put into blocks, of
which some may be empty, and blank text is put between them, also in the bodies of the
statements. -/
inductive Regroups : List Node → List Node → Prop
  | nil : Regroups [] []
  | cons {s s' : Node} {ss ss' : List Node} (hs : RegroupsWithin s s') (h : Regroups ss ss') :
      Regroups (s :: ss) (s' :: ss')
  | wrap {run run' ss ss' : List Node} (hrun : Regroups run run') (h : Regroups ss ss') :
      Regroups (run ++ ss) (.block run' :: ss')
  | blank (data : String) {ss ss' : List Node} (hdata : Text.isBlankText data = true)
      (h : Regroups ss ss') : Regroups ss (.inlineHtml (.text data) :: ss')

/-- The second statement is the first with other grouping in its bodies. -/
inductive RegroupsWithin : Node → Node → Prop
  | same (s : Node) : RegroupsWithin s s
  | block {ss ss' : List Node} (h : Regroups ss ss') : RegroupsWithin (.block ss) (.block ss')
  | function (name : Node) (parameters : List Node) {body body' : Node}
      (h : Regroups body.statements body'.statements) :
      RegroupsWithin (.function name parameters body) (.function name parameters body')
  | ifElse (test : Node) {body body' otherwise otherwise' : Node} {elseIfs elseIfs' : List Node}
      (h : Regroups body.statements body'.statements) (hs : RegroupsEach elseIfs elseIfs')
      (ho : RegroupsWithin otherwise otherwise') :
      RegroupsWithin (.ifElse test body elseIfs otherwise) (.ifElse test body' elseIfs' otherwise')
  | elseIf (test : Node) {body body' : Node} (h : Regroups body.statements body'.statements) :
      RegroupsWithin (.elseIf test body) (.elseIf test body')
  | elseBranch {body body' : Node} (h : Regroups body.statements body'.statements) :
      RegroupsWithin (.elseBranch body) (.elseBranch body')
  | whileLoop (test : Node) {body body' : Node} (h : Regroups body.statements body'.statements) :
      RegroupsWithin (.whileLoop test body) (.whileLoop test body')
  | forLoop (start test update : List Node) {body body' : Node}
      (h : Regroups body.statements body'.statements) :
      RegroupsWithin (.forLoop start test update body) (.forLoop start test update body')
  | foreach (source key value : Node) {body body' : Node}
      (h : Regroups body.statements body'.statements) :
      RegroupsWithin (.foreach source key value body) (.foreach source key value body')
  | enclosing (name : String) {body body' : Node}
      (h : Regroups body.statements body'.statements) :
      RegroupsWithin (.enclosing name body) (.enclosing name body')
  | guarded (name : String) (test : Node) {body body' : Node}
      (h : Regroups body.statements body'.statements) :
      RegroupsWithin (.guarded name test body) (.guarded name test body')

/-- The same for the branches of a choice. -/
inductive RegroupsEach : List Node → List Node → Prop
  | nil : RegroupsEach [] []
  | cons {s s' : Node} {ss ss' : List Node} (hs : RegroupsWithin s s') (h : RegroupsEach ss ss') :
      RegroupsEach (s :: ss) (s' :: ss')

end

/-! ### Statements without grouping -/

/-- Text outside the tags that is blank. -/
def Node.isBlankHtml : Node → Bool
  | .inlineHtml (.text data) => Text.isBlankText data
  | _ => false

/-- The statements that a statement stands for: a block for those in it, and blank text for none. -/
def Node.spread : Node → List Node
  | .absent => []
  | .block nodes => nodes
  | node => if node.isBlankHtml then [] else [node]

mutual

/-- The statement with bodies that are lists without grouping. -/
def Node.plain : Node → Node
  | .block nodes => .block (ungroup nodes)
  | .function name parameters body => .function name parameters (.list body.ungrouped)
  | .ifElse test body elseIfs otherwise =>
    .ifElse test (.list body.ungrouped) (plainEach elseIfs) otherwise.plain
  | .elseIf test body => .elseIf test (.list body.ungrouped)
  | .elseBranch body => .elseBranch (.list body.ungrouped)
  | .whileLoop test body => .whileLoop test (.list body.ungrouped)
  | .forLoop start test update body => .forLoop start test update (.list body.ungrouped)
  | .foreach source key value body => .foreach source key value (.list body.ungrouped)
  | .enclosing name body => .enclosing name (.list body.ungrouped)
  | .guarded name test body => .guarded name test (.list body.ungrouped)
  | node => node
  termination_by node => (sizeOf node, 0)
  decreasing_by all_goals (simp_wf; omega)

/-- The statements of a body without their grouping. -/
def Node.ungrouped : Node → List Node
  | .list nodes => ungroup nodes
  | node => node.plain.spread
  termination_by node => (sizeOf node, 1)
  decreasing_by all_goals (simp_wf; omega)

/-- Statements without their grouping, in their order. -/
def ungroup : List Node → List Node
  | [] => []
  | s :: rest => s.plain.spread ++ ungroup rest
  termination_by nodes => (sizeOf nodes, 0)
  decreasing_by all_goals (simp_wf; omega)

/-- The branches of a choice with bodies that are lists without grouping. -/
def plainEach : List Node → List Node
  | [] => []
  | branch :: rest => branch.plain :: plainEach rest
  termination_by nodes => (sizeOf nodes, 0)
  decreasing_by all_goals (simp_wf; omega)

end

theorem ungroup_append (ss ss' : List Node) : ungroup (ss ++ ss') = ungroup ss ++ ungroup ss' := by
  induction ss with
  | nil => rw [ungroup]; rfl
  | cons s rest ih => rw [List.cons_append, ungroup, ungroup, ih, List.append_assoc]

/-- The construct encloses statements. -/
def Node.hasBody : Node → Bool
  | .block _ | .function .. | .ifElse .. | .elseIf .. | .elseBranch _ | .whileLoop ..
  | .forLoop .. | .foreach .. | .enclosing .. | .guarded .. => true
  | _ => false

theorem plain_of_hasBody_eq_false {node : Node} (h : node.hasBody = false) : node.plain = node := by
  unfold Node.plain
  split <;> first | rfl | exact nomatch h

theorem ungrouped_eq (body : Node) : body.ungrouped = ungroup body.statements := by
  have hsingle : ∀ s : Node, ungroup [s] = s.plain.spread := by
    intro s
    rw [ungroup, ungroup, List.append_nil]
  cases body with
  | absent => rw [Node.ungrouped, Node.statements, ungroup, plain_of_hasBody_eq_false rfl, Node.spread]; simp
  | block nodes => rw [Node.ungrouped, Node.statements, Node.plain, Node.spread]; simp
  | list nodes => rw [Node.ungrouped, Node.statements]
  | _ => rw [Node.ungrouped, Node.statements, hsingle] <;> simp

/-! ### What is the same without its grouping -/

mutual

/-- **Lists that differ in their grouping are the same without it.** -/
theorem Regroups.ungroup_eq {ss ss' : List Node} : Regroups ss ss' → ungroup ss' = ungroup ss
  | .nil => rfl
  | .cons hs h => by
      rw [ungroup, ungroup, h.ungroup_eq, hs.plain_eq]
  | .wrap hrun h => by
      rw [ungroup_append, ungroup, Node.plain, Node.spread, hrun.ungroup_eq, h.ungroup_eq]
  | .blank data hdata h => by
      have hblank : (Node.inlineHtml (.text data)).spread = [] := if_pos hdata
      rw [ungroup, plain_of_hasBody_eq_false rfl, hblank, h.ungroup_eq, List.nil_append]

theorem RegroupsWithin.plain_eq {s s' : Node} : RegroupsWithin s s' → s'.plain = s.plain
  | .same s => rfl
  | .block h => by rw [Node.plain, Node.plain, h.ungroup_eq]
  | .function name parameters h | .whileLoop test h | .elseIf test h | .elseBranch h
  | .forLoop start test update h | .foreach source key value h | .enclosing name h
  | .guarded name test h => by
      rw [Node.plain, Node.plain, ungrouped_eq, ungrouped_eq, h.ungroup_eq]
  | .ifElse test h hs ho => by
      rw [Node.plain, Node.plain, ungrouped_eq, ungrouped_eq, h.ungroup_eq, hs.plainEach_eq,
        ho.plain_eq]

theorem RegroupsEach.plainEach_eq {ss ss' : List Node} : RegroupsEach ss ss' →
    plainEach ss' = plainEach ss
  | .nil => rfl
  | .cons hs h => by rw [plainEach, plainEach, hs.plain_eq, h.plainEach_eq]

end

/-! ### What is left -/

/-- There is no grouping to be taken from the statement. -/
structure Node.IsPlain (s : Node) : Prop where
  spread : s.spread = [s]
  plain : s.plain = s

theorem ungroup_of_isPlain {ss : List Node} (h : ∀ s ∈ ss, s.IsPlain) : ungroup ss = ss := by
  induction ss with
  | nil => rw [ungroup]
  | cons s rest ih =>
      have hs := h s (List.mem_cons_self ..)
      rw [ungroup, hs.plain, hs.spread, ih fun t ht => h t (List.mem_cons_of_mem _ ht)]
      rfl

theorem spread_eq_or {node : Node} (hblock : ∀ nodes, node ≠ .block nodes) :
    node.spread = [] ∨ node.spread = [node] := by
  unfold Node.spread
  split
  · exact .inl rfl
  · exact absurd rfl (hblock _)
  · split
    · exact .inl rfl
    · exact .inr rfl

theorem plain_ne_block {node : Node} (h : ∀ nodes, node ≠ .block nodes) (nodes : List Node) :
    node.plain ≠ .block nodes := by
  by_cases hbody : node.hasBody = true
  · cases node with
    | block nodes => exact absurd rfl (h nodes)
    | function name parameters body | ifElse test body elseIfs otherwise | elseIf test body
    | elseBranch body | whileLoop test body | forLoop start test update body
    | «foreach» source key value body | enclosing name body | guarded name test body =>
        rw [Node.plain]
        nofun
    | _ => cases hbody
  · rw [plain_of_hasBody_eq_false (Bool.eq_false_iff.mpr hbody)]
    exact h nodes

theorem isPlain_of_plain_plain {node : Node} (hblock : ∀ nodes, node ≠ .block nodes)
    (hplain : node.plain.plain = node.plain) : ∀ s ∈ node.plain.spread, s.IsPlain := by
  rcases spread_eq_or (plain_ne_block hblock) with hnone | hself
  · rw [hnone]
    exact fun s hs => by cases hs
  · rw [hself]
    intro s hs
    cases List.mem_singleton.mp hs
    exact ⟨hself, hplain⟩

mutual

theorem plain_plain (node : Node) : node.plain.plain = node.plain := by
  cases node with
  | block nodes =>
      rw [Node.plain, Node.plain, ungroup_of_isPlain (isPlain_of_mem_ungroup nodes)]
  | function name parameters body | elseIf test body | elseBranch body | whileLoop test body
  | forLoop start test update body | «foreach» source key value body | enclosing name body
  | guarded name test body =>
      rw [Node.plain, Node.plain, Node.ungrouped,
        ungroup_of_isPlain (isPlain_of_mem_ungrouped body)]
  | ifElse test body elseIfs otherwise =>
      rw [Node.plain, Node.plain, Node.ungrouped,
        ungroup_of_isPlain (isPlain_of_mem_ungrouped body), plainEach_plainEach, plain_plain]
  | _ => exact congrArg Node.plain (plain_of_hasBody_eq_false rfl)
  termination_by (sizeOf node, 0)
  decreasing_by all_goals (simp_wf; omega)

theorem isPlain_of_mem_spread (node : Node) : ∀ s ∈ node.plain.spread, s.IsPlain := by
  cases node with
  | block nodes => rw [Node.plain, Node.spread]; exact isPlain_of_mem_ungroup nodes
  | _ => exact isPlain_of_plain_plain nofun (plain_plain _)
  termination_by (sizeOf node, 1)
  decreasing_by all_goals (simp_wf; try omega)

theorem isPlain_of_mem_ungroup (nodes : List Node) : ∀ s ∈ ungroup nodes, s.IsPlain := by
  cases nodes with
  | nil => rw [ungroup]; exact fun s hs => by cases hs
  | cons node rest =>
      intro s hs
      rw [ungroup] at hs
      rcases List.mem_append.mp hs with hs | hs
      · exact isPlain_of_mem_spread node s hs
      · exact isPlain_of_mem_ungroup rest s hs
  termination_by (sizeOf nodes, 0)
  decreasing_by all_goals (simp_wf; omega)

theorem isPlain_of_mem_ungrouped (body : Node) : ∀ s ∈ body.ungrouped, s.IsPlain := by
  cases body with
  | list nodes => rw [Node.ungrouped]; exact isPlain_of_mem_ungroup nodes
  | _ =>
      rw [Node.ungrouped]
      · exact isPlain_of_mem_spread _
      · simp
  termination_by (sizeOf body, 2)
  decreasing_by all_goals (simp_wf; try omega)

theorem plainEach_plainEach (branches : List Node) :
    plainEach (plainEach branches) = plainEach branches := by
  cases branches with
  | nil => rw [plainEach, plainEach]
  | cons branch rest =>
      rw [plainEach, plainEach, plain_plain branch, plainEach_plainEach rest]
  termination_by (sizeOf branches, 0)
  decreasing_by all_goals (simp_wf; omega)

end

/-! ### The program of statements without their grouping -/

theorem statementsToCore_append (ss ss' : List Node) :
    statementsToCore (ss ++ ss') = (do
      let first ← statementsToCore ss
      let rest ← statementsToCore ss'
      pure (first ++ rest)) := by
  induction ss with
  | nil => simp [statementsToCore_nil]
  | cons s rest ih =>
      rw [List.cons_append, statementsToCore_cons, ih, statementsToCore_cons s rest]
      simp only [bind_assoc, pure_bind, List.append_assoc]

theorem chainToCore_of_no_branch {node : Node} (hne : node ≠ .unlisted)
    (h : node.branch? = none) (alternate : Option (List Core.Node)) (rest : List Node) :
    chainToCore alternate (node :: rest) = (do
      let _ ← chainToCore alternate rest
      throw .missingPart) := by
  rw [chainToCore]
  · refine bind_congr fun alternate => ?_
    split
    · rfl
    · rename_i hsome
      cases h.symm.trans hsome
  · exact hne

theorem chainToCore_congr {alternate : Option (List Core.Node)} {rest rest' : List Node}
    (node : Node) (h : chainToCore alternate rest = chainToCore alternate rest') :
    chainToCore alternate (node :: rest) = chainToCore alternate (node :: rest') := by
  by_cases hne : node = .unlisted
  · rw [hne, chainToCore, chainToCore]
  · rw [chainToCore, chainToCore, h] <;> exact hne

/-- A statement that stands for itself: it is there, and it is neither a block nor text outside the
tags. -/
def Node.isOrdinary : Node → Bool
  | .absent | .block _ | .inlineHtml _ => false
  | _ => true

theorem isOrdinary_plain (node : Node) : node.plain.isOrdinary = node.isOrdinary := by
  by_cases hbody : node.hasBody = true
  · cases node with
    | block nodes | function name parameters body | ifElse test body elseIfs otherwise
    | elseIf test body | elseBranch body | whileLoop test body | forLoop start test update body
    | «foreach» source key value body | enclosing name body | guarded name test body =>
        rw [Node.plain]
        rfl
    | _ => cases hbody
  · rw [plain_of_hasBody_eq_false (Bool.eq_false_iff.mpr hbody)]

theorem statementsToCore_of_isOrdinary {s : Node} (h : s.isOrdinary = true) :
    s.spread = [s] ∧ statementsToCore [s] = (do
      let only ← s.toCore
      pure (if only.isPresent then [only] else [])) := by
  have hblock : ∀ nodes, s ≠ .block nodes := by rintro nodes rfl; cases h
  have hhtml : ∀ data, s ≠ .inlineHtml data := by rintro nodes rfl; cases h
  constructor
  · cases s <;> first | rfl | cases h
  · rw [statementsToCore_plain [] hblock hhtml, statementsToCore_nil]
    simp

theorem alternateToCore_of_no_inner {node : Node} (hne : node ≠ .absent)
    (h : node.inner? = none) : node.alternateToCore = throw .missingPart := by
  rw [Node.alternateToCore]
  · split
    · rfl
    · rename_i hsome
      cases h.symm.trans hsome
  · exact hne

mutual

theorem toCore_plain (node : Node) : node.plain.toCore = node.toCore := by
  cases node with
  | block nodes => rw [Node.plain, Node.toCore, Node.toCore]
  | function name parameters body =>
      rw [Node.plain, Node.toCore, Node.toCore, bodyToCore_ungrouped]
  | ifElse test body elseIfs otherwise =>
      have hchain := fun alternate => chainToCore_plainEach alternate elseIfs
      rw [Node.plain, Node.toCore, Node.toCore, bodyToCore_ungrouped, alternateToCore_plain]
      simp only [hchain]
  | elseIf test body => rw [Node.plain, Node.toCore, Node.toCore]
  | elseBranch body => rw [Node.plain, Node.toCore, Node.toCore]
  | whileLoop test body => rw [Node.plain, Node.toCore, Node.toCore, bodyToCore_ungrouped]
  | forLoop start test update body =>
      rw [Node.plain, Node.toCore, Node.toCore, bodyToCore_ungrouped]
  | foreach source key value body =>
      rw [Node.plain, Node.toCore, Node.toCore, bodyToCore_ungrouped]
  | enclosing name body => rw [Node.plain, Node.toCore, Node.toCore]
  | guarded name test body => rw [Node.plain, Node.toCore, Node.toCore]
  | _ => rw [plain_of_hasBody_eq_false rfl]
  termination_by (sizeOf node, 0)
  decreasing_by all_goals (simp_wf; omega)

theorem statementsToCore_spread (node : Node) :
    statementsToCore node.plain.spread = statementsToCore [node] := by
  by_cases hordinary : node.isOrdinary = true
  · obtain ⟨hspread, hcore⟩ :=
      statementsToCore_of_isOrdinary ((isOrdinary_plain node).trans hordinary)
    rw [hspread, hcore, toCore_plain node, (statementsToCore_of_isOrdinary hordinary).2]
  cases node with
  | absent =>
      rw [plain_of_hasBody_eq_false rfl, Node.spread, statementsToCore_plain, Node.toCore, statementsToCore_nil] <;>
        simp [Core.Node.isPresent]
  | block nodes =>
      rw [Node.plain, Node.spread, statementsToCore_ungroup nodes, statementsToCore,
        statementsToCore_nil]
      simp
  | inlineHtml data =>
      rw [plain_of_hasBody_eq_false rfl, Node.spread]
      · split
        · rename_i hblank
          cases data with
          | text text =>
              have hblank : Text.isBlankText text = true := hblank
              rw [statementsToCore, statementsToCore]
              simp [hblank, statementsToCore_nil]
          | _ => cases hblank
        · rfl
      · simp
      · simp
  | _ => exact absurd rfl hordinary
  termination_by (sizeOf node, 1)
  decreasing_by all_goals (simp_wf; omega)

theorem bodyToCore_ungrouped (body : Node) :
    (Node.list body.ungrouped).bodyToCore = body.bodyToCore := by
  rw [bodyToCore_eq body, Node.bodyToCore]
  cases body with
  | list nodes =>
    rw [Node.ungrouped, Node.statements, statementsToCore_ungroup nodes]
  | block nodes =>
    rw [Node.ungrouped, Node.plain, Node.spread, Node.statements, statementsToCore_ungroup nodes]
    simp
  | absent => rw [Node.ungrouped, plain_of_hasBody_eq_false rfl, Node.spread, Node.statements]; simp
  | _ => rw [Node.ungrouped, statementsToCore_spread, Node.statements] <;> simp
  termination_by (sizeOf body, 2)
  decreasing_by all_goals (simp_wf; try omega)

theorem statementsToCore_ungroup (nodes : List Node) :
    statementsToCore (ungroup nodes) = statementsToCore nodes := by
  cases nodes with
  | nil => rw [ungroup]
  | cons s rest =>
      rw [ungroup, statementsToCore_append, statementsToCore_spread s,
        statementsToCore_ungroup rest, statementsToCore_cons s rest]
  termination_by (sizeOf nodes, 0)
  decreasing_by all_goals (simp_wf; omega)

theorem chainToCore_plainEach (alternate : Option (List Core.Node)) (branches : List Node) :
    chainToCore alternate (plainEach branches) = chainToCore alternate branches := by
  cases branches with
  | nil => rw [plainEach]
  | cons branch rest =>
      have hrest := chainToCore_plainEach alternate rest
      rw [plainEach]
      cases branch with
      | elseIf test body | ifElse test body elseIfs otherwise | whileLoop test body
      | «foreach» test key value body | guarded name test body =>
          rw [Node.plain, chainToCore_of_branch? rfl, chainToCore_of_branch? rfl, hrest,
            bodyToCore_ungrouped body]
      | block nodes | function name parameters body | elseBranch body
      | forLoop start test update body | enclosing name body =>
          rw [Node.plain, chainToCore_of_no_branch, chainToCore_of_no_branch, hrest] <;>
            first | rfl | simp
      | _ => rw [plain_of_hasBody_eq_false rfl, chainToCore_congr _ hrest]
  termination_by (sizeOf branches, 0)
  decreasing_by all_goals (simp_wf; try omega)

theorem alternateToCore_plain (node : Node) :
    node.plain.alternateToCore = node.alternateToCore := by
  cases node with
  | elseBranch body | elseIf test body | ifElse test body elseIfs otherwise | whileLoop test body
  | forLoop start test update body | «foreach» test key value body
  | enclosing name body | guarded name test body =>
      rw [Node.plain, alternateToCore_of_inner? rfl, alternateToCore_of_inner? rfl,
        bodyToCore_ungrouped body]
  | block nodes | function name parameters body =>
      rw [Node.plain, alternateToCore_of_no_inner, alternateToCore_of_no_inner] <;>
        first | rfl | simp
  | _ => rw [plain_of_hasBody_eq_false rfl]
  termination_by (sizeOf node, 0)
  decreasing_by all_goals (simp_wf; try omega)

end

/-! ### Counterparts -/

/-- What is there comes to a construct, which is an element with a key only if it has that name. -/
theorem isConstruct_of_toCore {s : Node} {c : Core.Node} (hs : s ≠ .absent) (h : s.toCore = .ok c) :
    Lowering.isConstruct c = true ∧ (c.kind = "entry" → Text.lower s.name = "entry") := by
  suffices hyields : Lowering.Yields (fun c : Core.Node =>
    Lowering.isConstruct c = true ∧ (c.kind = "entry" → Text.lower s.name = "entry")) s.toCore from hyields c h
  have hconstant : ∀ name, Lowering.isConstruct (constantToCore name) = true ∧
      (constantToCore name).kind ≠ "entry" := by
    intro name
    unfold constantToCore
    dsimp only
    split
    · exact ⟨rfl, by simp [Core.Node.kind]⟩
    · split
      · exact ⟨rfl, by simp [Core.Node.kind]⟩
      · split <;> exact ⟨rfl, by simp [Core.Node.kind]⟩
  have hunsupported : ∀ kind detail, Lowering.isConstruct (.unsupported kind detail) = true ∧
      (kind = "entry" → kind = "entry") := fun _ _ => ⟨rfl, id⟩
  unfold Node.toCore
  split
  · exact absurd rfl hs
  all_goals
    repeat refine .bind_any fun _ => ?_
    first
    | exact .error _
    | (refine .ok ⟨rfl, fun hkind => absurd hkind ?_⟩
       simp only [Core.Node.kind, String.reduceEq, not_false_eq_true]
       done)
    | exact .ok (hunsupported _ _)
    | exact .ok ⟨(hconstant _).1, fun hkind => absurd hkind (hconstant _).2⟩

/-- A statement without grouping is converted to its counterpart alone. -/
theorem statementsToCore_of_isPlain {s : Node} (h : s.IsPlain) (cs : List Core.Node) :
    statementsToCore [s] = .ok cs ↔ ∃ c, s.toCore = .ok c ∧ cs = [c] := by
  by_cases hordinary : s.isOrdinary = true
  · have hpresent : ∀ c, s.toCore = .ok c → c.isPresent = true := by
      intro c hc
      have hconstruct := (isConstruct_of_toCore (by rintro rfl; cases hordinary) hc).1
      cases c <;> first | rfl | cases hconstruct
    rw [(statementsToCore_of_isOrdinary hordinary).2, bind_eq_ok_iff]
    refine exists_congr fun c => and_congr_right fun hcore => ?_
    rw [if_pos (hpresent c hcore), pure_eq_ok_iff]
  have hspread := h.spread
  cases s with
  | absent => cases hspread
  | block nodes =>
      have hsize := congrArg sizeOf (show nodes = [.block nodes] from hspread)
      simp at hsize
      omega
  | inlineHtml data =>
      have hblank : (Node.inlineHtml data).isBlankHtml = false := by
        by_contra hblank
        have hnone : (Node.inlineHtml data).spread = [] := if_pos (by simpa using hblank)
        cases hnone.symm.trans hspread
      by_cases htext : ∃ text, data = .text text
      · obtain ⟨text, rfl⟩ := htext
        have hblank : Text.isBlankText text = false := hblank
        rw [statementsToCore, statementsToCore_nil, Node.toCore]
        simp [hblank, pure_eq_ok_iff]
      · rw [statementsToCore, Node.toCore]
        · simp [throw, throwThe, MonadExceptOf.throw]
        · exact fun text heq => htext ⟨text, heq⟩
        · exact fun text heq => htext ⟨text, heq⟩
  | _ => exact absurd rfl hordinary

/-- **Statements are converted one by one**, in their order, when their grouping is gone. -/
theorem statementsToCore_eq_ok_iff (ss : List Node) (cs : List Core.Node) :
    statementsToCore ss = .ok cs ↔
      List.Forall₂ (fun s c => s.toCore = .ok c) (ungroup ss) cs := by
  rw [← statementsToCore_ungroup]
  have hplain := isPlain_of_mem_ungroup ss
  generalize ungroup ss = plain at hplain ⊢
  induction plain generalizing cs with
  | nil =>
      rw [statementsToCore_nil, List.forall₂_nil_left_iff, pure_eq_ok_iff]
  | cons s rest ih =>
      have hrest := fun cs => ih cs fun t ht => hplain t (List.mem_cons_of_mem _ ht)
      have hs := statementsToCore_of_isPlain (hplain s (List.mem_cons_self ..))
      rw [statementsToCore_cons, List.forall₂_cons_left_iff]
      simp only [bind_eq_ok_iff, pure_eq_ok_iff, hrest, hs]
      constructor
      · rintro ⟨first, ⟨c, hc, rfl⟩, more, hmore, rfl⟩
        exact ⟨c, more, hc, hmore, rfl⟩
      · rintro ⟨c, more, hc, hmore, rfl⟩
        exact ⟨[c], ⟨c, hc, rfl⟩, more, hmore, rfl⟩

/-- **Grouping is invisible.**  However the statements of a program are grouped, they make the same
program, and it fails alike.  Without their grouping they are the same statements, none of which has
any grouping left in it, and the program consists of their counterparts in their order. -/
theorem Regroups.programToCore_eq {ss ss' : List Node} (h : Regroups ss ss') :
    programToCore ss' = programToCore ss ∧ ungroup ss' = ungroup ss ∧
      (∀ s ∈ ungroup ss, s.IsPlain) ∧
      ∀ program, programToCore ss = .ok program ↔ ∃ cs,
        List.Forall₂ (fun s c => s.toCore = .ok c) (ungroup ss) cs ∧ program = .program cs := by
  refine ⟨?_, h.ungroup_eq, isPlain_of_mem_ungroup ss, fun program => ?_⟩
  · unfold programToCore
    rw [← statementsToCore_ungroup, h.ungroup_eq, statementsToCore_ungroup]
  · unfold programToCore
    simp only [bind_eq_ok_iff, pure_eq_ok_iff, statementsToCore_eq_ok_iff]

/-- Statements in and between blocks, and blank text, at the top and in the body of a loop. -/
theorem programToCore_eq_grouped :
    Regroups [.echo [.text "a"], .whileLoop (.variable (.text "$b")) (.echo [.text "c"])]
      [.block [.block [], .echo [.text "a"]], .inlineHtml (.text " \n"),
        .whileLoop (.variable (.text "$b"))
          (.block [.inlineHtml (.text " "), .block [.echo [.text "c"]]])] ∧
    programToCore [.block [.block [], .echo [.text "a"]], .inlineHtml (.text " \n"),
        .whileLoop (.variable (.text "$b"))
          (.block [.inlineHtml (.text " "), .block [.echo [.text "c"]]])] =
      programToCore [.echo [.text "a"], .whileLoop (.variable (.text "$b")) (.echo [.text "c"])] := by
  have hfirst : Regroups [.echo [.text "a"]] [.block [], .echo [.text "a"]] :=
    .wrap .nil (.cons (.same _) .nil)
  have hbody : Regroups [.echo [.text "c"]]
      [.inlineHtml (.text " "), .block [.echo [.text "c"]]] :=
    .blank " " (by decide) (.wrap (.cons (.same _) .nil) .nil)
  have h : Regroups [.echo [.text "a"], .whileLoop (.variable (.text "$b")) (.echo [.text "c"])]
      [.block [.block [], .echo [.text "a"]], .inlineHtml (.text " \n"),
        .whileLoop (.variable (.text "$b"))
          (.block [.inlineHtml (.text " "), .block [.echo [.text "c"]]])] :=
    .wrap hfirst (.blank " \n" (by decide) (.cons (.whileLoop _ hbody) .nil))
  exact ⟨h, h.programToCore_eq.1⟩

end PhpMigration.Php
