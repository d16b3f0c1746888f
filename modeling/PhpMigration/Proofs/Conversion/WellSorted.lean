/-
Every well-sorted program is lowered, and printed unless an integer is too long.

A program is well-sorted if statements, parameters and array items stand where they belong, and if
in addition it is honest: no item of an array is absent, and no unsupported construct has the kind
of a supported one.  Honesty is asked of every node, also of those that lowering never comes to,
so it is more than lowering needs (`isLowerable_of_honest`).

The result is a program whose bodies, at every depth, hold statements only.  The printer would
refuse a statement in the place of an expression, but the only ones that get there are placeholders
and output, which are expressions with a semicolon.  So the result has a text, with one exception:
an integer with too many digits cannot be written, and then there is none.
-/
import Mathlib.Algebra.Group.Int.Defs
import Mathlib.Algebra.Group.Nat.Defs
import PhpMigration.Proofs.Lowering.Bodies

namespace PhpMigration

namespace Core

/-- No item of an array is absent, and no unsupported construct has a supported kind. -/
def IsHonest : Node → Prop
  | .array items => ∀ item ∈ items, item ≠ .absent
  | .unsupported kind _ => kind ∉ knownKinds
  | _ => True

/-- The statements of a well-sorted program. -/
structure IsWellSorted (body : List Node) : Prop where
  /-- Everything stands where it belongs. -/
  sorted : ∀ s ∈ body, IsStatement s
  /-- Nothing claims to be what it is not. -/
  honest : ∀ s ∈ body, Everywhere IsHonest s

theorem eachLowerable_of_forall {nodes : List Node} (h : ∀ n ∈ nodes, n.isLowerable = true) :
    eachLowerable nodes = true := by
  induction nodes with
  | nil => rfl
  | cons node rest ih =>
      obtain ⟨hnode, hrest⟩ := List.forall_mem_cons.mp h
      rw [eachLowerable, hnode, ih hrest]
      rfl

theorem lookup_firstParts_eq_none {kind : String} (h : kind ∉ knownKinds) :
    Lowering.firstParts.lookup kind = none := by
  have hkinds : ∀ entry ∈ Lowering.firstParts, entry.1 ∈ knownKinds := by decide
  refine List.lookup_eq_none_iff.mpr fun entry hentry => ?_
  rw [bne_iff_ne]
  rintro rfl
  exact h (hkinds entry hentry)

/-- What a loop binds has a name if it is no construct with the kind of a variable. -/
theorem hasBoundName_or_isForeignBinding {node : Node} (h : IsHonest node) :
    node.isForeignBinding = true ∨ node.hasBoundName = true := by
  cases node with
  | unsupported kind detail =>
      refine .inl ?_
      have hkind : kind ≠ "variable" := by
        rintro rfl
        exact h (by decide)
      simpa [Node.isForeignBinding, Node.isPresent, Node.kind] using hkind
  | _ => exact .inr rfl

/-- Lowering finds nothing in an honest tree that it could not lower. -/
theorem isLowerable_of_honest {node : Node} (h : Everywhere IsHonest node) :
    node.isLowerable = true := by
  induction node using children_induction with
  | step node ih =>
  obtain ⟨hnode, hchildren⟩ := everywhere_iff.mp h
  have hpart : ∀ part ∈ node.parts, part.isLowerable = true :=
    fun part hmem => ih part hmem (hchildren part hmem)
  have heach (nodes : List Node) (hmem : ∀ n ∈ nodes, n ∈ node.parts) :
      eachLowerable nodes = true := eachLowerable_of_forall fun n hn => hpart n (hmem n hn)
  have hhonest : ∀ part ∈ node.parts, IsHonest part :=
    fun part hmem => (everywhere_iff.mp (hchildren part hmem)).1
  clear ih h hchildren
  cases node with
  | absent | stray | unlisted | «variable» | string | number | boolean | null | name =>
      rw [Node.isLowerable]
  | program nodes | echo nodes => exact heach nodes fun _ hn => hn
  | print e | expressionStatement e | returnValue e | parameter _ e | methodCall e | propertyLookup e
  | unary _ e | stepBefore _ e | stepBehind _ e => exact hpart e (by simp [Node.parts])
  | function _ parameters body =>
      rw [Node.isLowerable, heach _ (by simp +contextual [Node.parts]),
        heach _ (by simp +contextual [Node.parts])]
      rfl
  | ifElse test body alternate =>
      have htest := hpart test (by simp [Node.parts])
      have hbody := heach body (by simp +contextual [Node.parts])
      cases alternate with
      | none =>
          rw [Node.isLowerable, htest, hbody]
          rfl
      | some alternate =>
          rw [Node.isLowerable, htest, hbody, heach _ (by simp +contextual [Node.parts])]
          rfl
  | whileLoop test body | call test body =>
      rw [Node.isLowerable, hpart test (by simp [Node.parts]),
        heach _ (by simp +contextual [Node.parts])]
      rfl
  | forLoop start test update body =>
      rw [Node.isLowerable, heach start (by simp +contextual [Node.parts]),
        heach test (by simp +contextual [Node.parts]),
        heach update (by simp +contextual [Node.parts]),
        heach _ (by simp +contextual [Node.parts])]
      rfl
  | foreach source key value body =>
      rw [Node.isLowerable, hpart source (by simp [Node.parts]),
        heach _ (by simp +contextual [Node.parts])]
      rcases hasBoundName_or_isForeignBinding (hhonest key (by simp [Node.parts])) with hk | hk
      · rw [hk, Bool.true_or, Bool.true_or]
      rcases hasBoundName_or_isForeignBinding (hhonest value (by simp [Node.parts])) with hv | hv
      · rw [hv, Bool.or_true, Bool.true_or]
      · rw [hk, hv]
        exact Bool.or_true _
  | assign left right | binary _ left right | entry left right | offsetLookup left right =>
      rw [Node.isLowerable, hpart left (by simp [Node.parts]), hpart right (by simp [Node.parts])]
      rfl
  | array items =>
      have hpresent : items.all Node.isPresent = true := by
        refine List.all_eq_true.mpr fun item hitem => ?_
        have hne := hnode item hitem
        cases item <;> first | rfl | exact absurd rfl hne
      rw [Node.isLowerable, hpresent, heach items fun _ hn => hn]
      rfl
  | ternary test consequent alternate =>
      rw [Node.isLowerable, hpart test (by simp [Node.parts]),
        hpart consequent (by simp [Node.parts]), hpart alternate (by simp [Node.parts])]
      rfl
  | unsupported kind detail =>
      rw [Node.isLowerable, lookup_firstParts_eq_none hnode]
      rfl

end Core

namespace Lowering

open PhpMigration.Core (Node IsWellSorted IsStatement IsExpression IsHonest)

/-- What a well-sorted program is lowered to, and what is printed for it. -/
theorem prints_of_isWellSorted {body : List Node} (h : IsWellSorted body) :
    ∃ js, lower (.program body) = .ok (.program js) ∧ Everywhere HoldsStatements (.program js) ∧
      JavaScript.Prints (JavaScript.Node.program js).isWritable JavaScript.anything
        (JavaScript.Node.program js).source := by
  have hlowerable := Core.eachLowerable_of_forall fun s hs =>
    Core.isLowerable_of_honest (h.honest s hs)
  have hanswers := answers_lower_program h.sorted
  rw [hlowerable] at hanswers
  obtain ⟨j, hj, hprints⟩ := hanswers.exists_good
  obtain ⟨js, rfl⟩ : ∃ js, j = .program js := by
    rw [lower] at hj
    cases hjs : lowerEach body with
    | error f =>
        rw [hjs] at hj
        cases hj
    | ok js =>
        rw [hjs] at hj
        exact ⟨asBody js, (Except.ok.inj hj).symm⟩
  exact ⟨js, hj, isTidy_of_lower _ _ hj, hprints⟩

/-- **A well-sorted program is lowered to a program whose bodies hold statements only**, and that
program has a text just if its integers are short enough.  Otherwise the printer says that one is
too long. -/
theorem exists_source_of_isWellSorted {body : List Node} (h : IsWellSorted body) :
    ∃ js, lower (.program body) = .ok (.program js) ∧ Everywhere HoldsStatements (.program js) ∧
      if (JavaScript.Node.program js).isWritable then
        ∃ text, (JavaScript.Node.program js).source = .ok text
      else (JavaScript.Node.program js).source = .error .tooManyDigits := by
  obtain ⟨js, hlower, hholds, hprints⟩ := prints_of_isWellSorted h
  refine ⟨js, hlower, hholds, ?_⟩
  cases hw : (JavaScript.Node.program js).isWritable with
  | true =>
      rw [hw] at hprints
      obtain ⟨text, htext, -⟩ := hprints.exists_good
      exact ⟨text, htext⟩
  | false =>
      rw [hw] at hprints
      exact hprints.eq_error

/-- A loop that binds a list, over an array with an unsupported element behind an empty key. -/
def listLoop : List Node :=
  [.foreach (.array [.entry .absent (.unsupported "new" ""), .null]) .absent
    (.unsupported "list" "") [.returnValue .absent]]

theorem isWellSorted_listLoop : IsWellSorted listLoop := by
  refine ⟨?_, ?_⟩
  · rw [listLoop, List.forall_mem_singleton]
    refine .foreach (.array ?_ ?_ ?_) .absent (.unsupported _ _) ?_
    · simpa using .absent
    · simpa using .unsupported _ _
    · simpa using .null
    · simpa using .returnValue .absent
  · simp only [listLoop, Everywhere, walk_eq, HasChildren.children, Node.parts, List.flatMap_cons,
      List.flatMap_nil, List.cons_append, List.nil_append, List.append_nil, List.forall_mem_cons]
    simp [IsHonest, Core.knownKinds, Core.coreKinds, Core.extendedKinds]

/-- Such a loop is a placeholder, which has a text. -/
theorem exists_source_listLoop : IsWellSorted listLoop ∧ ∃ js text,
    lower (.program listLoop) = .ok (.program js) ∧ Everywhere HoldsStatements (.program js) ∧
      (JavaScript.Node.program js).source = .ok text := by
  refine ⟨isWellSorted_listLoop, ?_⟩
  obtain ⟨js, hlower, hholds, hsource⟩ := exists_source_of_isWellSorted isWellSorted_listLoop
  have hplaceholder : lower (.program listLoop) = .ok (.program [placeholder "foreach list"]) := rfl
  obtain rfl := JavaScript.Node.program.inj (Except.ok.inj (hlower.symm.trans hplaceholder))
  rw [if_pos (by rfl)] at hsource
  obtain ⟨text, htext⟩ := hsource
  exact ⟨_, text, hlower, hholds, htext⟩

/-- The output of a number. -/
def output (n : Int) : List Node := [.echo [.number (.number (.int n))]]

theorem isWellSorted_output (n : Int) : IsWellSorted (output n) := by
  refine ⟨?_, ?_⟩
  · rw [output, List.forall_mem_singleton]
    exact .expression (.echo (by simpa using .number _))
  · simp only [output, Everywhere, walk_eq, HasChildren.children, Node.parts, List.flatMap_cons,
      List.flatMap_nil, List.append_nil, List.forall_mem_cons]
    simp [IsHonest]

theorem lower_output (n : Int) : lower (.program (output n)) =
    .ok (.program [logCall (.numericLiteral (.number (.int n)))]) :=
  rfl

theorem isWritable_logCall (n : Int) :
    (JavaScript.Node.program [logCall (.numericLiteral (.number (.int n)))]).isWritable =
      isShort n := by
  show (isShort n && true && true) = isShort n
  rw [Bool.and_true, Bool.and_true]

theorem isShort_iff {n : Int} : isShort n = true ↔ n.natAbs < 10 ^ digitLimit := by
  rw [isShort, decide_eq_true_eq, Nat.length_toDigits_le_iff (by decide) (by decide)]

theorem not_isShort_power : isShort (10 ^ digitLimit) = false := by
  have hbase : (10 : Int).natAbs = 10 := rfl
  rw [Bool.eq_false_iff, Ne, isShort_iff, Int.natAbs_pow, hbase]
  exact Nat.lt_irrefl _

/-- Not every well-sorted program has a text: the output of an integer with one digit too many has
none. -/
theorem not_every_program_has_source : ¬ ∀ body : List Node, IsWellSorted body →
    ∃ js text, lower (.program body) = .ok (.program js) ∧
      (JavaScript.Node.program js).source = .ok text := by
  intro hall
  have hsorted := isWellSorted_output (10 ^ digitLimit)
  obtain ⟨js, text, hlower, htext⟩ := hall _ hsorted
  obtain ⟨js', hlower', -, hprints⟩ := prints_of_isWellSorted hsorted
  obtain rfl := JavaScript.Node.program.inj (Except.ok.inj (hlower.symm.trans hlower'))
  rw [lower_output] at hlower
  obtain rfl := JavaScript.Node.program.inj (Except.ok.inj hlower)
  rw [isWritable_logCall, not_isShort_power, htext] at hprints
  exact Bool.noConfusion hprints.1

end Lowering

end PhpMigration
