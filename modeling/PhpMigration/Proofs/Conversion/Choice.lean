/-
A chain of conditions takes the first branch whose condition holds.

A choice with any number of further conditions is converted to if statements of which each stands
alone in the last branch of the one before it.  They are built from the back, so what is said of
them is said of any last branch first (`isAlternate_chain`).

A walk through them tests the conditions in the order of the source, stops at the first that holds
and selects its branch; if none holds, it selects the last branch if there is one
(`Choice.takesFirstMatch`).
-/
import Mathlib.Data.List.Forall2
import PhpMigration.Lowering.Basic
import PhpMigration.Proofs.Conversion.Convertible

namespace PhpMigration

namespace JavaScript

/-- What a walk through nested if statements comes to: the conditions that are tested, in their
order, and the statements that are selected, if there are any to select. -/
structure Selection where
  tested : List Node
  selected : Option (List Node)

/-- The walk through if statements whose conditions turn out as told, one after another.  Where a
condition does not hold and there is another to be tested, it is that of the only statement in the
last branch. -/
def walk : List Bool → Node → Option Selection
  | true :: _, .ifStatement test (.block body) _ => some ⟨[test], some body⟩
  | [false], .ifStatement test _ .absent => some ⟨[test], none⟩
  | [false], .ifStatement test _ (.block last) => some ⟨[test], some last⟩
  | false :: answer :: answers, .ifStatement test _ (.block [inner]) =>
    (walk (answer :: answers) inner).map fun s => ⟨test :: s.tested, s.selected⟩
  | _, _ => none

/-- The conditions and the branches of so many nested if statements, and the last branch. -/
def unnest : Nat → Node → Option (List (Node × List Node) × Option (List Node))
  | 1, .ifStatement test (.block body) .absent => some ([(test, body)], none)
  | 1, .ifStatement test (.block body) (.block last) => some ([(test, body)], some last)
  | n + 2, .ifStatement test (.block body) (.block [inner]) =>
    (unnest (n + 1) inner).map fun rest => ((test, body) :: rest.1, rest.2)
  | _, _ => none

/-- The last branch of an if statement, which may be missing. -/
def lastBranch : Option (List Node) → Node
  | none => .absent
  | some body => .block body

/-- If statements in the last branch of one another. -/
def nest (branches : List (Node × List Node)) (last : Node) : Node :=
  branches.foldr (fun branch alternate => .block [.ifStatement branch.1 (.block branch.2) alternate])
    last

/-- **A walk stops at the first condition that holds.** -/
theorem walk_nest (test : Node) (body : List Node) (rest : List (Node × List Node))
    (otherwise : Option (List Node)) (answers : List Bool)
    (hlength : answers.length = rest.length + 1) :
    walk answers (.ifStatement test (.block body) (nest rest (lastBranch otherwise))) =
      some ⟨(test :: rest.map Prod.fst).take (answers.idxOf true + 1),
        ((((test, body) :: rest)[answers.idxOf true]?).map Prod.snd).or otherwise⟩ := by
  induction rest generalizing test body answers with
  | nil =>
      obtain ⟨answer, rfl⟩ := List.length_eq_one_iff.mp hlength
      cases answer with
      | true => simp [walk]
      | false => cases otherwise <;> simp [walk, nest, lastBranch]
  | cons branch rest ih =>
      obtain ⟨answer, answers, rfl⟩ := List.exists_cons_of_length_eq_add_one hlength
      cases answer with
      | true => simp [walk]
      | false =>
          have hrest := ih branch.1 branch.2 answers (Nat.succ.inj hlength)
          obtain ⟨next, answers, rfl⟩ := List.exists_cons_of_length_eq_add_one (Nat.succ.inj hlength)
          have hidx : (false :: next :: answers).idxOf true = (next :: answers).idxOf true + 1 :=
            List.idxOf_cons_ne _ (by decide)
          show (walk (next :: answers) (.ifStatement branch.1 (.block branch.2)
            (nest rest (lastBranch otherwise)))).map _ = _
          rw [hrest, hidx]
          simp

theorem unnest_nest (test : Node) (body : List Node) (rest : List (Node × List Node))
    (otherwise : Option (List Node)) :
    unnest (rest.length + 1)
        (.ifStatement test (.block body) (nest rest (lastBranch otherwise))) =
      some ((test, body) :: rest, otherwise) := by
  induction rest generalizing test body with
  | nil => cases otherwise <;> rfl
  | cons branch rest ih =>
      show (unnest (rest.length + 1) (.ifStatement branch.1 (.block branch.2)
        (nest rest (lastBranch otherwise)))).map _ = _
      rw [ih]
      rfl

end JavaScript

namespace Php

/-- The JavaScript counterpart of a node: that of the core node that it comes to. -/
def IsConverted (node : Node) (j : JavaScript.Node) : Prop :=
  ∃ c, node.toCore = .ok c ∧ Lowering.lower c = .ok j

/-- The statements that a body is converted to. -/
def IsBodyConverted (body : Node) (statements : List JavaScript.Node) : Prop :=
  ∃ cs js, body.bodyToCore = .ok cs ∧ Lowering.lowerEach cs = .ok js ∧
    statements = Lowering.asBody js

/-- A condition and the body under it are converted to a condition and statements. -/
def IsBranchConverted (branch : Node × Node)
    (converted : JavaScript.Node × List JavaScript.Node) : Prop :=
  IsConverted branch.1 converted.1 ∧ IsBodyConverted branch.2 converted.2

/-- A choice: a condition and its body, further ones, and a last body if there is one. -/
structure Choice where
  test : Node
  body : Node
  elseIfs : List (Node × Node)
  otherwise : Option Node

namespace Choice

/-- The choice as the grammar builds it. -/
def node (c : Choice) : Node :=
  .ifElse c.test c.body (c.elseIfs.map fun branch => .elseIf branch.1 branch.2)
    (match c.otherwise with
      | none => .absent
      | some last => .elseBranch last)

/-- All conditions, each with its body, in the order of the source. -/
def branches (c : Choice) : List (Node × Node) := (c.test, c.body) :: c.elseIfs

/-- The branches of a choice are converted to these. -/
structure HasParts (c : Choice) (branches : List (JavaScript.Node × List JavaScript.Node))
    (otherwise : Option (List JavaScript.Node)) : Prop where
  branches : List.Forall₂ IsBranchConverted c.branches branches
  otherwise : Option.Rel IsBodyConverted c.otherwise otherwise

end Choice

/-- The last branch of a core choice is lowered to the last branch of an if statement. -/
def IsAlternate (alternate : Option (List Core.Node)) (j : JavaScript.Node) : Prop :=
  match alternate with
  | none => j = .absent
  | some cs => ∃ js, Lowering.lowerEach cs = .ok js ∧ j = .block (Lowering.asBody js)

theorem lower_ifElse_eq_ok_iff {test : Core.Node} {body : List Core.Node}
    {alternate : Option (List Core.Node)} {j : JavaScript.Node} :
    Lowering.lower (.ifElse test body alternate) = .ok j ↔ ∃ t js a, Lowering.lower test = .ok t ∧
      Lowering.lowerEach body = .ok js ∧ IsAlternate alternate a ∧
      j = .ifStatement t (.block (Lowering.asBody js)) a := by
  cases alternate with
  | none =>
      rw [Lowering.lower]
      simp only [bind_eq_ok_iff, pure_eq_ok_iff, IsAlternate]
      constructor
      · rintro ⟨t, ht, js, hjs, rfl⟩
        exact ⟨t, js, _, ht, hjs, rfl, rfl⟩
      · rintro ⟨t, js, _, ht, hjs, rfl, rfl⟩
        exact ⟨t, ht, js, hjs, rfl⟩
  | some cs =>
      rw [Lowering.lower]
      simp only [bind_eq_ok_iff, pure_eq_ok_iff, IsAlternate]
      constructor
      · rintro ⟨as, has, t, ht, js, hjs, rfl⟩
        exact ⟨t, js, _, ht, hjs, ⟨as, has, rfl⟩, rfl⟩
      · rintro ⟨t, js, _, ht, hjs, ⟨as, has, rfl⟩, rfl⟩
        exact ⟨as, has, t, ht, js, hjs, rfl⟩

/-- A choice that is alone in a last branch stays alone there. -/
theorem isAlternate_single_iff {test : Core.Node} {body : List Core.Node}
    {alternate : Option (List Core.Node)} {a : JavaScript.Node} :
    IsAlternate (some [.ifElse test body alternate]) a ↔
      ∃ j, Lowering.lower (.ifElse test body alternate) = .ok j ∧ a = .block [j] := by
  have hlone : ∀ j, Lowering.lower (.ifElse test body alternate) = .ok j →
      Lowering.asBody [j] = [j] := by
    intro j hj
    obtain ⟨t, js, last, -, -, -, rfl⟩ := lower_ifElse_eq_ok_iff.mp hj
    rfl
  simp only [IsAlternate, Lowering.lowerEach, bind_eq_ok_iff, pure_eq_ok_iff]
  constructor
  · rintro ⟨_, ⟨j, hj, _, rfl, rfl⟩, rfl⟩
    exact ⟨j, hj, congrArg _ (hlone j hj)⟩
  · rintro ⟨j, hj, rfl⟩
    exact ⟨[j], ⟨j, hj, [], rfl, rfl⟩, congrArg _ (hlone j hj).symm⟩

/-- **A chain of conditions becomes if statements in the last branch of one another**, around what
the last branch becomes. -/
theorem isAlternate_chain {alternate : Option (List Core.Node)} {elseIfs : List (Node × Node)}
    {a : JavaScript.Node} :
    (∃ chain, chainToCore alternate (elseIfs.map fun branch => .elseIf branch.1 branch.2) =
        .ok chain ∧ IsAlternate chain a) ↔
      ∃ branches last, List.Forall₂ IsBranchConverted elseIfs branches ∧
        IsAlternate alternate last ∧ a = JavaScript.nest branches last := by
  induction elseIfs generalizing a with
  | nil =>
      rw [List.map_nil, chainToCore]
      simp [pure_eq_ok_iff, JavaScript.nest]
  | cons branch rest ih =>
      rw [List.map_cons, chainToCore_of_branch? rfl]
      simp only [bind_eq_ok_iff, pure_eq_ok_iff]
      constructor
      · rintro ⟨_, ⟨inner, hinner, test, htest, body, hbody, rfl⟩, halternate⟩
        obtain ⟨j, hj, rfl⟩ := isAlternate_single_iff.mp halternate
        obtain ⟨t, js, a, ht, hjs, ha, rfl⟩ := lower_ifElse_eq_ok_iff.mp hj
        obtain ⟨branches, last, hbranches, hlast, rfl⟩ := ih.mp ⟨inner, hinner, ha⟩
        exact ⟨(t, Lowering.asBody js) :: branches, last,
          .cons ⟨⟨test, htest, ht⟩, body, js, hbody, hjs, rfl⟩ hbranches, hlast, rfl⟩
      · rintro ⟨_, last, hbranches, hlast, rfl⟩
        obtain ⟨⟨t, _⟩, branches, ⟨⟨test, htest, ht⟩, body, js, hbody, hjs, rfl⟩, hrest, rfl⟩ :=
          List.forall₂_cons_left_iff.mp hbranches
        obtain ⟨inner, hinner, ha⟩ := ih.mpr ⟨branches, last, hrest, hlast, rfl⟩
        exact ⟨_, ⟨inner, hinner, test, htest, body, hbody, rfl⟩, isAlternate_single_iff.mpr
          ⟨_, lower_ifElse_eq_ok_iff.mpr ⟨t, js, _, ht, hjs, ha, rfl⟩, rfl⟩⟩

/-- The last body of a choice, if there is one, becomes the last branch. -/
theorem isAlternate_otherwise {otherwise : Option Node} {a : JavaScript.Node} :
    (∃ alternate, (match otherwise with
        | none => Node.absent
        | some last => .elseBranch last).alternateToCore = .ok alternate ∧
      IsAlternate alternate a) ↔
      ∃ last, Option.Rel IsBodyConverted otherwise last ∧ a = JavaScript.lastBranch last := by
  cases otherwise with
  | none =>
      rw [Node.alternateToCore]
      constructor
      · rintro ⟨_, hnone, halternate⟩
        cases pure_eq_ok_iff.mp hnone
        exact ⟨none, .none, halternate⟩
      · rintro ⟨_, ⟨⟩, rfl⟩
        exact ⟨none, rfl, rfl⟩
  | some last =>
      rw [alternateToCore_of_inner? rfl]
      simp only [bind_eq_ok_iff, pure_eq_ok_iff]
      constructor
      · rintro ⟨_, ⟨cs, hcs, rfl⟩, js, hjs, rfl⟩
        exact ⟨some (Lowering.asBody js), .some ⟨cs, js, hcs, hjs, rfl⟩, rfl⟩
      · rintro ⟨_, ⟨⟨cs, js, hcs, hjs, rfl⟩⟩, rfl⟩
        exact ⟨some cs, ⟨cs, hcs, rfl⟩, js, hjs, rfl⟩

namespace Choice

variable {c : Choice}

/-- **A choice is converted to nested if statements**, of which each has a condition and a branch of
the choice. -/
theorem isConverted_iff {j : JavaScript.Node} : IsConverted c.node j ↔ ∃ test body rest otherwise,
    c.HasParts ((test, body) :: rest) otherwise ∧ j = .ifStatement test (.block body)
      (JavaScript.nest rest (JavaScript.lastBranch otherwise)) := by
  obtain ⟨test, body, elseIfs, otherwise⟩ := c
  unfold IsConverted node
  rw [Node.toCore]
  simp only [bind_eq_ok_iff, pure_eq_ok_iff]
  constructor
  · rintro ⟨_, ⟨last, hlast, chain, hchain, t, ht, cs, hcs, rfl⟩, hj⟩
    obtain ⟨t', js, a, ht', hjs, ha, rfl⟩ := lower_ifElse_eq_ok_iff.mp hj
    obtain ⟨branches, l, hbranches, hl, rfl⟩ := isAlternate_chain.mp ⟨chain, hchain, ha⟩
    obtain ⟨last', hlast', rfl⟩ := isAlternate_otherwise.mp ⟨last, hlast, hl⟩
    exact ⟨t', Lowering.asBody js, branches, last',
      ⟨.cons ⟨⟨t, ht, ht'⟩, cs, js, hcs, hjs, rfl⟩ hbranches, hlast'⟩, rfl⟩
  · rintro ⟨t', _, branches, last', ⟨hall, hlast'⟩, rfl⟩
    obtain ⟨⟨⟨t, ht, ht'⟩, cs, js, hcs, hjs, rfl⟩, hrest⟩ := List.forall₂_cons.mp hall
    obtain ⟨last, hlast, hl⟩ := isAlternate_otherwise.mpr ⟨last', hlast', rfl⟩
    obtain ⟨chain, hchain, ha⟩ := isAlternate_chain.mpr ⟨branches, _, hrest, hl, rfl⟩
    exact ⟨_, ⟨last, hlast, chain, hchain, t, ht, cs, hcs, rfl⟩,
      lower_ifElse_eq_ok_iff.mpr ⟨t', js, _, ht', hjs, ha, rfl⟩⟩

theorem isConverted_unique {node : Node} {j j' : JavaScript.Node} (h : IsConverted node j)
    (h' : IsConverted node j') : j = j' := by
  obtain ⟨c, hc, hj⟩ := h
  obtain ⟨c', hc', hj'⟩ := h'
  cases hc.symm.trans hc'
  cases hj.symm.trans hj'
  rfl

/-- **The first condition that holds decides.**  A choice is converted just if all its conditions and
bodies are.  What it is converted to consists of them, each once and in their order.  However its
conditions turn out, a walk through it tests them in the order of the source up to the first that
holds; it selects the branch of that one, and the last branch, if there is one, where none holds. -/
theorem takesFirstMatch (c : Choice) :
    ((∃ j, IsConverted c.node j) ↔ ∃ branches otherwise, c.HasParts branches otherwise) ∧
      ∀ j branches otherwise, IsConverted c.node j → c.HasParts branches otherwise →
        JavaScript.unnest c.branches.length j = some (branches, otherwise) ∧
        ∀ answers : List Bool, answers.length = c.branches.length →
          JavaScript.walk answers j =
            some ⟨(branches.map Prod.fst).take (answers.idxOf true + 1),
              (branches[answers.idxOf true]?.map Prod.snd).or otherwise⟩ := by
  constructor
  · constructor
    · rintro ⟨j, hj⟩
      obtain ⟨test, body, rest, otherwise, hparts, -⟩ := isConverted_iff.mp hj
      exact ⟨_, _, hparts⟩
    · rintro ⟨branches, otherwise, hparts⟩
      obtain ⟨⟨test, body⟩, rest, -, -, rfl⟩ := List.forall₂_cons_left_iff.mp hparts.branches
      exact ⟨_, isConverted_iff.mpr ⟨test, body, rest, otherwise, hparts, rfl⟩⟩
  · intro j branches otherwise hj hparts
    obtain ⟨⟨test, body⟩, rest, -, hrest, rfl⟩ := List.forall₂_cons_left_iff.mp hparts.branches
    cases isConverted_unique hj (isConverted_iff.mpr ⟨test, body, rest, otherwise, hparts, rfl⟩)
    have hlength : c.branches.length = rest.length + 1 := congrArg (· + 1) hrest.length_eq
    rw [hlength]
    exact ⟨JavaScript.unnest_nest test body rest otherwise,
      JavaScript.walk_nest test body rest otherwise⟩

/-- A choice with a further condition, under which there is nothing, and a last body that is one
statement. -/
def small : Choice :=
  ⟨.variable (.text "$a"), .list [.echo [.text "b"]], [(.variable (.text "$c"), .block [])],
    some (.returnValue .absent)⟩

/-- What the branches of the small choice are converted to. -/
def smallBranches : List (JavaScript.Node × List JavaScript.Node) :=
  [(.identifier (.text "a"), [Lowering.logCall (.stringLiteral (.text "b"))]),
    (.identifier (.text "c"), [])]

theorem hasParts_small : small.HasParts smallBranches (some [.returnStatement .absent]) := by
  have hvariable : ∀ name, IsConverted (.variable (.text name))
      (.identifier (.text (Lowering.stripSigil name))) :=
    fun name => ⟨.variable (.text name), by rw [Node.toCore]; rfl, rfl⟩
  have hfirst : (Node.list [.echo [.text "b"]]).bodyToCore = .ok [.echo [.string (.text "b")]] := by
    simp [Node.bodyToCore, statementsToCore, Node.toCore, toCoreEach, Core.Node.isPresent]
    rfl
  have hsecond : (Node.block []).bodyToCore = .ok [] := by
    simp [Node.bodyToCore, statementsToCore]
    rfl
  have hlast : (Node.returnValue .absent).bodyToCore = .ok [.returnValue .absent] := by
    simp [Node.bodyToCore, Node.toCore, Core.Node.isPresent]
    rfl
  exact ⟨.cons ⟨hvariable "$a", _, _, hfirst, rfl, rfl⟩
    (.cons ⟨hvariable "$c", _, _, hsecond, rfl, rfl⟩ .nil), .some ⟨_, _, hlast, rfl, rfl⟩⟩

/-- Where the second condition of the small choice is the first to hold, both are tested and nothing
is selected of the last branch. -/
theorem takesFirstMatch_small : ∃ j, IsConverted small.node j ∧
    small.HasParts smallBranches (some [.returnStatement .absent]) ∧
    JavaScript.walk [false, true] j =
      some ⟨[.identifier (.text "a"), .identifier (.text "c")], some []⟩ := by
  obtain ⟨j, hj⟩ := (takesFirstMatch small).1.mpr ⟨_, _, hasParts_small⟩
  exact ⟨j, hj, hasParts_small,
    ((takesFirstMatch small).2 j _ _ hj hasParts_small).2 [false, true] rfl⟩

end Choice

end Php

end PhpMigration
