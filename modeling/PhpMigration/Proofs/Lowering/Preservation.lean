/-
Lowering keeps what imperative programs do.

The two programs run side by side, in states that are the same but for the dollar signs in front
of the variables (`State.stripped`).  A run simulates another if, from every state, it comes to an
end, delivers the same and leaves the same state behind.  Every rule keeps this (`Simulates`), and
lowering puts under each node the node that stands for the same rule.  So nothing is left to be
shown of a construct but that its symbols are carried over: that the operator and the name of the
variable are the same when they are read.

Two things have no counterpart among the rules.  A statement that is not there is left out of the
body, which does nothing; and the parts of a loop's head become one expression, which is a
sequence if there are several of them.
-/
import Mathlib.Data.List.Forall2
import PhpMigration.Proofs.Conversion.Lowerable
import PhpMigration.Proofs.Lowering.Meaning

namespace PhpMigration

namespace Meaning

variable {V α β : Type}

/-! ### Simulation -/

/-- The state as it is when variables have no dollar sign. -/
def State.stripped (s : State V) : State V := { s with store := fun name => s.store ("$" ++ name) }

/-- From every state the first run comes to an end, and the second one to the same. -/
def Simulates (m m' : Step V α) : Prop :=
  ∀ s, ∃ a s', m s = some (a, s') ∧ m' s.stripped = some (a, s'.stripped)

namespace Simulates

variable {I : Interpretation V} {x symbol : String}

theorem pure (a : α) : Simulates (Pure.pure a : Step V α) (Pure.pure a) := fun s =>
  ⟨a, s, rfl, rfl⟩

theorem bind {m m' : Step V α} {f f' : α → Step V β} (h : Simulates m m')
    (k : ∀ a, Simulates (f a) (f' a)) : Simulates (m >>= f) (m' >>= f') := by
  intro s
  obtain ⟨a, s₁, hm, hm'⟩ := h s
  obtain ⟨b, s₂, hf, hf'⟩ := k a s₁
  refine ⟨b, s₂, ?_, ?_⟩
  · show (m s >>= fun p => f p.1 p.2) = _
    rw [hm]
    exact hf
  · show (m' s.stripped >>= fun p => f' p.1 p.2) = _
    rw [hm']
    exact hf'

theorem ite {m m' n n' : Step V α} (c : Prop) [Decidable c] (h : Simulates m m')
    (k : Simulates n n') : Simulates (if c then m else n) (if c then m' else n') := by
  by_cases hc : c
  · rwa [if_pos hc, if_pos hc]
  · rwa [if_neg hc, if_neg hc]

theorem read (x : String) : Simulates (Meaning.read ("$" ++ x) : Step V V) (Meaning.read x) :=
  fun s => ⟨s.store ("$" ++ x), s, rfl, rfl⟩

theorem write (x : String) (v : V) : Simulates (Meaning.write ("$" ++ x) v) (Meaning.write x v) := by
  intro s
  refine ⟨(), _, rfl, ?_⟩
  have hstore : (fun other => if other = x then v else s.stripped.store other) =
      fun other => if "$" ++ other = "$" ++ x then v else s.store ("$" ++ other) := by
    funext other
    have hinj : "$" ++ other = "$" ++ x ↔ other = x := by
      refine ⟨fun h => ?_, fun h => by rw [h]⟩
      have hchars := congrArg String.toList h
      rw [String.toList_append, String.toList_append] at hchars
      exact String.toList_injective (List.append_cancel_left hchars)
    simp only [hinj]
    rfl
  exact congrArg (fun store => some ((), (⟨store, s.printed⟩ : State V))) hstore

theorem emit (v : V) : Simulates (Meaning.emit v) (Meaning.emit v) := fun _ => ⟨_, _, rfl, rfl⟩

/-! Every rule keeps the simulation of the runs that it takes. -/

theorem inOrder {ms ms' : List (Step V V)} (h : List.Forall₂ Simulates ms ms') :
    Simulates (Meaning.inOrder ms) (Meaning.inOrder ms') := by
  induction h with
  | nil => exact pure none
  | cons hm _ ih => exact hm.bind fun v => ih.bind fun last => pure (some (last.getD v))

theorem block {ms ms' : List (Step V Ending)} (h : List.Forall₂ Simulates ms ms') :
    Simulates (Meaning.block ms) (Meaning.block ms') := by
  induction h with
  | nil => exact pure Ending.finished
  | cons hm _ ih =>
      refine hm.bind fun ending => ?_
      cases ending with
      | finished => exact ih
      | exhausted => exact pure Ending.exhausted

theorem loop {test test' : Step V Bool} {body body' : Step V Ending}
    {update update' : Step V (Option V)} (ht : Simulates test test') (hb : Simulates body body')
    (hu : Simulates update update') (rounds : Nat) :
    Simulates (Meaning.loop test body update rounds) (Meaning.loop test' body' update' rounds) := by
  induction rounds with
  | zero => exact ht.bind fun b => ite (b = true) (pure Ending.exhausted) (pure Ending.finished)
  | succ rounds ih =>
      refine ht.bind fun b => ite (b = true) (hb.bind fun ending => ?_) (pure Ending.finished)
      cases ending with
      | finished => exact hu.bind fun _ => ih
      | exhausted => exact pure Ending.exhausted

theorem effect {m m' : Step V V} (h : Simulates m m') :
    Simulates (Meaning.effect m) (Meaning.effect m') := h.bind fun _ => pure Ending.finished

theorem set {m m' : Step V V} (h : Simulates m m') :
    Simulates (Meaning.set ("$" ++ x) m) (Meaning.set x m') :=
  h.bind fun v => (write x v).bind fun _ => pure v

theorem combine {l l' r r' : Step V V} (hl : Simulates l l') (hr : Simulates r r') :
    Simulates (I.combine symbol l r) (I.combine symbol l' r') :=
  hl.bind fun a => hr.bind fun b => pure (I.binary symbol a b)

theorem decide {l l' r r' : Step V V} (hl : Simulates l l') (hr : Simulates r r') :
    Simulates (I.decide symbol l r) (I.decide symbol l' r') :=
  hl.bind fun a => ite _ (hr.bind fun b => pure (I.long symbol a b)) (pure (I.short symbol a))

theorem apply {m m' : Step V V} (h : Simulates m m') :
    Simulates (I.apply symbol m) (I.apply symbol m') := h.bind fun a => pure (I.unary symbol a)

theorem setWith {m m' : Step V V} (h : Simulates m m') :
    Simulates (I.setWith symbol ("$" ++ x) m) (I.setWith symbol x m') :=
  set (combine (read x) h)

theorem count (before : Bool) :
    Simulates (I.count symbol before ("$" ++ x)) (I.count symbol before x) :=
  (read x).bind fun _ => (write x _).bind fun _ => pure _

theorem choose {t t' : Step V V} {m m' n n' : Step V α} (ht : Simulates t t')
    (hm : Simulates m m') (hn : Simulates n n') :
    Simulates (I.choose t m n) (I.choose t' m' n') := ht.bind fun _ => ite _ hm hn

theorem holds {m m' : Step V (Option V)} (h : Simulates m m') :
    Simulates (I.holds m) (I.holds m') := h.bind fun last => pure (last.elim true I.truthy)

theorem map_some {m m' : Step V V} (h : Simulates m m') :
    Simulates (some <$> m) (some <$> m') := by
  rw [map_eq_pure_bind, map_eq_pure_bind]
  exact h.bind fun v => pure (some v)

theorem headed {s s' t t' u u' : Step V (Option V)} {b b' : Step V Ending} (hs : Simulates s s')
    (ht : Simulates t t') (hu : Simulates u u') (hb : Simulates b b') (rounds : Nat) :
    Simulates (I.headed s t u b rounds) (I.headed s' t' u' b' rounds) :=
  hs.bind fun _ => loop (holds ht) hb hu rounds

end Simulates

end Meaning

open Meaning

/-! ### Imperative programs -/

namespace Core

open PhpMigration.Lowering (binaryOperators logicalOperators)

/-- An expression built from literals, variables and the operators that keep their meaning. -/
inductive IsCalculation : Node → Prop
  | string (value : String) : IsCalculation (.string (.text value))
  | number (value : Numeral) : IsCalculation (.number (.number value))
  | boolean (value : Bool) : IsCalculation (.boolean (.flag value))
  | null : IsCalculation .null
  | variable (x : String) : IsCalculation (.variable (.text ("$" ++ x)))
  | set (x : String) {value : Node} (h : IsCalculation value) :
      IsCalculation (.assign (.variable (.text ("$" ++ x))) value (.text "="))
  | setWith (x : String) {stem : String} (hstem : stem ∈ binaryOperators.map Prod.fst)
      {value : Node} (h : IsCalculation value) :
      IsCalculation (.assign (.variable (.text ("$" ++ x))) value (.text (stem ++ "=")))
  | binary {operator : String}
      (hoperator : operator ∈ binaryOperators.map Prod.fst ++ logicalOperators.map Prod.fst)
      {left right : Node} (hl : IsCalculation left) (hr : IsCalculation right) :
      IsCalculation (.binary (.text operator) left right)
  | unary (operator : String) {operand : Node} (h : IsCalculation operand) :
      IsCalculation (.unary (.text operator) operand)
  | stepBefore (sign x : String) :
      IsCalculation (.stepBefore (.text sign) (.variable (.text ("$" ++ x))))
  | stepBehind (sign x : String) :
      IsCalculation (.stepBehind (.text sign) (.variable (.text ("$" ++ x))))
  | ternary {test consequent alternate : Node} (ht : IsCalculation test)
      (hc : IsCalculation consequent) (ha : IsCalculation alternate) :
      IsCalculation (.ternary test consequent alternate)

/-- A statement that calculates, prints, chooses or loops. -/
inductive IsImperative : Node → Prop
  | absent : IsImperative .absent
  | calculation {e : Node} (h : IsCalculation e) : IsImperative e
  | expressionStatement {s : Node} (h : IsImperative s) : IsImperative (.expressionStatement s)
  | print {e : Node} (h : IsCalculation e) : IsImperative (.print e)
  | echo {e : Node} (h : IsCalculation e) : IsImperative (.echo [e])
  | ifThen {test : Node} {body : List Node} (ht : IsCalculation test)
      (h : ∀ s ∈ body, IsImperative s) : IsImperative (.ifElse test body none)
  | ifElse {test : Node} {body alternate : List Node} (ht : IsCalculation test)
      (h : ∀ s ∈ body, IsImperative s) (ha : ∀ s ∈ alternate, IsImperative s) :
      IsImperative (.ifElse test body (some alternate))
  | whileLoop {test : Node} {body : List Node} (ht : IsCalculation test)
      (h : ∀ s ∈ body, IsImperative s) : IsImperative (.whileLoop test body)
  | forLoop {start tests update body : List Node} (hs : ∀ e ∈ start, IsCalculation e)
      (ht : ∀ e ∈ tests, IsCalculation e) (hu : ∀ e ∈ update, IsCalculation e)
      (h : ∀ s ∈ body, IsImperative s) : IsImperative (.forLoop start tests update body)

end Core

namespace Lowering

open PhpMigration.Core (Node IsCalculation IsImperative symbolOf)

/-! ### Symbols and names -/

theorem stripSigil_append (x : String) : stripSigil ("$" ++ x) = x := by
  have hchars : ("$" ++ x).toList = '$' :: x.toList := by simp
  rw [stripSigil, hchars, stripSigilChars, if_pos rfl, String.ofList_toList]

theorem dropLast_append (stem : String) :
    String.ofList (stem ++ "=").toList.dropLast = stem := by
  have hchars : (stem ++ "=").toList = stem.toList ++ ['='] := by simp
  rw [hchars, List.dropLast_concat, String.ofList_toList]

theorem append_ne_equals {stem : String} (h : stem ≠ "") : stem ++ "=" ≠ "=" := by
  intro heq
  have hchars := congrArg String.toList heq
  rw [String.toList_append] at hchars
  have hempty : stem.toList = [] := by simpa using hchars
  exact h (String.toList_injective hempty)

/-- The operators of the tables are read as the symbols that they are mapped to. -/
theorem mapBinary_eq {operator : String} (h : operator ∈ binaryOperators.map Prod.fst) :
    mapBinary operator = symbolOf operator ∧ symbolOf operator ≠ "" ∧ operator ≠ "" ∧
      isLogical operator = false := by
  have hall : ∀ operator ∈ binaryOperators.map Prod.fst, mapBinary operator = symbolOf operator ∧
      symbolOf operator ≠ "" ∧ operator ≠ "" ∧ isLogical operator = false := by decide
  exact hall operator h

theorem mapLogical_eq {operator : String} (h : operator ∈ logicalOperators.map Prod.fst) :
    mapLogical operator = operator ∧ isLogical operator = true := by
  have hall : ∀ operator ∈ logicalOperators.map Prod.fst,
      mapLogical operator = operator ∧ isLogical operator = true := by decide
  exact hall operator h

theorem mapAssignment_append {stem : String} (h : stem ∈ binaryOperators.map Prod.fst) :
    mapAssignment (stem ++ "=") = symbolOf stem ++ "=" := by
  obtain ⟨hmap, -, hne, -⟩ := mapBinary_eq h
  have hnone : stem ++ "=" ≠ "" := by
    intro heq
    have hchars := congrArg String.toList heq
    simp at hchars
  rw [mapAssignment, if_neg (by simp [hnone, append_ne_equals hne]), dropLast_append, hmap]

/-! ### Expressions -/

/-- An expression is lowered to one that does the same, and that is no statement by itself. -/
structure Computes (e : Node) (j : JavaScript.Node) : Prop where
  lowered : lower e = .ok j
  wrapped : asStatement j = .expressionStatement j
  silent : j.logged? = none
  simulates : ∀ {V : Type} (I : Interpretation V), Simulates (e.evaluate I) (j.evaluate I)

theorem exists_computes_binary {operator : String} {left right : Node} {l r : JavaScript.Node}
    (h : operator ∈ binaryOperators.map Prod.fst ++ logicalOperators.map Prod.fst)
    (hl : Computes left l) (hr : Computes right r) :
    ∃ j, Computes (.binary (.text operator) left right) j := by
  rcases List.mem_append.mp h with h | h
  · obtain ⟨hmap, -, -, hlogical⟩ := mapBinary_eq h
    refine ⟨.binary (.text (mapBinary operator)) l r, ?_, rfl, rfl, fun I => ?_⟩
    · rw [lower, hl.lowered, hr.lowered]
      exact if_neg (by simp [operatorText, Value.text?, hlogical])
    · rw [Node.evaluate, hlogical, JavaScript.Node.evaluate, hmap]
      exact .combine (hl.simulates I) (hr.simulates I)
  · obtain ⟨hmap, hlogical⟩ := mapLogical_eq h
    refine ⟨.logical (.text (mapLogical operator)) l r, ?_, rfl, rfl, fun I => ?_⟩
    · rw [lower, hl.lowered, hr.lowered]
      exact if_pos (by simp [operatorText, Value.text?, hlogical])
    · rw [Node.evaluate, hlogical, JavaScript.Node.evaluate, hmap]
      exact .decide (hl.simulates I) (hr.simulates I)

/-- Every calculation is lowered to an expression that does the same. -/
theorem exists_computes {e : Node} (h : IsCalculation e) : ∃ j, Computes e j := by
  induction h with
  | string value =>
      refine ⟨.stringLiteral (.text value), by rw [lower]; rfl, rfl, rfl, fun I => ?_⟩
      rw [Node.evaluate, JavaScript.Node.evaluate]
      exact .pure _
  | number value =>
      refine ⟨.numericLiteral (.number value), by rw [lower]; rfl, rfl, rfl, fun I => ?_⟩
      rw [Node.evaluate, JavaScript.Node.evaluate]
      exact .pure _
  | boolean value =>
      refine ⟨.booleanLiteral (.flag value), by rw [lower]; rfl, rfl, rfl, fun I => ?_⟩
      rw [Node.evaluate, JavaScript.Node.evaluate]
      exact .pure _
  | null =>
      refine ⟨.nullLiteral, by rw [lower]; rfl, rfl, rfl, fun I => ?_⟩
      rw [Node.evaluate, JavaScript.Node.evaluate]
      exact .pure _
  | «variable» x =>
      refine ⟨.identifier (.text (stripSigil ("$" ++ x))), by rw [lower]; rfl, rfl, rfl, fun I => ?_⟩
      rw [Node.evaluate, JavaScript.Node.evaluate, stripSigil_append]
      exact .read x
  | set x h ih =>
      obtain ⟨j, hj⟩ := ih
      refine ⟨.assignment (.text "=") (.identifier (.text (stripSigil ("$" ++ x)))) j, ?_, rfl, rfl,
        fun I => ?_⟩
      · rw [lower, lower, hj.lowered]
        rfl
      · rw [Node.evaluate, JavaScript.Node.evaluate, if_pos rfl, if_pos rfl, stripSigil_append]
        exact .set (hj.simulates I)
  | setWith x hstem h ih =>
      rename_i stem value
      obtain ⟨j, hj⟩ := ih
      obtain ⟨-, hsymbol, hne, -⟩ := mapBinary_eq hstem
      refine ⟨.assignment (.text (symbolOf stem ++ "=")) (.identifier (.text (stripSigil ("$" ++ x)))) j,
        ?_, rfl, rfl, fun I => ?_⟩
      · rw [lower, lower, hj.lowered, ← mapAssignment_append hstem]
        rfl
      · rw [Node.evaluate, JavaScript.Node.evaluate, if_neg (append_ne_equals hne),
          if_neg (append_ne_equals hsymbol), stripSigil_append, dropLast_append, dropLast_append]
        exact .setWith (hj.simulates I)
  | binary hoperator hl hr ihl ihr =>
      obtain ⟨l, hl⟩ := ihl
      obtain ⟨r, hr⟩ := ihr
      exact exists_computes_binary hoperator hl hr
  | unary operator h ih =>
      obtain ⟨j, hj⟩ := ih
      refine ⟨.unary (.text operator) j, by rw [lower, hj.lowered]; rfl, rfl, rfl, fun I => ?_⟩
      rw [Node.evaluate, JavaScript.Node.evaluate]
      exact .apply (hj.simulates I)
  | stepBefore sign x =>
      refine ⟨.update (.text (sign ++ sign)) (.identifier (.text (stripSigil ("$" ++ x)))) true,
        by rw [lower, lower]; rfl, rfl, rfl, fun I => ?_⟩
      rw [Node.evaluate, JavaScript.Node.evaluate, stripSigil_append]
      exact .count true
  | stepBehind sign x =>
      refine ⟨.update (.text (sign ++ sign)) (.identifier (.text (stripSigil ("$" ++ x)))) false,
        by rw [lower, lower]; rfl, rfl, rfl, fun I => ?_⟩
      rw [Node.evaluate, JavaScript.Node.evaluate, stripSigil_append]
      exact .count false
  | ternary ht hc ha iht ihc iha =>
      obtain ⟨t, ht⟩ := iht
      obtain ⟨c, hc⟩ := ihc
      obtain ⟨a, ha⟩ := iha
      refine ⟨.conditional t c a, by rw [lower, ht.lowered, hc.lowered, ha.lowered]; rfl, rfl, rfl,
        fun I => ?_⟩
      rw [Node.evaluate, JavaScript.Node.evaluate]
      exact .choose (ht.simulates I) (hc.simulates I) (ha.simulates I)

theorem exists_computesEach {es : List Node} (h : ∀ e ∈ es, IsCalculation e) :
    ∃ js, lowerEach es = .ok js ∧ List.Forall₂ Computes es js := by
  induction es with
  | nil => exact ⟨[], by rw [lowerEach]; rfl, .nil⟩
  | cons e rest ih =>
      obtain ⟨he, hrest⟩ := List.forall_mem_cons.mp h
      obtain ⟨j, hj⟩ := exists_computes he
      obtain ⟨js, hjs, hall⟩ := ih hrest
      exact ⟨j :: js, by rw [lowerEach, hj.lowered, hjs]; rfl, .cons hj hall⟩

/-! ### The parts of a loop's head -/

section

variable {V : Type} (I : Interpretation V)

theorem Computes.isPresent {e : Node} {j : JavaScript.Node} (h : Computes e j) :
    j.isPresent = true := by
  have hwrapped := h.wrapped
  cases j <;> first | rfl | cases hwrapped

theorem simulates_inOrder {es : List Node} {js : List JavaScript.Node}
    (h : List.Forall₂ Computes es js) :
    Simulates (inOrder (es.map (Node.evaluate I))) (inOrder (JavaScript.evaluations I js)) := by
  refine .inOrder ?_
  induction h with
  | nil => exact .nil
  | cons hj _ ih => exact .cons (hj.simulates I) ih

/-- Some steps deliver nothing only if there are none. -/
theorem some_map_inOrder (step : Step V V) (rest : List (Step V V)) :
    some <$> (inOrder (step :: rest) >>= needed) = inOrder (step :: rest) := by
  unfold inOrder
  simp only [map_bind, bind_assoc, pure_bind, needed, map_pure]

/-- The parts of a loop's head do as one expression what they do one after another. -/
theorem simulates_asExpression {es : List Node} {js : List JavaScript.Node}
    (h : List.Forall₂ Computes es js) :
    Simulates (inOrder (es.map (Node.evaluate I))) ((asExpression js).evaluatePart I) := by
  have hall := simulates_inOrder I h
  cases h with
  | nil => exact hall
  | cons hj hrest =>
      rename_i e j es js
      cases hrest with
      | nil =>
          have hone : inOrder [j.evaluate I] = some <$> j.evaluate I := by
            rw [inOrder, inOrder, map_eq_pure_bind]
            rfl
          rw [JavaScript.evaluations, JavaScript.evaluations, hone] at hall
          rw [asExpression, JavaScript.Node.evaluatePart, if_pos hj.isPresent]
          exact hall
      | cons hj' hrest =>
          rename_i e' j' es js
          have hpart : (asExpression (j :: j' :: js)).evaluatePart I =
              inOrder (JavaScript.evaluations I (j :: j' :: js)) := by
            rw [JavaScript.evaluations, ← some_map_inOrder]
            show some <$> (JavaScript.Node.sequence (j :: j' :: js)).evaluate I = _
            rw [JavaScript.Node.evaluate, JavaScript.evaluations]
          rw [hpart]
          exact hall

end

/-! ### Statements -/

/-- A statement is lowered to one that does the same when it is made the member of a body. -/
structure Performs (s : Node) (j : JavaScript.Node) : Prop where
  lowered : lower s = .ok j
  simulates : ∀ {V : Type} (I : Interpretation V) (rounds : Nat),
    Simulates (s.run I rounds) ((asStatement j).run I rounds)

/-- A body leaves out what does nothing. -/
theorem block_asBody {V : Type} (I : Interpretation V) (rounds : Nat) (js : List JavaScript.Node) :
    block (JavaScript.runs I rounds (asBody js)) =
      block (js.map fun j => (asStatement j).run I rounds) := by
  induction js with
  | nil => rfl
  | cons j js ih =>
      unfold asBody at ih ⊢
      rw [List.map_cons, List.map_cons, List.filter_cons, block, ← ih]
      split
      · rw [JavaScript.runs, block]
      · rename_i habsent
        rw [JavaScript.Node.eq_absent_of_not_isPresent habsent, JavaScript.Node.run, pure_bind]

theorem exists_performsEach {body : List Node} (h : ∀ s ∈ body, ∃ j, Performs s j) :
    ∃ js, lowerEach body = .ok js ∧ ∀ {V : Type} (I : Interpretation V) (rounds : Nat),
      Simulates (block (Core.runs I rounds body)) (block (JavaScript.runs I rounds (asBody js))) := by
  obtain ⟨js, hjs, hall⟩ : ∃ js, lowerEach body = .ok js ∧ List.Forall₂ Performs body js := by
    induction body with
    | nil => exact ⟨[], by rw [lowerEach]; rfl, .nil⟩
    | cons s rest ih =>
        obtain ⟨⟨j, hj⟩, hrest⟩ := List.forall_mem_cons.mp h
        obtain ⟨js, hjs, hall⟩ := ih hrest
        exact ⟨j :: js, by rw [lowerEach, hj.lowered, hjs]; rfl, .cons hj hall⟩
  refine ⟨js, hjs, fun I rounds => ?_⟩
  rw [block_asBody]
  refine .block ?_
  clear hjs h
  induction hall with
  | nil => exact .nil
  | cons hj _ ih => exact .cons (hj.simulates I rounds) ih

theorem Computes.performs {e : Node} {j : JavaScript.Node} (h : Computes e j)
    (hrun : ∀ {V : Type} (I : Interpretation V) (rounds : Nat),
      e.run I rounds = effect (e.evaluate I)) : Performs e j := by
  refine ⟨h.lowered, fun I rounds => ?_⟩
  rw [hrun, h.wrapped, JavaScript.Node.run, h.silent]
  exact .effect (h.simulates I)

/-- The statement that prints a value. -/
theorem Computes.performs_logCall {e s : Node} {j : JavaScript.Node} (h : Computes e j)
    (hlowered : lower s = .ok (logCall j)) (hrun : ∀ {V : Type} (I : Interpretation V) (rounds : Nat),
      s.run I rounds = e.evaluate I >>= emit) : Performs s (logCall j) := by
  refine ⟨hlowered, fun I rounds => ?_⟩
  have hcall : (asStatement (logCall j)).run I rounds = j.evaluate I >>= emit := by
    show (logCall j).run I rounds = _
    rw [logCall, if_pos h.isPresent, JavaScript.Node.run]
    rfl
  rw [hcall, hrun]
  exact (h.simulates I).bind fun v => .emit v

/-- Every imperative statement is lowered to one that does the same. -/
theorem exists_performs {s : Node} (h : IsImperative s) : ∃ j, Performs s j := by
  induction h with
  | absent =>
      refine ⟨.absent, by rw [lower]; rfl, fun I rounds => ?_⟩
      rw [Node.run]
      show Simulates _ (JavaScript.Node.absent.run I rounds)
      rw [JavaScript.Node.run]
      exact .pure _
  | calculation h =>
      obtain ⟨j, hj⟩ := exists_computes h
      refine ⟨j, hj.performs fun I rounds => ?_⟩
      cases h <;> rw [Node.run] <;> simp
  | expressionStatement h ih =>
      obtain ⟨j, hj⟩ := ih
      refine ⟨asStatement j, by rw [lower, hj.lowered]; rfl, fun I rounds => ?_⟩
      rw [Node.run, asStatement_asStatement]
      exact hj.simulates I rounds
  | print h =>
      obtain ⟨j, hj⟩ := exists_computes h
      refine ⟨logCall j, hj.performs_logCall (by rw [lower, hj.lowered]; rfl) fun I rounds => ?_⟩
      rw [Node.run]
  | echo h =>
      obtain ⟨j, hj⟩ := exists_computes h
      refine ⟨logCall j, hj.performs_logCall ?_ fun I rounds => ?_⟩
      · rw [lower, lowerEach, lowerEach, hj.lowered]
        rfl
      · rw [Node.run]
  | ifThen ht h ih =>
      obtain ⟨t, ht⟩ := exists_computes ht
      obtain ⟨js, hjs, hbody⟩ := exists_performsEach ih
      refine ⟨.ifStatement t (.block (asBody js)) .absent, by rw [lower, ht.lowered, hjs]; rfl,
        fun I rounds => ?_⟩
      show Simulates _ ((JavaScript.Node.ifStatement t (.block (asBody js)) .absent).run I rounds)
      rw [Node.run, JavaScript.Node.run, JavaScript.Node.run, JavaScript.Node.run]
      exact .choose (ht.simulates I) (hbody I rounds) (.pure _)
  | ifElse ht h ha ih iha =>
      obtain ⟨t, ht⟩ := exists_computes ht
      obtain ⟨js, hjs, hbody⟩ := exists_performsEach ih
      obtain ⟨as, has, halternate⟩ := exists_performsEach iha
      refine ⟨.ifStatement t (.block (asBody js)) (.block (asBody as)),
        by rw [lower, has, ht.lowered, hjs]; rfl, fun I rounds => ?_⟩
      show Simulates _
        ((JavaScript.Node.ifStatement t (.block (asBody js)) (.block (asBody as))).run I rounds)
      rw [Node.run, JavaScript.Node.run, JavaScript.Node.run, JavaScript.Node.run]
      exact .choose (ht.simulates I) (hbody I rounds) (halternate I rounds)
  | whileLoop ht h ih =>
      obtain ⟨t, ht⟩ := exists_computes ht
      obtain ⟨js, hjs, hbody⟩ := exists_performsEach ih
      refine ⟨.whileStatement t (.block (asBody js)), by rw [lower, ht.lowered, hjs]; rfl,
        fun I rounds => ?_⟩
      show Simulates _ ((JavaScript.Node.whileStatement t (.block (asBody js))).run I rounds)
      rw [Node.run, JavaScript.Node.run, JavaScript.Node.run]
      exact .loop (.holds (.map_some (ht.simulates I))) (hbody I rounds) (.pure none) rounds
  | forLoop hs ht hu h ih =>
      obtain ⟨ss, hss, hstart⟩ := exists_computesEach hs
      obtain ⟨ts, hts, htests⟩ := exists_computesEach ht
      obtain ⟨us, hus, hupdate⟩ := exists_computesEach hu
      obtain ⟨js, hjs, hbody⟩ := exists_performsEach ih
      refine ⟨.forStatement (asExpression ss) (asExpression ts) (asExpression us)
        (.block (asBody js)), by rw [lower, hss, hts, hus, hjs]; rfl, fun I rounds => ?_⟩
      show Simulates _ ((JavaScript.Node.forStatement (asExpression ss) (asExpression ts)
        (asExpression us) (.block (asBody js))).run I rounds)
      rw [Node.run, JavaScript.Node.run, JavaScript.Node.run]
      exact .headed (simulates_asExpression I hstart) (simulates_asExpression I htests)
        (simulates_asExpression I hupdate) (hbody I rounds) rounds

/-- **An imperative program is lowered to one that prints the same values and leaves the same
store behind, or runs out of rounds at the same point.** -/
theorem exists_run_lower {body : List Node} (h : ∀ s ∈ body, IsImperative s) :
    ∃ js, lower (.program body) = .ok (.program js) ∧
      ∀ (V : Type) (I : Interpretation V) (rounds : Nat) (s : State V), ∃ ending s',
        (Node.program body).run I rounds s = some (ending, s') ∧
        (JavaScript.Node.program js).run I rounds
            ⟨fun name => s.store ("$" ++ name), s.printed⟩ =
          some (ending, ⟨fun name => s'.store ("$" ++ name), s'.printed⟩) := by
  obtain ⟨js, hjs, hbody⟩ := exists_performsEach fun s hs => exists_performs (h s hs)
  refine ⟨asBody js, by rw [lower, hjs]; rfl, fun V I rounds s => ?_⟩
  rw [Node.run, JavaScript.Node.run]
  exact hbody I rounds s

/-- A loop that sums up how often it has gone round, and prints each sum. -/
def summing : List Node :=
  [.forLoop [.assign (.variable (.text "$i")) (.number (.number (.int 0))) (.text "=")]
    [.binary (.text "<") (.variable (.text "$i")) (.number (.number (.int 3)))]
    [.stepBehind (.text "+") (.variable (.text "$i"))]
    [.assign (.variable (.text "$sum")) (.variable (.text "$i")) (.text "+="),
      .echo [.variable (.text "$sum")]]]

theorem exists_run_lower_summing : ∃ js, lower (.program summing) = .ok (.program js) ∧
    ∀ (V : Type) (I : Interpretation V) (rounds : Nat) (s : State V), ∃ ending s',
      (Node.program summing).run I rounds s = some (ending, s') ∧
      (JavaScript.Node.program js).run I rounds ⟨fun name => s.store ("$" ++ name), s.printed⟩ =
        some (ending, ⟨fun name => s'.store ("$" ++ name), s'.printed⟩) := by
  have hi : IsCalculation (.variable (.text "$i")) := .variable "i"
  have hsum : IsCalculation (.variable (.text "$sum")) := .variable "sum"
  have hadd : IsCalculation (.assign (.variable (.text "$sum")) (.variable (.text "$i"))
      (.text "+=")) := @IsCalculation.setWith "sum" "+" (by decide) _ hi
  refine exists_run_lower (List.forall_mem_singleton.mpr (.forLoop ?_ ?_ ?_ ?_))
  · exact List.forall_mem_singleton.mpr (.set "i" (.number _))
  · exact List.forall_mem_singleton.mpr (.binary (by decide) hi (.number _))
  · exact List.forall_mem_singleton.mpr (.stepBehind "+" "i")
  · exact List.forall_mem_cons.mpr
      ⟨.calculation hadd, List.forall_mem_singleton.mpr (.echo hsum)⟩

/-- Integers, of which zero counts as false. -/
def integers : Interpretation Int where
  text _ := 0
  number
    | .int n => n
    | _ => 0
  flag b := if b then 1 else 0
  null := 0
  truthy n := n ≠ 0
  unary symbol n := if symbol = "-" then -n else n
  binary symbol m n := if symbol = "+" then m + n else if m < n then 1 else 0
  counted signs n := if signs = "++" then n + 1 else n - 1
  short _ n := n
  long _ _ n := n

-- two rounds are not enough for the loop, three are
example : ((Node.program summing).run integers 2 ⟨fun _ => 0, []⟩).map
    (fun r => (r.1, r.2.printed)) = some (.exhausted, [0, 1]) := by cbv

example : ((Node.program summing).run integers 3 ⟨fun _ => 0, []⟩).map
    (fun r => (r.1, r.2.printed)) = some (.finished, [0, 1, 3]) := by cbv

end Lowering

end PhpMigration
