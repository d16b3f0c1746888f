/-
What the conversion of a text without a service comes to.

A text is parsed, its tree is brought to the core, lowered and printed.  If the parser builds only
trees of the grammar, then the step to the core cannot fail, the lowering fails just on the trees
that are not convertible, and the printing just where an integer is too long to be written.
Everything else that is not supported, however deep it stands, becomes a placeholder and leaves the
rest of the text as it would be without it.
-/
import PhpMigration.Conversion.Basic
import PhpMigration.Proofs.Conversion.Convertible

namespace PhpMigration

open Php (Node eachConvertible)

/-- No integer in what the statements are lowered to is too long to be written. -/
def Php.IsWritable (nodes : List Node) : Prop :=
  ∀ program target, Php.programToCore nodes = .ok program → Lowering.lower program = .ok target →
    target.isWritable = true

/-- The statements have a code. -/
structure Php.HasCode (nodes : List Node) : Prop where
  convertible : eachConvertible nodes = true
  writable : Php.IsWritable nodes

/-- **A list of statements has a code just if it is convertible and its integers are short enough.**
The step to the core succeeds in any case; what fails otherwise is the lowering or the printing. -/
theorem codeOf_programToCore {nodes : List Node} (h : ∀ s ∈ nodes, Php.IsStatement s) :
    ∃ program, Php.programToCore nodes = .ok program ∧
      if eachConvertible nodes then
        (Php.IsWritable nodes → ∃ code, codeOf program = .ok code) ∧
          (¬ Php.IsWritable nodes → codeOf program = .error (.printing .tooManyDigits))
      else ∃ fault, codeOf program = .error (.lowering fault) := by
  obtain ⟨cs, hcore, hadapts⟩ :=
    (Php.answers_statementsToCore fun s hs => Php.answers_toCore_statement (h s hs)).exists_good
  have hprogram : Php.programToCore nodes = .ok (.program cs) := by
    rw [Php.programToCore, hcore]
    rfl
  refine ⟨.program cs, hprogram, ?_⟩
  have hlower := Lowering.answers_lower_program hadapts.sorted
  rw [hadapts.lowerable] at hlower
  unfold codeOf
  cases hl : Lowering.lower (.program cs) with
  | error fault =>
      rw [hl] at hlower
      have hno : eachConvertible nodes = false := hlower.1
      rw [if_neg (by simp [hno])]
      exact ⟨fault, rfl⟩
  | ok target =>
      rw [hl] at hlower
      obtain ⟨hyes, hprints⟩ := hlower
      have hwritable : Php.IsWritable nodes ↔ target.isWritable = true := by
        refine ⟨fun h => h _ target hprogram hl, fun h program target' hprogram' hl' => ?_⟩
        obtain rfl := Except.ok.inj (hprogram.symm.trans hprogram')
        obtain rfl := Except.ok.inj (hl.symm.trans hl')
        exact h
      rw [if_pos hyes, hwritable]
      show (_ → ∃ code, target.source.mapError Incident.printing = .ok code) ∧
        (_ → target.source.mapError Incident.printing = .error (.printing .tooManyDigits))
      refine ⟨fun h => ?_, fun h => ?_⟩
      · rw [h] at hprints
        obtain ⟨code, hcode, -⟩ := hprints.exists_good
        exact ⟨code, by rw [hcode]; rfl⟩
      · rw [Bool.eq_false_iff.mpr h] at hprints
        rw [hprints.eq_error]
        rfl

/-- A call without arguments of a method that has the given name. -/
def callOfMethod (name : Node) : List Node := [.methodCall (.variable (.text "$o")) name []]

theorem isStatement_callOfMethod (name : Node) : ∀ s ∈ callOfMethod name, Php.IsStatement s := by
  intro s hs
  rw [List.mem_singleton.mp hs]
  exact .expression (.methodCall name (.variable _) (by simp))

/-- Not every list of statements has a code: a call of a method with a computed name has none. -/
theorem not_every_list_has_code : ¬ ∀ nodes : List Node, (∀ s ∈ nodes, Php.IsStatement s) →
    ∃ program code, Php.programToCore nodes = .ok program ∧ codeOf program = .ok code := by
  intro hall
  have hshape := isStatement_callOfMethod (.variable (.text "$m"))
  obtain ⟨program, code, hprogram, hcode⟩ := hall _ hshape
  obtain ⟨program', hprogram', hfails⟩ := codeOf_programToCore hshape
  obtain rfl : program = program' := by
    rw [hprogram] at hprogram'
    exact Except.ok.inj hprogram'
  rw [if_neg (by simp [callOfMethod, eachConvertible, Node.isConvertible]), hcode] at hfails
  obtain ⟨fault, hfault⟩ := hfails
  cases hfault

theorem programToCore_callOfMethod (name : String) :
    Php.programToCore (callOfMethod (.text name)) =
      .ok (.program [.call (.propertyLookup (.variable (.text "$o")) (.text name)) []]) := by
  simp only [callOfMethod, Php.programToCore, Php.statementsToCore, Node.toCore,
    Php.argumentsToCore]
  rfl

theorem isWritable_callOfMethod (name : String) : Php.IsWritable (callOfMethod (.text name)) := by
  intro program target hprogram hl
  rw [programToCore_callOfMethod] at hprogram
  obtain rfl := Except.ok.inj hprogram
  obtain rfl : _ = target := Except.ok.inj hl
  rfl

namespace TextConverter

variable {σ : Type}

theorem convertLocally_of_programToCore {t : TextConverter σ} {code : String} (fileName : String)
    {nodes : List Node} {program : Core.Node} (hnodes : t.parser code = .ok nodes)
    (hprogram : Php.programToCore nodes = .ok program) :
    t.convertLocally code fileName = codeOf program := by
  unfold convertLocally read
  rw [hnodes]
  show (Php.programToCore nodes).mapError _ >>= _ = _
  rw [hprogram]
  rfl

/-- **The local conversion of a text**, with a parser that builds trees of the grammar: a text that
is not parsed fails with what the parser reports, and one that is parsed has a code just if its
tree is convertible and its integers are short enough. -/
theorem convertLocally_eq (t : TextConverter σ) (code fileName : String)
    (hshape : ∀ nodes, t.parser code = .ok nodes → ∀ s ∈ nodes, Php.IsStatement s) :
    (∀ r, t.parser code = .error (.report r) →
      t.convertLocally code fileName = .error (.failure (.parse r.message fileName r.line))) ∧
    ∀ nodes, t.parser code = .ok nodes →
      if eachConvertible nodes then
        (Php.IsWritable nodes → ∃ converted, t.convertLocally code fileName = .ok converted) ∧
          (¬ Php.IsWritable nodes →
            t.convertLocally code fileName = .error (.printing .tooManyDigits))
      else ∃ fault, t.convertLocally code fileName = .error (.lowering fault) := by
  refine ⟨?_, ?_⟩
  · intro r hr
    simp only [convertLocally, read, hr, bind, Except.bind]
  · intro nodes hnodes
    obtain ⟨program, hprogram, hcode⟩ := codeOf_programToCore (hshape nodes hnodes)
    rw [convertLocally_of_programToCore fileName hnodes hprogram]
    exact hcode

/-- A call of a method by its name is converted, whatever else reads the text. -/
theorem convertLocally_call_by_name :
    let t : TextConverter Unit := ⟨false, none, fun _ => .ok (callOfMethod (.text "m"))⟩
    (∀ nodes, t.parser "$o->m();" = .ok nodes → ∀ s ∈ nodes, Php.IsStatement s) ∧
      ∃ converted, t.convertLocally "$o->m();" "" = .ok converted := by
  intro t
  have hshape : ∀ nodes, t.parser "$o->m();" = .ok nodes → ∀ s ∈ nodes, Php.IsStatement s := by
    intro nodes hnodes
    cases hnodes
    exact isStatement_callOfMethod _
  refine ⟨hshape, ?_⟩
  have hcode := (t.convertLocally_eq "$o->m();" "" hshape).2 _ rfl
  rw [if_pos (by simp [callOfMethod, eachConvertible, Node.isConvertible])] at hcode
  exact hcode.1 (isWritable_callOfMethod "m")

end TextConverter

end PhpMigration
