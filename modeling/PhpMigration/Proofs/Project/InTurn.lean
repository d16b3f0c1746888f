/-
A conversion that takes the files in turn.

The converter that runs makes the moves of the first file that is not settled, over and over.  It
is one of the courses (`course_inTurn`), and as every move makes the weight of what is left
smaller, it makes moves until there is none to make.  Then all files are settled
(`isOver_of_stuck`), unless the program was told to end at one of them.

Whatever the course, it only adds to the files that were there (`Course.grown`).
-/
import PhpMigration.Proofs.Project.Course

namespace PhpMigration

variable {σ : Type}

/-! ### What courses do to the files -/

section

variable {c : Converter σ} {m : Move} {moves : List Move} {trial : Option Trial}
  {trials : List Trial} {r r' : Run} {w w' : Workshop σ}

theorem Converter.deliver_grown (r : Run) (m : Mapping) (code : String) (w : Workshop σ) :
    w.tree.Grown (deliver r m code w).2.tree := by
  rw [deliver_tree]
  exact (Skeleton.built_writeFile _ code w.tree).1.grown

theorem Attempted.grown {file : List String} {result : Except Incident (Mapping × String)}
    (h : Attempted r file w result w') : w.tree.Grown w'.tree := by
  cases h with
  | unread cause => exact .refl _
  | unconverted cause s => exact .refl _
  | unwritten cause content part s =>
      exact Converter.deliver_grown r (.ofFile (Path.join file) content) part { w with service := s }
  | delivered content code s h =>
      have hgrown := Converter.deliver_grown r (.ofFile (Path.join file) content) code
        { w with service := s }
      rw [h] at hgrown
      exact hgrown

theorem Moved.grown (h : Moved c m trial r w r' w') : w.tree.Grown w'.tree := by
  cases h with
  | dispatch h => exact .refl _
  | converted ht h => exact h.grown
  | missed ht h =>
      rw [Converter.afterFailure_tree]
      exact h.grown
  | settle h =>
      rw [Converter.settleFile_tree h]
      exact .refl _

theorem Course.grown (h : Course c r w moves trials r' w') : w.tree.Grown w'.tree := by
  induction h with
  | start => exact .refl _
  | next h hmove ih => exact ih.trans hmove.grown

end

/-! ### The next move -/

namespace Converter

variable {r : Run} {m : Move}

/-- What the next move does with the file that it is about. -/
theorem nextFrom_cases {tasks : List Task} {n : Nat} (h : nextFrom n tasks = some m) :
    ∃ place t, tasks[place]? = some t ∧ (m = .attempt (n + place) ∧ (∃ k, t.standing = .waiting k) ∨
      m = .settle (n + place) ∧
        ((∃ m', t.standing = .converted m') ∨ ∃ cause, t.standing = .failed cause)) := by
  induction tasks generalizing n with
  | nil => cases h
  | cons first rest ih =>
      obtain ⟨file, standing⟩ := first
      have hlater : nextFrom (n + 1) rest = some m → ∃ place t,
          ((⟨file, standing⟩ : Task) :: rest)[place]? = some t ∧
          (m = .attempt (n + place) ∧ (∃ k, t.standing = .waiting k) ∨ m = .settle (n + place) ∧
            ((∃ m', t.standing = .converted m') ∨ ∃ cause, t.standing = .failed cause)) := by
        intro hrest
        obtain ⟨place, t, ht, hcase⟩ := ih hrest
        refine ⟨place + 1, t, ht, ?_⟩
        rwa [show n + (place + 1) = n + 1 + place by omega]
      cases standing with
      | settled => exact hlater h
      | abandoned cause => exact hlater h
      | waiting k =>
          cases h
          exact ⟨0, _, rfl, .inl ⟨rfl, k, rfl⟩⟩
      | converted m' =>
          cases h
          exact ⟨0, _, rfl, .inr ⟨rfl, .inl ⟨m', rfl⟩⟩⟩
      | failed cause =>
          cases h
          exact ⟨0, _, rfl, .inr ⟨rfl, .inr ⟨cause, rfl⟩⟩⟩

theorem all_settled_of_nextFrom {tasks : List Task} {n : Nat} (h : nextFrom n tasks = none)
    (hkept : ∀ t ∈ tasks, t.abandonment? = none) : ∀ t ∈ tasks, t.isSettled = true := by
  induction tasks generalizing n with
  | nil => simp
  | cons first rest ih =>
      obtain ⟨hfirst, hrest⟩ := List.forall_mem_cons.mp hkept
      obtain ⟨file, standing⟩ := first
      cases standing with
      | settled => exact List.forall_mem_cons.mpr ⟨rfl, ih h hrest⟩
      | abandoned cause => cases hfirst
      | waiting k => cases h
      | converted m' => cases h
      | failed cause => cases h

/-- Where no move can be made in turn, no file of the chunk at hand waits for one. -/
theorem nextFrom_of_stuck {c : Converter σ} {w : Workshop σ}
    (hstuck : ((nextMove r).bind fun m => c.step m r w) = none) : nextFrom 0 r.tasks = none := by
  unfold nextMove at hstuck
  cases hnext : nextFrom 0 r.tasks with
  | none => rfl
  | some m =>
      rw [hnext] at hstuck
      obtain ⟨place, t, ht, hcase⟩ := nextFrom_cases hnext
      rw [Nat.zero_add] at hcase
      obtain ⟨file, standing⟩ := t
      exfalso
      rcases hcase with ⟨rfl, k, rfl⟩ | ⟨rfl, ⟨m', rfl⟩ | ⟨cause, rfl⟩⟩
      · have hsome : (c.tryFile place r w).isSome = true := by
          unfold tryFile
          rw [ht]
          dsimp only
          split <;> rfl
        have hnone : c.tryFile place r w = none := hstuck
        rw [hnone] at hsome
        cases hsome
      · have hnone : settleFile place r w = none := hstuck
        unfold settleFile at hnone
        rw [ht] at hnone
        cases hnone
      · have hnone : settleFile place r w = none := hstuck
        unfold settleFile at hnone
        rw [ht] at hnone
        cases hnone

/-- Where no move can be made in turn, all files are settled. -/
theorem isOver_of_stuck {c : Converter σ} {w : Workshop σ}
    (hkept : ∀ t ∈ r.tasks, t.abandonment? = none)
    (hstuck : ((nextMove r).bind fun m => c.step m r w) = none) : r.IsOver := by
  have hnext := nextFrom_of_stuck hstuck
  have hall := all_settled_of_nextFrom hnext hkept
  refine ⟨hall, ?_⟩
  by_contra hqueue
  obtain ⟨r', hr'⟩ := exists_dispatch (w := w) hall hqueue
  unfold nextMove at hstuck
  rw [hnext] at hstuck
  dsimp only at hstuck
  rw [if_neg (mt List.isEmpty_iff.mp hqueue)] at hstuck
  have hnone : (dispatch r w).map (fun r => (r, w)) = none := hstuck
  rw [hr'] at hnone
  cases hnone

/-- **Moves in turn are a course**, and with enough of them there is none left to make. -/
theorem course_inTurn (settings : Settings) (parser : SourceParser) (service : Service σ) (n : Nat)
    (r : Run) (w : Workshop σ) :
    ∃ moves trials, Course (ofService settings parser service) r w moves trials
        ((ofService settings parser service).inTurn n r w).1
        ((ofService settings parser service).inTurn n r w).2 ∧
      (weight settings.maxAttempts r ≤ n →
        ((nextMove ((ofService settings parser service).inTurn n r w).1).bind fun m =>
          (ofService settings parser service).step m
            ((ofService settings parser service).inTurn n r w).1
            ((ofService settings parser service).inTurn n r w).2) = none) := by
  induction n generalizing r w with
  | zero =>
      refine ⟨[], [], .start, ?_⟩
      intro hweight
      show ((nextMove r).bind fun m => (ofService settings parser service).step m r w) = none
      cases hstep : (nextMove r).bind fun m => (ofService settings parser service).step m r w with
      | none => rfl
      | some next =>
          obtain ⟨m, -, hm⟩ := Option.bind_eq_some_iff.mp hstep
          obtain ⟨trial, hmoved⟩ := moved_of_step settings parser service hm
          have hlt : _ < weight settings.maxAttempts r := hmoved.weight_lt
          omega
  | succ n ih =>
      rw [inTurn]
      cases hstep : (nextMove r).bind fun m => (ofService settings parser service).step m r w with
      | none => exact ⟨[], [], .start, fun _ => hstep⟩
      | some next =>
          obtain ⟨r₁, w₁⟩ := next
          obtain ⟨m, -, hm⟩ := Option.bind_eq_some_iff.mp hstep
          obtain ⟨trial, hmoved⟩ := moved_of_step settings parser service hm
          have hlt : weight settings.maxAttempts r₁ < weight settings.maxAttempts r :=
            hmoved.weight_lt
          obtain ⟨moves, trials, hcourse, hstuck⟩ := ih r₁ w₁
          exact ⟨_, _, (Course.start.next hmoved).trans hcourse, fun hweight =>
            hstuck (by omega)⟩

end Converter

end PhpMigration
