/-
Several conversions of one project, in any order of their moves.

A project may be started again as soon as its record has come to an end, and a stop ends the record
at once, while files of the stopped conversion may still be attempted.  So two conversions of a
project can be under way at the same time, and both make their entries in the one record that the
project has.  An act is what one of them, or somebody who asks for a start or a stop, does at a
time; whatever is not about the record of the project may change in between.

Beside the workshop it is noted what no program looks at: how far each conversion has come, whose
settlements the record counts, whether a conversion was stopped, and how many chunks it has
dispatched since.  The record belongs to the last conversion that was begun.
-/
import PhpMigration.Proofs.Project.Begin

namespace PhpMigration

variable {σ : Type}

/-- How far one of the conversions of a project has come. -/
inductive Phase where
  /-- Its record has been begun. -/
  | begun
  | moving (run : Run)
  | ended

/-- One of the conversions of a project. -/
structure Venture where
  phase : Phase := .begun
  /-- The number of the files that it has found. -/
  files : Option Nat := none
  /-- The number of the files that it has settled. -/
  settled : Nat := 0
  /-- Its record was stopped while it was under way. -/
  wasStopped : Bool := false
  /-- The chunks that it has dispatched after that. -/
  late : Nat := 0

/-- The settlements that a move makes. -/
def Move.settlements : Move → Nat
  | .settle _ => 1
  | .dispatch | .attempt _ => 0

namespace Venture

/-- The conversion has still something to do.  One that was told to end only has the other files of
its chunk. -/
def IsUnderWay (v : Venture) : Prop :=
  match v.phase with
  | .begun => True
  | .moving r =>
    r.tasks.findSome? Task.abandonment? = none ∨ Converter.nextFrom 0 r.tasks ≠ none
  | .ended => False

/-- The conversion after a move that left it at `r`. -/
def after (v : Venture) (m : Move) (r : Run) : Venture :=
  { v with
    phase := .moving r
    settled := v.settled + m.settlements
    late := if m = .dispatch ∧ v.wasStopped = true ∧ r.tasks ≠ [] then v.late + 1 else v.late }

end Venture

/-- The conversions of a project and what they share. -/
structure Conversions (σ : Type) where
  workshop : Workshop σ
  ventures : List Venture := []
  /-- By whom the settlements were made that the record of the project counts. -/
  counted : List Nat := []

namespace Conversions

variable (s : Conversions σ) (project : String)

/-- The record of the project. -/
def record : Record := s.workshop.record project

/-- The conversions after a change of the workshop and of one of them; a settlement is noted if it
is counted. -/
def advance (i : Nat) (v : Venture) (w : Workshop σ) : Conversions σ :=
  { workshop := w
    ventures := s.ventures.set i v
    counted :=
      if (w.record project).completed = (s.record project).completed then s.counted
      else s.counted ++ [i] }

/-- The conversions after a request to stop, which is noted of the last one if it ends the record. -/
def stop : Conversions σ :=
  let w := (s.workshop.stop project).2
  { s with
    workshop := w
    ventures :=
      if (s.record project).status ≠ .stopped ∧ (w.record project).status = .stopped then
        s.ventures.modify (s.ventures.length - 1) fun v => { v with wasStopped := true }
      else s.ventures }

/-- **What the runs of a project owe to each other.** -/
structure IsIsolated : Prop where
  /-- All settlements in the record were made by the conversion that it belongs to. -/
  own : ∀ i ∈ s.counted, i + 1 = s.ventures.length
  /-- The record counts them, and no more than there are files. -/
  counts : ∃ total : Nat, (s.record project).completed = .int s.counted.length ∧
    (s.record project).total = .int total ∧ s.counted.length ≤ total
  /-- A record that is completed belongs to a conversion that has settled all its files. -/
  whole : (s.record project).status = .completed →
    ∃ v, s.ventures.getLast? = some v ∧ v.files = some v.settled
  /-- No conversion has dispatched a chunk after it was stopped. -/
  obeyed : ∀ v ∈ s.ventures, v.late = 0

end Conversions

/-- A start is accepted: it puts a fresh record in place of one that is not there or has come to an
end. -/
inductive Began (project : String) : Conversions σ → Conversions σ → Prop
  | accepted {s : Conversions σ} {count : Option Nat} {w : Workshop σ}
      (h : Converter.beginRecord project (announcement count) s.workshop = (.ok (), w)) :
      Began project s { workshop := w, ventures := s.ventures ++ [{}], counted := [] }

/-- What can happen at a time.  If the conversions are to be kept `apart`, a start is only asked
for when none of them is under way. -/
inductive Acted (c : Converter σ) (project : String) (apart : Bool) :
    Conversions σ → Conversions σ → Prop
  | start {s s' : Conversions σ} (h : Began project s s')
      (hapart : apart = true → ∀ v ∈ s.ventures, ¬ v.IsUnderWay) : Acted c project apart s s'
  | refused {s : Conversions σ} {count : Option Nat} {incident : Incident} {w : Workshop σ}
      (h : Converter.beginRecord project (announcement count) s.workshop = (.error incident, w)) :
      Acted c project apart s { s with workshop := w }
  | prepared {s : Conversions σ} {i : Nat} {v : Venture} {r : Run} {w : Workshop σ}
      (hv : s.ventures[i]? = some v) (hphase : v.phase = .begun)
      (h : c.prepare project s.workshop = (.ok r, w)) :
      Acted c project apart s
        (s.advance project i { v with phase := .moving r, files := some r.left } w)
  | failed {s : Conversions σ} {i : Nat} {v : Venture} {incident : Incident} {w : Workshop σ}
      (hv : s.ventures[i]? = some v) (hphase : v.phase = .begun)
      (h : c.prepare project s.workshop = (.error incident, w)) :
      Acted c project apart s (s.advance project i { v with phase := .ended }
        (w.fail project (Converter.lastWords incident)))
  | move {s : Conversions σ} {i : Nat} {v : Venture} {r r' : Run} {m : Move}
      {trial : Option Trial} {w : Workshop σ} (hv : s.ventures[i]? = some v)
      (hphase : v.phase = .moving r) (h : Moved c m trial r s.workshop r' w) :
      Acted c project apart s (s.advance project i (v.after m r') w)
  | finish {s : Conversions σ} {i : Nat} {v : Venture} {r : Run} (hv : s.ventures[i]? = some v)
      (hphase : v.phase = .moving r) (hmoves : Converter.nextMove r = none)
      (hkept : r.tasks.findSome? Task.abandonment? = none) :
      Acted c project apart s (s.advance project i { v with phase := .ended }
        (Converter.conclude project s.workshop).2)
  | stop {s : Conversions σ} : Acted c project apart s (s.stop project)
  | elsewhere {s : Conversions σ} {w : Workshop σ}
      (h : Table.find? w.ledger project = Table.find? s.workshop.ledger project) :
      Acted c project apart s { s with workshop := w }

/-- Acts follow each other. -/
inductive Reached (c : Converter σ) (project : String) (apart : Bool) (s : Conversions σ) :
    Conversions σ → Prop
  | here : Reached c project apart s s
  | next {s₁ s₂ : Conversions σ} (h : Reached c project apart s s₁)
      (hact : Acted c project apart s₁ s₂) : Reached c project apart s s₂

theorem Reached.trans {c : Converter σ} {project : String} {apart : Bool}
    {s s₁ s₂ : Conversions σ} (h : Reached c project apart s s₁)
    (h' : Reached c project apart s₁ s₂) : Reached c project apart s s₂ := by
  induction h' with
  | here => exact h
  | next _ hact ih => exact ih.next hact

/-! ### What a move does to the record -/

section Moves

variable {c : Converter σ} {m : Move} {trial : Option Trial} {r r' : Run} {w w' : Workshop σ}

theorem Moved.project (h : Moved c m trial r w r' w') : r'.project = r.project := by
  cases h with
  | dispatch h =>
      obtain ⟨-, chunk, rest, -, ⟨-, rfl⟩ | ⟨-, rfl⟩⟩ := Converter.dispatch_cases h <;> rfl
  | converted ht h => rfl
  | missed ht h => rfl
  | settle h =>
      obtain ⟨file, rfl⟩ := Converter.settleFile_run h
      rfl

theorem Moved.output (h : Moved c m trial r w r' w') : r'.output = r.output := by
  cases h with
  | dispatch h =>
      obtain ⟨-, chunk, rest, -, ⟨-, rfl⟩ | ⟨-, rfl⟩⟩ := Converter.dispatch_cases h <;> rfl
  | converted ht h => rfl
  | missed ht h => rfl
  | settle h =>
      obtain ⟨file, rfl⟩ := Converter.settleFile_run h
      rfl

/-- The only entry that a move makes is a settlement. -/
theorem Moved.ledger_cases (h : Moved c m trial r w r' w') :
    (m.settlements = 0 ∧ w'.ledger = w.ledger) ∨
      ∃ (w₁ : Workshop σ) (failure : Option FileFailure), m.settlements = 1 ∧
        w₁.ledger = w.ledger ∧
        w' = (w₁.settle r.project (failure.map FileFailure.toDocument)).2 := by
  cases h with
  | dispatch h => exact .inl ⟨rfl, rfl⟩
  | converted ht h => exact .inl ⟨rfl, h.ledger⟩
  | missed ht h => exact .inl ⟨rfl, by rw [Converter.afterFailure_ledger, h.ledger]⟩
  | settle h =>
      rcases Converter.settleFile_cases h with ⟨file, m, -, -, rfl⟩ | ⟨file, cause, -, -, rfl⟩
      · exact .inr ⟨w.addMapping r.project m, none, rfl, rfl, rfl⟩
      · exact .inr ⟨w, some ⟨Path.join file, cause.text⟩, rfl, rfl, rfl⟩

/-- A settlement takes one file off those that are left.  Nothing else does, unless the conversion
was stopped. -/
theorem Moved.left (h : Moved c m trial r w r' w')
    (hstopped : (w.record r.project).status ≠ .stopped) : r.left = r'.left + m.settlements := by
  cases h with
  | dispatch h =>
      obtain ⟨hall, chunk, rest, hqueue, hcase⟩ := Converter.dispatch_cases h
      rcases hcase with ⟨hstop, -⟩ | ⟨-, rfl⟩
      · exact absurd (of_decide_eq_true hstop) hstopped
      · have hnone : r.tasks.countP (!·.isSettled) = 0 := by
          rw [List.countP_eq_zero]
          intro t ht
          simp [List.all_eq_true.mp hall t ht]
        have hwaiting : (chunk.map fun file => (⟨file, .waiting 1⟩ : Task)).countP
            (!·.isSettled) = chunk.length := by
          rw [List.countP_map, List.countP_eq_length.mpr]
          intro file _
          rfl
        unfold Run.left
        dsimp only
        rw [hnone, hwaiting, hqueue, List.flatten_cons, List.length_append]
        show _ = _ + 0
        omega
  | converted ht h => exact Run.left_setStanding ht rfl _
  | missed ht h =>
      rename_i w₁ place n file cause
      have hopen : (⟨file, (c.afterFailure n cause w₁).1⟩ : Task).isSettled = false := by
        unfold Converter.afterFailure
        by_cases hinterrupted : cause.isInterruption = true
        · rw [if_pos hinterrupted]
          rfl
        · rw [if_neg hinterrupted]
          cases c.settings.retryPolicy.again? n cause <;> rfl
      have hleft := Run.left_setStanding ht rfl (c.afterFailure n cause w₁).1
      rw [hopen] at hleft
      exact hleft
  | settle h =>
      rcases Converter.settleFile_cases h with
        ⟨file, m, ht, rfl, -⟩ | ⟨file, cause, ht, rfl, -⟩
      · exact Run.left_setStanding ht rfl _
      · exact Run.left_setStanding ht rfl _

/-- A move keeps a record under way, which counts the settlement if there is one. -/
theorem Moved.isUnderWay {done total : Nat} {failures : List FileFailure}
    (h : Moved c m trial r w r' w')
    (hr : (w.record r.project).IsUnderWay done total failures) :
    ∃ failures, (w'.record r.project).IsUnderWay (done + m.settlements) total failures := by
  rcases h.ledger_cases with ⟨hzero, hledger⟩ | ⟨w₁, failure, hone, hledger, rfl⟩
  · refine ⟨failures, ?_⟩
    rw [hzero]
    unfold Workshop.record at hr ⊢
    rw [hledger]
    exact hr
  · refine ⟨failures ++ failure.toList, ?_⟩
    rw [hone]
    refine Workshop.settle_of_isUnderWay ?_ failure
    unfold Workshop.record at hr ⊢
    rw [hledger]
    exact hr

/-- A record that has come to an end is not changed by a move. -/
theorem Moved.record_of_isFinal (h : Moved c m trial r w r' w')
    (hr : (w.record r.project).status.IsFinal) :
    w'.record r.project = w.record r.project := by
  rcases h.ledger_cases with ⟨-, hledger⟩ | ⟨w₁, failure, -, hledger, rfl⟩
  · unfold Workshop.record
    rw [hledger]
  · unfold Workshop.record at hr ⊢
    rw [← hledger] at hr ⊢
    exact congrArg (Ledger.get · r.project) (Workshop.enter_revise_of_isFinal _ hr)

/-- The file at a place that a move is about is not settled, and the program was not told to end at
it, so the conversion has something to do. -/
theorem nextFrom_ne_none {tasks : List Task} {place : Nat} {t : Task}
    (ht : tasks[place]? = some t) (hsettled : t.isSettled = false)
    (hkept : t.abandonment? = none) (n : Nat) : Converter.nextFrom n tasks ≠ none := by
  induction tasks generalizing place n with
  | nil => cases ht
  | cons first rest ih =>
      obtain ⟨file, standing⟩ := first
      cases place with
      | zero =>
          cases ht
          cases standing with
          | settled => cases hsettled
          | abandoned cause => cases hkept
          | _ => simp [Converter.nextFrom]
      | succ place =>
          cases standing with
          | settled => exact ih ht (n + 1)
          | abandoned cause => exact ih ht (n + 1)
          | _ => simp [Converter.nextFrom]

/-- When there is nothing to do and no file was abandoned, all files have been settled. -/
theorem isSettled_of_nextFrom {tasks : List Task} (hnext : Converter.nextFrom 0 tasks = none)
    (hkept : tasks.findSome? Task.abandonment? = none) : ∀ t ∈ tasks, t.isSettled = true := by
  intro t ht
  obtain ⟨place, hplace⟩ := List.mem_iff_getElem?.mp ht
  by_cases hsettled : t.isSettled = true
  · exact hsettled
  · exact absurd hnext (nextFrom_ne_none hplace (Bool.eq_false_iff.mpr hsettled)
      (List.findSome?_eq_none_iff.mp hkept t ht) 0)

/-- Only a conversion that is under way makes moves. -/
theorem Moved.venture_isUnderWay (h : Moved c m trial r w r' w') {v : Venture}
    (hphase : v.phase = .moving r) : v.IsUnderWay := by
  unfold Venture.IsUnderWay
  rw [hphase]
  cases h with
  | dispatch h =>
      left
      rw [List.findSome?_eq_none_iff]
      intro t ht
      have hsettled := List.all_eq_true.mp (Converter.dispatch_cases h).1 t ht
      obtain ⟨file, standing⟩ := t
      cases standing with
      | settled => rfl
      | _ => cases hsettled
  | converted ht h => exact .inr (nextFrom_ne_none ht rfl rfl 0)
  | missed ht h => exact .inr (nextFrom_ne_none ht rfl rfl 0)
  | settle h =>
      rcases Converter.settleFile_cases h with ⟨file, m, ht, -, -⟩ | ⟨file, cause, ht, -, -⟩
      · exact .inr (nextFrom_ne_none ht rfl rfl 0)
      · exact .inr (nextFrom_ne_none ht rfl rfl 0)

/-- A conversion that was stopped dispatches no more files. -/
theorem Moved.tasks_of_isStopped (h : Moved c .dispatch trial r w r' w')
    (hstopped : (w.record r.project).status = .stopped) : r'.tasks = [] := by
  cases h with
  | dispatch h =>
      obtain ⟨-, chunk, rest, -, ⟨-, rfl⟩ | ⟨hno, -⟩⟩ := Converter.dispatch_cases h
      · rfl
      · exact absurd (of_decide_eq_false hno) (fun hne => hne hstopped)

end Moves

end PhpMigration
