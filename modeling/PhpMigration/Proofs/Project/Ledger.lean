/-
What entries do to the record of a conversion.

A record takes any values, but the records that conversions make are of one form: while files are
being settled the counts are whole numbers, the progress is the percentage of the files that are
settled, held at 99, and the failures are a list.  `IsUnderWay` is that form.  An entry that a
conversion makes keeps it or ends the record, and a record that has come to an end is not changed
by any of them.  These are all the facts about the ledger that the proofs about conversions use.
-/
import PhpMigration.Project.Ledger
import PhpMigration.Project.Workshop

namespace PhpMigration

/-- The status says that the conversion has come to an end. -/
def Status.IsFinal (s : Status) : Prop := s = .completed ∨ s = .error ∨ s = .stopped

theorem Status.isTerminal_of_isFinal {s : Status} (h : s.IsFinal) : s.isTerminal = .ok true := by
  rcases h with rfl | rfl | rfl <;> rfl

/-- Whole percent of some files, held at 99. -/
def percent (done total : Nat) : Int := if total = 0 then 0 else min ((done * 100 / total : Nat) : Int) 99

theorem percent_le (done total : Nat) : percent done total ≤ 99 := by
  unfold percent
  by_cases h : total = 0
  · rw [if_pos h]
    omega
  · rw [if_neg h]
    omega

theorem percent_mono (done total : Nat) : percent done total ≤ percent (done + 1) total := by
  unfold percent
  by_cases h : total = 0
  · simp [h]
  · rw [if_neg h, if_neg h]
    have hle : done * 100 / total ≤ (done + 1) * 100 / total :=
      Nat.div_le_div_right (Nat.mul_le_mul_right 100 (Nat.le_succ done))
    omega

theorem percentDone_eq (done total : Nat) :
    percentDone (.int done) (.int total) = .ok (.int (percent done total)) := by
  unfold percentDone percent
  by_cases h : total = 0
  · subst h
    rfl
  · have hpos : Numeral.le (.int total) 0 = false := by
      show (!(Numeral.int total).isNan && !(Numeral.int 0).isNan &&
        !decide ((0 : Int) < total)) = false
      have hlt : (0 : Int) < total := by omega
      rw [decide_eq_true hlt]
      simp
    rw [hpos, if_neg h]
    show Except.ok (Numeral.min (.int ((done : Int) * 100 / total)) (.int 99)) = _
    have hmin : Numeral.min (.int ((done : Int) * 100 / total)) (.int 99) =
        if (99 : Int) < (done : Int) * 100 / total then .int 99
        else .int ((done : Int) * 100 / total) := by
      show (if decide ((99 : Int) < (done : Int) * 100 / total) = true then _ else _) = _
      simp only [decide_eq_true_eq]
    rw [hmin]
    have hcast : ((done * 100 / total : Nat) : Int) = (done : Int) * 100 / total := by
      push_cast
      rfl
    rw [hcast]
    by_cases hlt : (99 : Int) < (done : Int) * 100 / total
    · rw [if_pos hlt, Int.min_eq_right (Int.le_of_lt hlt)]
    · rw [if_neg hlt, Int.min_eq_left (Int.not_lt.mp hlt)]

namespace Value

theorem lesser_int (m n : Int) : (Value.int m).lesser (.int n) = .ok (.int (min m n)) := by
  show Except.ok (if decide (n < m) = true then Value.int n else .int m) = _
  by_cases h : n < m
  · rw [decide_eq_true h, Int.min_eq_right (Int.le_of_lt h)]
    rfl
  · rw [decide_eq_false h, Int.min_eq_left (Int.not_lt.mp h)]
    rfl

theorem greater_int (m n : Int) : (Value.int m).greater (.int n) = .ok (.int (max m n)) := by
  show Except.ok (if decide (m < n) = true then Value.int n else .int m) = _
  by_cases h : m < n
  · rw [decide_eq_true h, Int.max_eq_right (Int.le_of_lt h)]
    rfl
  · rw [decide_eq_false h, Int.max_eq_left (Int.not_lt.mp h)]
    rfl

end Value

/-! ### Records under way -/

/-- The record of a conversion that has settled some of its files. -/
structure Record.IsUnderWay (r : Record) (done total : Nat) (failures : List FileFailure) : Prop where
  status : r.status = .inProgress
  /-- The progress follows from the counts. -/
  progress : r.progress = .int (percent done total)
  completed : r.completed = .int done
  total : r.total = .int total
  failed : r.failed = .list (failures.map FileFailure.toDocument)

theorem withFailure_toDocument (failures : List FileFailure) (f : FileFailure) :
    Ledger.withFailure (.list (failures.map FileFailure.toDocument)) f.toDocument =
      .ok (.list ((failures ++ [f]).map FileFailure.toDocument)) := by
  rw [List.map_append]
  rfl

namespace Record

/-- The record with all of a change but its progress. -/
def changed (r : Record) (c : Change) : Record :=
  { status := c.status.getD r.status
    progress := r.progress
    step := c.step.getD r.step
    completed := c.completed.getD r.completed
    total := c.total.getD r.total
    error := c.error.getD r.error
    failed := c.failed.getD r.failed }

/-- A change that does not touch the progress is merged as it is. -/
theorem merge_of_progress_none (r : Record) {c : Change} (hp : c.progress = none)
    (hs : c.isStrange = false) : r.merge c = .ok (r.changed c) := by
  unfold merge progressAfter withChange
  rw [hp]
  show (if c.isStrange = true then _ else _) = _
  rw [hs]
  rfl

namespace IsUnderWay

variable {r : Record} {done total : Nat} {failures : List FileFailure}

theorem settlement (h : r.IsUnderWay done total failures) (failure : Option FileFailure) :
    Ledger.settlement (failure.map FileFailure.toDocument) r = .ok
      { completed := some (.int (done + 1 : Nat))
        progress := some (.int (percent (done + 1) total))
        failed := failure.map fun f =>
          .list ((failures ++ [f]).map FileFailure.toDocument) } := by
  have hcount : (Numeral.int done).add 1 = .int (done + 1 : Nat) := rfl
  have hcompleted : r.completed.needNumeral = .ok (.int done) := by rw [h.completed]; rfl
  have htotal : r.total.needNumeral = .ok (.int total) := by rw [h.total]; rfl
  unfold Ledger.settlement
  simp only [hcompleted, htotal, bind, Except.bind, hcount, percentDone_eq, h.failed]
  cases failure with
  | none => rfl
  | some f =>
      simp only [Option.map_some, Option.mapM_some, withFailure_toDocument]
      rfl

theorem merge_settlement (h : r.IsUnderWay done total failures) (failed : Option Value) :
    r.merge { completed := some (.int (done + 1 : Nat))
              progress := some (.int (percent (done + 1) total)), failed } = .ok
      { r with
        completed := .int (done + 1 : Nat)
        progress := .int (percent (done + 1) total)
        failed := failed.getD r.failed } := by
  have hafter : r.progressAfter
      { completed := some (.int (done + 1 : Nat))
        progress := some (.int (percent (done + 1) total)), failed } =
        .ok (.int (percent (done + 1) total)) := by
    show (Value.lesser (.int (percent (done + 1) total)) (.int 99) >>= r.progress.greater) = _
    rw [Value.lesser_int, Int.min_eq_left (percent_le _ _), h.progress]
    show Value.greater (.int _) (.int _) = _
    rw [Value.greater_int, Int.max_eq_right (percent_mono done total)]
  unfold merge
  rw [hafter]
  rfl

end IsUnderWay

end Record

/-! ### Entries -/

namespace Ledger

variable {l : Ledger} {project : String} {done total : Nat} {failures : List FileFailure}

theorem get_set (project other : String) (r : Record) :
    Ledger.get (Table.set project r l) other = if other = project then r else l.get other := by
  unfold get
  rw [Table.find?_set]
  by_cases h : other = project
  · rw [if_pos h, if_pos h]
    rfl
  · rw [if_neg h, if_neg h]

theorem has_set (project other : String) (r : Record) :
    Table.has (Table.set project r l) other = (decide (other = project) || Table.has l other) := by
  unfold Table.has
  rw [Table.find?_set]
  by_cases h : other = project <;> simp [h]

/-- A record that has come to an end is not changed. -/
theorem revise_of_isFinal (change : Record → Except Misfit Change)
    (h : (l.get project).status.IsFinal) : l.revise project change = .ok (l.get project, l) := by
  simp only [revise, Status.isTerminal_of_isFinal h]
  rfl

/-- A record under way takes the change that it calls for. -/
theorem revise_of_inProgress {change : Record → Except Misfit Change} {c : Change} {r : Record}
    (h : (l.get project).status = .inProgress) (hc : change (l.get project) = .ok c)
    (hr : (l.get project).merge c = .ok r) :
    l.revise project change = .ok (r, Table.set project r l) := by
  simp only [revise, h, Status.isTerminal, hc]
  show ((l.get project).merge c >>= fun r => _) = _
  rw [hr]
  rfl

theorem update_of_inProgress {c : Change} (h : (l.get project).status = .inProgress)
    (hp : c.progress = none) (hs : c.isStrange = false) :
    l.update project c =
      .ok ((l.get project).changed c, Table.set project ((l.get project).changed c) l) :=
  revise_of_inProgress h rfl (Record.merge_of_progress_none _ hp hs)

theorem settle_of_isUnderWay (h : (l.get project).IsUnderWay done total failures)
    (failure : Option FileFailure) :
    ∃ r, l.settle project (failure.map FileFailure.toDocument) = .ok (r, Table.set project r l) ∧
      r.IsUnderWay (done + 1) total (failures ++ failure.toList) := by
  refine ⟨_, revise_of_inProgress h.status (h.settlement failure) (h.merge_settlement _), ?_⟩
  refine ⟨h.status, rfl, rfl, h.total, ?_⟩
  cases failure with
  | none => simpa using h.failed
  | some f => rfl

theorem complete_of_isUnderWay (h : (l.get project).IsUnderWay done total failures) :
    l.complete project = .ok
      ({ l.get project with status := .completed, progress := .int 100, step := .text "completed" },
       Table.set project { l.get project with
         status := .completed, progress := .int 100, step := .text "completed" } l) := by
  unfold complete update
  refine revise_of_inProgress h.status (show _ = Except.ok _ from rfl) ?_
  show ((l.get project).progress.greater (.int 100) >>= _) = _
  rw [h.progress, Value.greater_int, Int.max_eq_right (Int.le_trans (percent_le _ _) (by decide))]
  rfl

end Ledger

namespace Workshop

variable {σ : Type} {w : Workshop σ} {project : String} {done total : Nat}
  {failures : List FileFailure}

theorem enter_tree (entry : Ledger → Except Misfit (Record × Ledger)) :
    (w.enter entry).2.tree = w.tree := by
  unfold enter
  split <;> rfl

theorem enter_mappings (entry : Ledger → Except Misfit (Record × Ledger)) :
    (w.enter entry).2.mappings = w.mappings := by
  unfold enter
  split <;> rfl

theorem enter_claims (entry : Ledger → Except Misfit (Record × Ledger)) :
    (w.enter entry).2.claims = w.claims := by
  unfold enter
  split <;> rfl

theorem enter_ledger_of_ok {entry : Ledger → Except Misfit (Record × Ledger)} {r : Record}
    {l : Ledger} (h : entry w.ledger = .ok (r, l)) : (w.enter entry).2.ledger = l := by
  unfold enter
  rw [h]

/-- One more file is settled in a record under way. -/
theorem settle_of_isUnderWay (h : (w.record project).IsUnderWay done total failures)
    (failure : Option FileFailure) :
    ((w.settle project (failure.map FileFailure.toDocument)).2.record project).IsUnderWay
      (done + 1) total (failures ++ failure.toList) := by
  obtain ⟨r, hsettle, hr⟩ := Ledger.settle_of_isUnderWay h failure
  unfold settle record
  rw [enter_ledger_of_ok hsettle, Ledger.get_set, if_pos rfl]
  exact hr

/-- A settlement changes nothing of the record but its counts and its failures. -/
theorem settle_record (h : (w.record project).IsUnderWay done total failures)
    (failure : Option FileFailure) :
    (w.settle project (failure.map FileFailure.toDocument)).2.record project =
      { w.record project with
        completed := .int (done + 1 : Nat)
        progress := .int (percent (done + 1) total)
        failed := (failure.map fun f =>
          .list ((failures ++ [f]).map FileFailure.toDocument)).getD (w.record project).failed } := by
  have hsettle : w.ledger.settle project (failure.map FileFailure.toDocument) = .ok (_, _) :=
    Ledger.revise_of_inProgress h.status (h.settlement failure) (h.merge_settlement _)
  unfold settle record
  rw [enter_ledger_of_ok hsettle, Ledger.get_set, if_pos rfl]
  rfl

/-- A record that is in progress has not been stopped. -/
theorem isStopped_of_inProgress (h : (w.record project).status = .inProgress) :
    w.ledger.isStopped project = false := by
  show decide ((w.record project).status = .stopped) = false
  rw [h]
  rfl

/-- The record as it is when the last file of a conversion has been settled. -/
theorem complete_of_isUnderWay (h : (w.record project).IsUnderWay done total failures) :
    (w.complete project).2.record project = { w.record project with
      status := .completed, progress := .int 100, step := .text "completed" } := by
  unfold complete record
  rw [enter_ledger_of_ok (Ledger.complete_of_isUnderWay h), Ledger.get_set, if_pos rfl]

/-- A change that does not touch the progress is entered in a record under way. -/
theorem update_record {c : Change} (h : (w.record project).status = .inProgress)
    (hp : c.progress = none) (hs : c.isStrange = false) :
    (w.enter (Ledger.update project c)).2.record project = (w.record project).changed c := by
  unfold record
  rw [enter_ledger_of_ok (Ledger.update_of_inProgress h hp hs), Ledger.get_set, if_pos rfl]

/-- The record of a conversion that has failed as a whole. -/
theorem fail_record (h : (w.record project).status = .inProgress) (message : String) :
    (w.fail project message).record project = { w.record project with
      status := .error, step := .text "error", error := .text message } :=
  update_record h rfl rfl

/-- A record under way takes a stop if it is there at all, and keeps its counts. -/
theorem stop_record (h : (w.record project).status = .inProgress) :
    (w.stop project).2.record project = w.record project ∨
      (w.stop project).2.record project = { w.record project with
        status := .stopped, step := .text "stopped", error := .text Ledger.stopMessage } := by
  unfold stop
  by_cases hhas : Table.has w.ledger project = true
  · have hstop : Ledger.stop project (.text Ledger.stopMessage) w.ledger =
        w.ledger.update project (Ledger.stopping (.text Ledger.stopMessage)) := if_pos hhas
    rw [if_pos hhas]
    refine .inr ?_
    dsimp only
    unfold record
    rw [enter_ledger_of_ok (hstop.trans (Ledger.update_of_inProgress h rfl rfl)), Ledger.get_set,
      if_pos rfl]
    rfl
  · rw [if_neg hhas]
    exact .inl rfl

theorem stop_of_isFinal (h : (w.record project).status.IsFinal) :
    (w.stop project).2.ledger = w.ledger := by
  unfold stop
  by_cases hhas : Table.has w.ledger project = true
  · rw [if_pos hhas]
    have hstop : Ledger.stop project (.text Ledger.stopMessage) w.ledger =
        .ok (w.record project, w.ledger) := by
      unfold Ledger.stop
      rw [if_pos hhas]
      exact Ledger.revise_of_isFinal _ h
    exact enter_ledger_of_ok hstop
  · rw [if_neg hhas]

/-- An entry does not change a record that has come to an end. -/
theorem enter_revise_of_isFinal (change : Record → Except Misfit Change)
    (h : (w.record project).status.IsFinal) :
    (w.enter fun l => l.revise project change).2.ledger = w.ledger :=
  enter_ledger_of_ok (Ledger.revise_of_isFinal change h)

end Workshop

end PhpMigration
