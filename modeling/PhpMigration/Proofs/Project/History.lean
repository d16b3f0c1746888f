/-
What a ledger keeps over a whole history of operations.

The operations on the records of projects may come in any order, and what they enter may be any
numbers: the total of the files may change while they are settled, even to less than none.  Beside
the ledger it is noted of each project how often its record was begun anew or forgotten, and which
settlements came since then while the record had not come to an end.

What carries everything is `Record.IsKept`.  An operation that neither begins the record anew nor
forgets it is one of a few changes, and all of them are merged in the same way (`merge_int`): a
progress below 100 is held there, and one that is greater than before is taken, unless the change
completes the conversion.
-/
import PhpMigration.Proofs.Project.Ledger

namespace PhpMigration

/-! ### Operations -/

/-- A failure as it may be entered: an object, in which no name stands twice. -/
structure FailureNote where
  members : Table Value
  nodup : members.names.Nodup

/-- The failure as a record lists it. -/
def FailureNote.value (f : FailureNote) : Value := .object f.members

/-- What can be entered into the record of a project, as it is or as a fresh one. -/
inductive Revision where
  | update (progress : Option Int) (step : Option Value) (total : Option Int)
  | settle (failure : Option FailureNote)
  | fail (message : Value)
  | complete
  | stop (message : Value)

namespace Revision

/-- The record that is answered, and the ledger after it. -/
def apply (project : String) (l : Ledger) : Revision → Except Misfit (Record × Ledger)
  | .update progress step total => l.update project
      { progress := progress.map Value.int, step, total := total.map Value.int }
  | .settle failure => l.settle project (failure.map FailureNote.value)
  | .fail message => l.fail project message
  | .complete => l.complete project
  | .stop message => l.stop project message

/-- The change that is merged into a record which is there. -/
def change : Revision → Record → Except Misfit Change
  | .update progress step total => fun _ => .ok
      { progress := progress.map Value.int, step, total := total.map Value.int }
  | .settle failure => Ledger.settlement (failure.map FailureNote.value)
  | .fail message => fun _ => .ok
      { status := some .error, step := some (.text "error"), error := some message }
  | .complete => fun _ => .ok
      { status := some .completed, progress := some (.int 100), step := some (.text "completed") }
  | .stop message => fun _ => .ok (Ledger.stopping message)

/-- The settlement that is entered, if it is one. -/
def settlement? : Revision → Option (Option FailureNote)
  | .settle failure => some failure
  | .update .. | .fail _ | .complete | .stop _ => none

/-- A revision merges its change into the record, unless it stops a project that has none. -/
theorem apply_eq (rev : Revision) (project : String) (current : Option Record) :
    (∀ l : Ledger, Table.find? l project = current →
        rev.apply project l = l.revise project rev.change) ∨
      rev.settlement? = none ∧ ∀ l : Ledger, Table.find? l project = current →
        ∃ answer, rev.apply project l = .ok (answer, l) := by
  cases rev with
  | stop message =>
      cases current with
      | none =>
          refine .inr ⟨rfl, fun l hl => ?_⟩
          have hnone : ¬ Table.has l project = true := by
            unfold Table.has
            rw [hl]
            exact Bool.false_ne_true
          show ∃ answer, Ledger.stop project message l = .ok (answer, l)
          unfold Ledger.stop
          rw [if_neg hnone]
          exact ⟨_, rfl⟩
      | some r =>
          refine .inl fun l hl => ?_
          have hsome : Table.has l project = true := by
            unfold Table.has
            rw [hl]
            rfl
          show Ledger.stop project message l = _
          unfold Ledger.stop
          rw [if_pos hsome]
          rfl
  | _ => exact .inl fun l _ => rfl

end Revision

/-- What can be done with the records of projects. -/
inductive LedgerOperation where
  | create (project : String) (total : Option Int)
  | revise (project : String) (revision : Revision)
  | get (project : String)
  /-- Of all projects, if none is named. -/
  | clear (project : Option String)

/-- The ledger that an operation leaves behind; one that is a misfit changes nothing. -/
def Ledger.afterwards {α : Type} (l : Ledger) : Except Misfit (α × Ledger) → Ledger
  | .ok (_, l) => l
  | .error _ => l

namespace LedgerOperation

/-- The record that is answered, if any, and the ledger after it. -/
def apply (l : Ledger) : LedgerOperation → Except Misfit (Option Record × Ledger)
  | .create project total => l.create project { total := total.map Value.int }
  | .revise project rev => (rev.apply project l).map fun (r, l) => (some r, l)
  | .get project => .ok (some (l.get project), l)
  | .clear project => .ok (none, l.clear project)

/-- The ledger after an operation. -/
def after (l : Ledger) (op : LedgerOperation) : Ledger := l.afterwards (op.apply l)

/-- The operation is one on the record of a project. -/
def concerns (project : String) : LedgerOperation → Bool
  | .create p _ | .revise p _ | .get p | .clear (some p) => decide (p = project)
  | .clear none => true

/-- The record of a project is begun anew or forgotten: a create is answered by a record. -/
def renews (l : Ledger) (project : String) : LedgerOperation → Bool
  | .create p total => decide (p = project) &&
    match (create p total).apply l with
    | .ok (some _, _) => true
    | _ => false
  | .clear none => true
  | .clear (some p) => decide (p = project)
  | .revise .. | .get _ => false

/-- The settlement of a file of a project, if the operation is one. -/
def settlement? (project : String) : LedgerOperation → Option (Option FailureNote)
  | .revise p rev => if p = project then rev.settlement? else none
  | .create .. | .get _ | .clear _ => none

end LedgerOperation

instance (s : Status) : Decidable s.IsFinal :=
  inferInstanceAs (Decidable (s = .completed ∨ s = .error ∨ s = .stopped))

/-- A ledger and what has been noted of each project. -/
structure Chronicle where
  ledger : Ledger := []
  /-- How often the record was begun anew or forgotten. -/
  renewals : String → Nat := fun _ => 0
  /-- The settlements since then that came while the record had not come to an end. -/
  settled : String → List (Option FailureNote) := fun _ => []

namespace Chronicle

/-- The chronicle after an operation. -/
def step (ch : Chronicle) (op : LedgerOperation) : Chronicle :=
  { ledger := op.after ch.ledger
    renewals := fun project =>
      if op.renews ch.ledger project then ch.renewals project + 1 else ch.renewals project
    settled := fun project =>
      if op.renews ch.ledger project then []
      else if (ch.ledger.get project).status.IsFinal then ch.settled project
      else ch.settled project ++ (op.settlement? project).toList }

/-- The chronicle of some operations, one after another. -/
def ofHistory (ops : List LedgerOperation) : Chronicle := ops.foldl step {}

end Chronicle

theorem withFailure_value (failures : List Value) (f : FailureNote) :
    Ledger.withFailure (.list failures) f.value = .ok (.list (failures ++ [f.value])) := by
  have hcopy : Table.update [] f.members = f.members := Table.update_of_nodup [] f.members f.nodup
  show Except.ok (Value.list (failures ++ [.object (Table.update [] f.members)])) = _
  rw [hcopy]
  rfl

/-! ### One record -/

/-- What holds of the record of a project with so many settlements. -/
structure Record.IsKept (r : Record) (settled : List (Option FailureNote)) : Prop where
  status : r.status = .inProgress ∨ r.status.IsFinal
  progress : ∃ n : Int, r.progress = .int n ∧ 0 ≤ n ∧ n ≤ 100 ∧ (n = 100 ↔ r.status = .completed)
  completed : r.completed = .int settled.length
  total : ∃ n : Int, r.total = .int n
  failed : r.failed = .list (settled.filterMap fun failure => failure.map FailureNote.value)

/-- The record comes after another one of the same project: its progress is no less, and it is the
same if that one had come to an end. -/
structure Record.Follows (r' r : Record) : Prop where
  progress : ∃ m n : Int, r.progress = .int m ∧ r'.progress = .int n ∧ m ≤ n
  unchanged : r.status.IsFinal → r' = r

theorem Record.IsKept.follows_self {r : Record} {settled : List (Option FailureNote)}
    (h : r.IsKept settled) : r.Follows r := by
  obtain ⟨n, hn, -⟩ := h.progress
  exact ⟨⟨n, n, hn, hn, Int.le_refl n⟩, fun _ => rfl⟩

theorem Record.Follows.trans {r r' r'' : Record} (h : r''.Follows r') (h' : r'.Follows r) :
    r''.Follows r := by
  obtain ⟨m, n, hm, hn, hmn⟩ := h'.progress
  obtain ⟨n', k, hn', hk, hnk⟩ := h.progress
  rw [hn] at hn'
  cases hn'
  refine ⟨⟨m, k, hm, hk, Int.le_trans hmn hnk⟩, fun hfinal => ?_⟩
  have hsame := h'.unchanged hfinal
  rw [h.unchanged (by rw [hsame]; exact hfinal), hsame]

theorem percentDone_int (done total : Int) :
    ∃ n ≤ 99, percentDone (.int done) (.int total) = .ok (.int n) := by
  unfold percentDone
  cases Numeral.le (.int total) 0 with
  | true => exact ⟨0, by decide, rfl⟩
  | false =>
      rw [if_neg Bool.false_ne_true]
      show ∃ n ≤ 99, Except.ok (if decide ((99 : Int) < done * 100 / total) = true then Numeral.int 99
        else .int (done * 100 / total)) = _
      by_cases h : (99 : Int) < done * 100 / total
      · exact ⟨99, Int.le_refl 99, by rw [if_pos (decide_eq_true h)]⟩
      · refine ⟨done * 100 / total, by omega, ?_⟩
        rw [if_neg (by rw [decide_eq_false h]; exact Bool.false_ne_true)]

namespace Record

/-- A change that does not complete the conversion leaves the progress below 100, and no less than it
was. -/
theorem merge_int {r : Record} {n : Int} (hn : r.progress = .int n) (hle : n ≤ 99) {c : Change}
    {p : Option Int} (hp : c.progress = p.map Value.int) (hs : c.isStrange = false)
    (hc : c.status ≠ some .completed) :
    ∃ k : Int, n ≤ k ∧ k ≤ 99 ∧ r.merge c = .ok { r.changed c with progress := .int k } := by
  cases p with
  | none =>
      refine ⟨n, Int.le_refl n, hle, ?_⟩
      rw [merge_of_progress_none r hp hs, ← hn]
      rfl
  | some p =>
      have hafter : r.progressAfter c = .ok (.int (max n (min p 99))) := by
        unfold progressAfter
        rw [hp]
        dsimp only [Option.map]
        rw [if_neg hc, Value.lesser_int, hn]
        exact Value.greater_int n (min p 99)
      refine ⟨max n (min p 99), by omega, by omega, ?_⟩
      unfold merge
      rw [hafter]
      show r.withChange c _ = _
      unfold withChange
      rw [hs]
      rfl

/-- The change that completes the conversion takes the progress to 100. -/
theorem merge_completion {r : Record} {n : Int} (hn : r.progress = .int n) (hle : n ≤ 99) :
    r.merge { status := some .completed, progress := some (.int 100),
              step := some (.text "completed") } =
      .ok { r with status := .completed, progress := .int 100, step := .text "completed" } := by
  show (r.progress.greater (.int 100) >>= _) = _
  rw [hn, Value.greater_int, Int.max_eq_right (by omega)]
  rfl

theorem isKept_fresh (total : Option Int) (step : Value) :
    ({ total := (total.map Value.int).getD (.int 0), step } : Record).IsKept [] where
  status := .inl rfl
  progress := ⟨0, rfl, by decide, by decide, iff_of_false (by decide) nofun⟩
  completed := rfl
  total := by cases total <;> exact ⟨_, rfl⟩
  failed := rfl

end Record

/-- What a revision may enter into a record that has not come to an end, and the settlement that it
is. -/
inductive Change.IsEntry (settled : List (Option FailureNote)) :
    Change → Option (Option FailureNote) → Prop
  | update (progress : Option Int) (step : Option Value) (total : Option Int) :
      IsEntry settled
        { progress := progress.map Value.int, step, total := total.map Value.int } none
  | settle {progress : Int} (failure : Option FailureNote) (h : progress ≤ 99) :
      IsEntry settled
        { completed := some (.int (settled.length + 1 : Nat)), progress := some (.int progress)
          failed := failure.map fun f => .list
            (settled.filterMap (fun failure => failure.map FailureNote.value) ++ [f.value]) }
        (some failure)
  | complete : IsEntry settled
      { status := some .completed, progress := some (.int 100), step := some (.text "completed") }
      none
  | fail (message : Value) : IsEntry settled
      { status := some .error, step := some (.text "error"), error := some message } none
  | stop (message : Value) : IsEntry settled (Ledger.stopping message) none

namespace Record.IsKept

variable {r : Record} {settled : List (Option FailureNote)} {c : Change}
  {noted : Option (Option FailureNote)}

/-- A revision of a record is such an entry. -/
theorem exists_isEntry (h : r.IsKept settled) (rev : Revision) :
    ∃ c, rev.change r = .ok c ∧ c.IsEntry settled rev.settlement? := by
  cases rev with
  | settle failure =>
      obtain ⟨total, htotal⟩ := h.total
      obtain ⟨progress, hprogress, hpercent⟩ := percentDone_int (settled.length + 1 : Nat) total
      have hcount : r.completed.needNumeral = .ok (.int settled.length) := by
        rw [h.completed]
        rfl
      have hall : r.total.needNumeral = .ok (.int total) := by
        rw [htotal]
        rfl
      have hadd : (Numeral.int settled.length).add 1 = .int (settled.length + 1 : Nat) := rfl
      refine ⟨_, ?_, .settle failure hprogress⟩
      unfold Revision.change Ledger.settlement
      simp only [hcount, hall, bind, Except.bind, hadd, hpercent, h.failed]
      cases failure with
      | none => rfl
      | some f =>
          simp only [Option.map_some, Option.mapM_some, withFailure_value]
          rfl
  | update progress step total => exact ⟨_, rfl, .update progress step total⟩
  | fail message => exact ⟨_, rfl, .fail message⟩
  | complete => exact ⟨_, rfl, .complete⟩
  | stop message => exact ⟨_, rfl, .stop message⟩

/-- An entry is merged into a record, which is kept by it and comes after what it was before. -/
theorem merge (h : r.IsKept settled) (hr : r.status = .inProgress)
    (hc : c.IsEntry settled noted) :
    ∃ r', r.merge c = .ok r' ∧ r'.IsKept (settled ++ noted.toList) ∧ r'.Follows r := by
  obtain ⟨n, hn, hnonneg, hmost, hwhole⟩ := h.progress
  have hopen : r.status ≠ .completed := by
    rw [hr]
    exact nofun
  have hle : n ≤ 99 := by
    rcases Int.lt_or_eq_of_le hmost with hlt | heq
    · omega
    · exact absurd (hwhole.mp heq) hopen
  have hfollows : ∀ {r' : Record} {k : Int}, r'.progress = .int k → n ≤ k → r'.Follows r := by
    intro r' k hk hnk
    refine ⟨⟨n, k, hn, hk, hnk⟩, fun hfinal => ?_⟩
    rw [hr] at hfinal
    exact absurd hfinal (by decide)
  have hnothing : settled ++ (none : Option (Option FailureNote)).toList = settled :=
    List.append_nil settled
  have hmerge : c.status ≠ some .completed →
      ∃ k : Int, n ≤ k ∧ k ≤ 99 ∧ r.merge c = .ok { r.changed c with progress := .int k } := by
    obtain ⟨p, hp⟩ : ∃ p : Option Int, c.progress = p.map Value.int := by
      cases hc with
      | update progress step total => exact ⟨progress, rfl⟩
      | settle failure h => exact ⟨some _, rfl⟩
      | complete => exact ⟨some 100, rfl⟩
      | fail message => exact ⟨none, rfl⟩
      | stop message => exact ⟨none, rfl⟩
    exact Record.merge_int hn hle hp (by cases hc <;> rfl)
  cases hc with
  | update progress step total =>
      rw [hnothing]
      obtain ⟨k, hnk, hk, hmerge⟩ := hmerge nofun
      refine ⟨_, hmerge, ⟨.inl hr, ⟨k, rfl, by omega, by omega, iff_of_false (by omega) hopen⟩,
        h.completed, ?_, h.failed⟩, hfollows rfl hnk⟩
      cases total with
      | none => exact h.total
      | some m => exact ⟨m, rfl⟩
  | settle failure hprogress =>
      obtain ⟨k, hnk, hk, hmerge⟩ := hmerge nofun
      refine ⟨_, hmerge, ⟨.inl hr, ⟨k, rfl, by omega, by omega, iff_of_false (by omega) hopen⟩,
        ?_, h.total, ?_⟩, hfollows rfl hnk⟩
      · show _ = Value.int (settled ++ [failure]).length
        rw [List.length_append]
        rfl
      · show _ = Value.list ((settled ++ [failure]).filterMap _)
        rw [List.filterMap_append]
        cases failure with
        | none =>
            show r.failed = _
            rw [h.failed]
            simp
        | some f => rfl
  | complete =>
      rw [hnothing]
      exact ⟨_, Record.merge_completion hn hle, ⟨.inr (.inl rfl),
        ⟨100, rfl, by decide, by decide, iff_of_true rfl rfl⟩, h.completed, h.total, h.failed⟩,
        hfollows rfl (by omega)⟩
  | fail message =>
      rw [hnothing]
      obtain ⟨k, hnk, hk, hmerge⟩ := hmerge nofun
      exact ⟨_, hmerge, ⟨.inr (.inr (.inl rfl)),
        ⟨k, rfl, by omega, by omega, iff_of_false (by omega) nofun⟩, h.completed, h.total, h.failed⟩,
        hfollows rfl hnk⟩
  | stop message =>
      rw [hnothing]
      obtain ⟨k, hnk, hk, hmerge⟩ := hmerge nofun
      exact ⟨_, hmerge, ⟨.inr (.inr (.inr rfl)),
        ⟨k, rfl, by omega, by omega, iff_of_false (by omega) nofun⟩, h.completed, h.total, h.failed⟩,
        hfollows rfl hnk⟩

end Record.IsKept

/-! ### One project beside others -/

namespace Ledger

variable {l : Ledger} {project other : String}

/-- The ledger with a record entered for a project, if there is one to enter. -/
def entered (l : Ledger) (project : String) : Option Record → Ledger
  | none => l
  | some r => Table.set project r l

theorem find?_entered (l : Ledger) (project other : String) (new : Option Record) :
    Table.find? (l.entered project new) other =
      if other = project then new.or (Table.find? l other) else Table.find? l other := by
  cases new with
  | none =>
      show Table.find? l other = _
      rw [Option.none_or, ite_self]
  | some r => exact Table.find?_set l project other r

theorem afterwards_map {α β : Type} (l : Ledger) (result : Except Misfit (α × Ledger))
    (f : α → β) : l.afterwards (result.map fun (r, l) => (f r, l)) = l.afterwards result := by
  cases result <;> rfl

/-- What a revision enters depends on the record alone. -/
theorem exists_revise_eq (project : String) (change : Record → Except Misfit Change) (r : Record) :
    ∃ new, ∀ l : Ledger, l.get project = r →
      l.afterwards (l.revise project change) = l.entered project new := by
  cases hterminal : r.status.isTerminal with
  | error misfit =>
      refine ⟨none, fun l hl => ?_⟩
      simp only [revise, hl, hterminal]
      rfl
  | ok terminal =>
      cases terminal with
      | true =>
          refine ⟨none, fun l hl => ?_⟩
          simp only [revise, hl, hterminal]
          rfl
      | false =>
          have hrevise : ∀ l : Ledger, l.get project = r → l.revise project change =
              (change r >>= r.merge) >>= fun r' => pure (l.enter project r') := by
            intro l hl
            simp only [revise, hl, hterminal]
            cases change r <;> rfl
          cases hr : change r >>= r.merge with
          | error misfit =>
              refine ⟨none, fun l hl => ?_⟩
              rw [hrevise l hl, hr]
              rfl
          | ok r' =>
              refine ⟨some r', fun l hl => ?_⟩
              rw [hrevise l hl, hr]
              rfl

/-- So does what is entered when a record is begun. -/
theorem exists_create_eq (project : String) (c : Change) (current : Option Record) :
    ∃ new, ∀ l : Ledger, Table.find? l project = current →
      l.afterwards (l.create project c) = l.entered project new := by
  obtain ⟨free, hfree⟩ : ∃ free, ∀ l : Ledger, Table.find? l project = current →
      l.isFree project = free := by
    refine ⟨current.elim (.ok true) fun r => r.status.isTerminal, fun l hl => ?_⟩
    unfold isFree
    rw [hl]
    cases current <;> rfl
  rcases free with misfit | (_ | _)
  · refine ⟨none, fun l hl => ?_⟩
    unfold create
    rw [hfree l hl]
    rfl
  · refine ⟨none, fun l hl => ?_⟩
    unfold create
    rw [hfree l hl]
    rfl
  · cases hr : Record.ofChange c with
    | error misfit =>
        refine ⟨none, fun l hl => ?_⟩
        unfold create
        rw [hfree l hl, hr]
        rfl
    | ok r =>
        refine ⟨some r, fun l hl => ?_⟩
        unfold create
        rw [hfree l hl, hr]
        rfl

end Ledger

namespace LedgerOperation

/-- What an operation on the record of a project makes of it depends on that record alone. -/
theorem exists_after_eq (op : LedgerOperation) {project : String}
    (h : op.concerns project = true) (current : Option Record) :
    ∃ result, ∀ l : Ledger, Table.find? l project = current →
      Table.find? (op.after l) project = result := by
  cases op with
  | create p total =>
      obtain rfl := of_decide_eq_true h
      obtain ⟨new, hnew⟩ := Ledger.exists_create_eq p { total := total.map Value.int } current
      refine ⟨new.or current, fun l hl => ?_⟩
      show Table.find? (l.afterwards (l.create p _)) p = _
      rw [hnew l hl, Ledger.find?_entered, if_pos rfl, hl]
  | revise p rev =>
      obtain rfl := of_decide_eq_true h
      rcases rev.apply_eq p current with hrevise | ⟨-, hnothing⟩
      · obtain ⟨new, hnew⟩ := Ledger.exists_revise_eq p rev.change (current.getD {})
        refine ⟨new.or current, fun l hl => ?_⟩
        have hget : l.get p = current.getD {} := by
          unfold Ledger.get
          rw [hl]
        unfold after apply
        rw [Ledger.afterwards_map, hrevise l hl, hnew l hget, Ledger.find?_entered, if_pos rfl, hl]
      · refine ⟨current, fun l hl => ?_⟩
        obtain ⟨answer, hanswer⟩ := hnothing l hl
        unfold after apply
        rw [Ledger.afterwards_map, hanswer]
        exact hl
  | get p => exact ⟨current, fun l hl => hl⟩
  | clear p =>
      refine ⟨none, fun l hl => ?_⟩
      cases p with
      | none => rfl
      | some p =>
          obtain rfl := of_decide_eq_true h
          exact (Table.find?_erase l p p).trans (if_pos rfl)

/-- An operation on other records leaves the record of a project as it is. -/
theorem find?_after_of_not_concerns (op : LedgerOperation) {project : String}
    (h : op.concerns project = false) (l : Ledger) :
    Table.find? (op.after l) project = Table.find? l project := by
  cases op with
  | create p total =>
      have hne : ¬ project = p := Ne.symm (of_decide_eq_false h)
      obtain ⟨new, hnew⟩ := Ledger.exists_create_eq p { total := total.map Value.int }
        (Table.find? l p)
      show Table.find? (l.afterwards (l.create p _)) project = _
      rw [hnew l rfl, Ledger.find?_entered, if_neg hne]
  | revise p rev =>
      have hne : ¬ project = p := Ne.symm (of_decide_eq_false h)
      unfold after apply
      rw [Ledger.afterwards_map]
      rcases rev.apply_eq p (Table.find? l p) with hrevise | ⟨-, hnothing⟩
      · obtain ⟨new, hnew⟩ := Ledger.exists_revise_eq p rev.change (l.get p)
        rw [hrevise l rfl, hnew l rfl, Ledger.find?_entered, if_neg hne]
      · obtain ⟨answer, hanswer⟩ := hnothing l rfl
        rw [hanswer]
        rfl
  | get p => rfl
  | clear p =>
      cases p with
      | none => cases h
      | some p =>
          exact (Table.find?_erase l p project).trans (if_neg (Ne.symm (of_decide_eq_false h)))

end LedgerOperation

/-! ### Beginning a record -/

namespace Ledger

variable {l : Ledger} {project : String}

/-- A record is begun if none is there or the one that is has come to an end. -/
theorem create_accepted (h : ∀ r, Table.find? l project = some r → r.status.IsFinal)
    (total : Option Int) : ∃ r : Record, r.IsKept [] ∧
      l.create project { total := total.map Value.int } = .ok (some r, Table.set project r l) := by
  have hfree : l.isFree project = .ok true := by
    unfold isFree
    cases hfind : Table.find? l project with
    | none => rfl
    | some r => exact Status.isTerminal_of_isFinal (h r hfind)
  refine ⟨_, Record.isKept_fresh total (.text "initializing"), ?_⟩
  unfold create
  rw [hfree]
  rfl

/-- Otherwise nothing is changed. -/
theorem create_refused {r : Record} (h : Table.find? l project = some r)
    (hr : r.status = .inProgress) (c : Change) : l.create project c = .ok (none, l) := by
  have hfree : l.isFree project = .ok false := by
    unfold isFree
    rw [h]
    dsimp only
    rw [hr]
    rfl
  unfold create
  rw [hfree]
  rfl

end Ledger

/-! ### One operation -/

namespace LedgerOperation

/-- What an operation that leaves the ledger `l'` behind owes to the record of a project. -/
structure Keeps (l : Ledger) (project : String) (settled : List (Option FailureNote))
    (op : LedgerOperation) (l' : Ledger) : Prop where
  renewed : op.renews l project = true → (l'.get project).IsKept []
  follows : op.renews l project = false → (l'.get project).Follows (l.get project)
  kept : op.renews l project = false → (l'.get project).IsKept
    (if (l.get project).status.IsFinal then settled
      else settled ++ (op.settlement? project).toList)

variable {l : Ledger} {project : String} {settled : List (Option FailureNote)}

/-- An operation that settles no file and leaves the record as it is. -/
theorem Keeps.of_get_eq (h : (l.get project).IsKept settled) {op : LedgerOperation} {l' : Ledger}
    (hrenews : op.renews l project = false) (hget : l'.get project = l.get project)
    (hnothing : op.settlement? project = none) : op.Keeps l project settled l' where
  renewed hyes := by
    rw [hrenews] at hyes
    cases hyes
  follows _ := by
    rw [hget]
    exact h.follows_self
  kept _ := by
    rw [hget, hnothing]
    show (l.get project).IsKept (if _ then settled else settled ++ [])
    rw [List.append_nil, ite_self]
    exact h

theorem exists_keeps_create (h : (l.get project).IsKept settled) (total : Option Int) :
    ∃ answer l', (create project total).apply l = .ok (answer, l') ∧
      (create project total).Keeps l project settled l' := by
  by_cases hfree : ∀ r, Table.find? l project = some r → r.status.IsFinal
  · obtain ⟨r, hr, hcreate⟩ := Ledger.create_accepted hfree total
    have happly : (create project total).apply l = .ok (some r, Table.set project r l) := hcreate
    have hrenews : (create project total).renews l project = true := by
      unfold renews
      dsimp only
      rw [happly, decide_eq_true rfl]
      rfl
    refine ⟨_, _, happly, fun _ => ?_, fun hno => ?_, fun hno => ?_⟩
    · rw [Ledger.get_set, if_pos rfl]
      exact hr
    · rw [hrenews] at hno
      cases hno
    · rw [hrenews] at hno
      cases hno
  · obtain ⟨r, hr⟩ := Classical.not_forall.mp hfree
    obtain ⟨hfind, hopen⟩ := Classical.not_imp.mp hr
    have hstatus := h.status
    rw [show l.get project = r by unfold Ledger.get; rw [hfind]; rfl] at hstatus
    have happly : (create project total).apply l = .ok (none, l) :=
      Ledger.create_refused hfind (hstatus.resolve_right hopen) _
    have hrenews : (create project total).renews l project = false := by
      unfold renews
      dsimp only
      rw [happly, Bool.and_false]
    exact ⟨_, _, happly, .of_get_eq h hrenews rfl rfl⟩

theorem exists_keeps_revise (h : (l.get project).IsKept settled) (rev : Revision) :
    ∃ answer l', (revise project rev).apply l = .ok (answer, l') ∧
      (revise project rev).Keeps l project settled l' := by
  have hnoted : (revise project rev).settlement? project = rev.settlement? := if_pos rfl
  rcases rev.apply_eq project (Table.find? l project) with hrevise | ⟨hnone, hnothing⟩
  · rcases h.status with hopen | hfinal
    · obtain ⟨c, hc, hentry⟩ := h.exists_isEntry rev
      obtain ⟨r', hmerge, hkept, hfollows⟩ := h.merge hopen hentry
      have happly : (revise project rev).apply l = .ok (some r', Table.set project r' l) := by
        unfold apply
        dsimp only
        rw [hrevise l rfl, Ledger.revise_of_inProgress hopen hc hmerge]
        rfl
      have hget : Ledger.get (Table.set project r' l) project = r' := by
        rw [Ledger.get_set, if_pos rfl]
      refine ⟨_, _, happly, nofun, fun _ => ?_, fun _ => ?_⟩
      · rw [hget]
        exact hfollows
      · rw [hget, hnoted, if_neg (by rw [hopen]; decide)]
        exact hkept
    · have happly : (revise project rev).apply l = .ok (some (l.get project), l) := by
        unfold apply
        dsimp only
        rw [hrevise l rfl, Ledger.revise_of_isFinal _ hfinal]
        rfl
      refine ⟨_, _, happly, nofun, fun _ => h.follows_self, fun _ => ?_⟩
      rw [if_pos hfinal]
      exact h
  · obtain ⟨answer, hanswer⟩ := hnothing l rfl
    have happly : (revise project rev).apply l = .ok (some answer, l) := by
      unfold apply
      dsimp only
      rw [hanswer]
      rfl
    exact ⟨_, _, happly, .of_get_eq h rfl rfl (hnoted.trans hnone)⟩

theorem keeps_clear {p : Option String} (hop : (clear p).concerns project = true) :
    (clear p).Keeps l project settled (l.clear p) := by
  have hrenews : (clear p).renews l project = true := by
    cases p with
    | none => rfl
    | some p => exact hop
  have hnone : Table.find? (l.clear p) project = none := by
    cases p with
    | none => rfl
    | some p =>
        obtain rfl := of_decide_eq_true hop
        exact (Table.find?_erase l p p).trans (if_pos rfl)
  refine ⟨fun _ => ?_, fun hno => ?_, fun hno => ?_⟩
  · unfold Ledger.get
    rw [hnone]
    exact Record.isKept_fresh none (.text "initializing")
  · rw [hrenews] at hno
    cases hno
  · rw [hrenews] at hno
    cases hno

/-- Every operation on the record of a project is answered, and keeps it. -/
theorem exists_keeps (h : (l.get project).IsKept settled) {op : LedgerOperation}
    (hop : op.concerns project = true) :
    ∃ answer l', op.apply l = .ok (answer, l') ∧ op.Keeps l project settled l' := by
  cases op with
  | create p total =>
      obtain rfl := of_decide_eq_true hop
      exact exists_keeps_create h total
  | revise p rev =>
      obtain rfl := of_decide_eq_true hop
      exact exists_keeps_revise h rev
  | get p => exact ⟨_, _, rfl, .of_get_eq h rfl rfl rfl⟩
  | clear p => exact ⟨_, _, rfl, keeps_clear hop⟩

/-- So does every operation on other records. -/
theorem keeps_of_not_concerns (h : (l.get project).IsKept settled) {op : LedgerOperation}
    (hop : op.concerns project = false) : op.Keeps l project settled (op.after l) := by
  have hget : (op.after l).get project = l.get project := by
    unfold Ledger.get
    rw [find?_after_of_not_concerns op hop l]
  refine .of_get_eq h ?_ hget ?_
  · cases op with
    | create p total =>
        unfold renews
        dsimp only
        rw [show decide (p = project) = false from hop, Bool.false_and]
    | revise p rev => rfl
    | get p => rfl
    | clear p =>
        cases p with
        | none => cases hop
        | some p => exact hop
  · cases op with
    | revise p rev => exact if_neg (of_decide_eq_false hop)
    | _ => rfl

theorem keeps_after (h : (l.get project).IsKept settled) (op : LedgerOperation) :
    op.Keeps l project settled (op.after l) := by
  cases hop : op.concerns project with
  | false => exact keeps_of_not_concerns h hop
  | true =>
      obtain ⟨answer, l', happly, hkeeps⟩ := exists_keeps h hop
      have hafter : op.after l = l' := by
        unfold after
        rw [happly]
        rfl
      rw [hafter]
      exact hkeeps

end LedgerOperation

/-! ### Whole histories -/

namespace Chronicle

variable {ch : Chronicle}

/-- All records are kept as it is noted. -/
def IsKept (ch : Chronicle) : Prop := ∀ project, (ch.ledger.get project).IsKept (ch.settled project)

theorem IsKept.step (h : ch.IsKept) (op : LedgerOperation) : (ch.step op).IsKept := by
  intro project
  have hkeeps := op.keeps_after (h project)
  unfold Chronicle.step
  dsimp only
  cases hrenews : op.renews ch.ledger project with
  | true => exact hkeeps.renewed hrenews
  | false =>
      have hkept := hkeeps.kept hrenews
      exact hkept

theorem IsKept.foldl (h : ch.IsKept) (ops : List LedgerOperation) :
    (ops.foldl Chronicle.step ch).IsKept := by
  induction ops generalizing ch with
  | nil => exact h
  | cons op rest ih => exact ih (h.step op)

theorem isKept_ofHistory (ops : List LedgerOperation) : (ofHistory ops).IsKept := by
  have hempty : ({} : Chronicle).IsKept :=
    fun _ => Record.isKept_fresh none (.text "initializing")
  exact hempty.foldl ops

theorem renewals_le_foldl (ch : Chronicle) (ops : List LedgerOperation) (project : String) :
    ch.renewals project ≤ (ops.foldl Chronicle.step ch).renewals project := by
  induction ops generalizing ch with
  | nil => exact Nat.le_refl _
  | cons op rest ih =>
      refine Nat.le_trans ?_ (ih (ch.step op))
      unfold Chronicle.step
      dsimp only
      split <;> omega

/-- As long as a record is neither begun anew nor forgotten, it comes after what it was. -/
theorem IsKept.follows_foldl (h : ch.IsKept) {ops : List LedgerOperation} {project : String}
    (hsame : (ops.foldl Chronicle.step ch).renewals project = ch.renewals project) :
    ((ops.foldl Chronicle.step ch).ledger.get project).Follows (ch.ledger.get project) := by
  induction ops generalizing ch with
  | nil => exact (h project).follows_self
  | cons op rest ih =>
      have hrest := renewals_le_foldl (ch.step op) rest project
      have hnow : op.renews ch.ledger project = false := by
        cases hrenews : op.renews ch.ledger project with
        | false => rfl
        | true =>
            have hstep : (ch.step op).renewals project = ch.renewals project + 1 := if_pos hrenews
            have hle : (ch.step op).renewals project ≤ ch.renewals project := hsame ▸ hrest
            omega
      have hstep : (ch.step op).renewals project = ch.renewals project := if_neg (by
        rw [hnow]
        exact Bool.false_ne_true)
      exact (ih (h.step op) (hsame.trans hstep.symm)).trans
        ((op.keeps_after (h project)).follows hnow)

/-- The record of a project is what the operations on it make of it. -/
theorem find?_foldl_filter {ch' : Chronicle} (ops : List LedgerOperation) {project : String}
    (h : Table.find? ch.ledger project = Table.find? ch'.ledger project) :
    Table.find? (ops.foldl Chronicle.step ch).ledger project =
      Table.find? ((ops.filter (·.concerns project)).foldl Chronicle.step ch').ledger project := by
  induction ops generalizing ch ch' with
  | nil => exact h
  | cons op rest ih =>
      cases hop : op.concerns project with
      | false =>
          rw [List.filter_cons_of_neg (by rw [hop]; exact Bool.false_ne_true)]
          refine ih ?_
          exact (op.find?_after_of_not_concerns hop ch.ledger).trans h
      | true =>
          rw [List.filter_cons_of_pos hop]
          refine ih ?_
          obtain ⟨result, hresult⟩ := op.exists_after_eq hop (Table.find? ch'.ledger project)
          exact (hresult ch.ledger h).trans (hresult ch'.ledger rfl).symm

end Chronicle

open Chronicle in
/-- **What is owed to a project after some operations.** -/
structure Ledger.Keeps (ops : List LedgerOperation) (project : String) : Prop where
  /-- The record depends only on the operations on it. -/
  own : Table.find? (ofHistory ops).ledger project =
    Table.find? (ofHistory (ops.filter (·.concerns project))).ledger project
  /-- Its progress is a percentage, and 100 just if the conversion is complete; it counts the
  settlements that came while it had not come to an end, and lists their failures. -/
  kept : ((ofHistory ops).ledger.get project).IsKept ((ofHistory ops).settled project)
  /-- Until it is begun anew or forgotten, its progress never goes down, and nothing in it changes
  once it has come to an end. -/
  onward : ∀ more, (ofHistory (ops ++ more)).renewals project = (ofHistory ops).renewals project →
    ((ofHistory (ops ++ more)).ledger.get project).Follows ((ofHistory ops).ledger.get project)
  /-- Every operation on it is answered. -/
  answered : ∀ op : LedgerOperation, op.concerns project = true →
    ∃ answer, op.apply (ofHistory ops).ledger = .ok (answer, op.after (ofHistory ops).ledger)
  /-- A create is refused, and changes nothing, if there is a record that has not come to an end. -/
  refused : ∀ r, Table.find? (ofHistory ops).ledger project = some r → ¬ r.status.IsFinal →
    ∀ total, (LedgerOperation.create project total).apply (ofHistory ops).ledger =
      .ok (none, (ofHistory ops).ledger)
  /-- Otherwise it puts a fresh record there. -/
  accepted : (∀ r, Table.find? (ofHistory ops).ledger project = some r → r.status.IsFinal) →
    ∀ total, ∃ r : Record, r.IsKept [] ∧
      (LedgerOperation.create project total).apply (ofHistory ops).ledger =
        .ok (some r, Table.set project r (ofHistory ops).ledger)

/-- **A ledger keeps every record through every history.** -/
theorem Ledger.keeps_ofHistory (ops : List LedgerOperation) (project : String) :
    Ledger.Keeps ops project where
  own := Chronicle.find?_foldl_filter ops rfl
  kept := Chronicle.isKept_ofHistory ops project
  onward more hsame := by
    have hmore : Chronicle.ofHistory (ops ++ more) =
        more.foldl Chronicle.step (Chronicle.ofHistory ops) := List.foldl_append
    rw [hmore] at hsame ⊢
    exact (Chronicle.isKept_ofHistory ops).follows_foldl hsame
  answered op hop := by
    obtain ⟨answer, l', happly, -⟩ := op.exists_keeps (Chronicle.isKept_ofHistory ops project) hop
    refine ⟨answer, happly.trans ?_⟩
    unfold LedgerOperation.after
    rw [happly]
    rfl
  refused r hr hopen total := by
    have hstatus := (Chronicle.isKept_ofHistory ops project).status
    rw [show (Chronicle.ofHistory ops).ledger.get project = r by
      unfold Ledger.get
      rw [hr]
      rfl] at hstatus
    exact Ledger.create_refused hr (hstatus.resolve_right hopen) _
  accepted hfree total := Ledger.create_accepted hfree total

end PhpMigration
