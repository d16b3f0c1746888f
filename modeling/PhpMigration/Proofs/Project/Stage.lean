/-
A whole conversion, step by step.

A conversion is run in one go, but others may ask for something while it is under way: a stop can
come before its skeleton is laid, while its files are looked for, between any two moves, or just
before its last entry.  So here it is cut into steps, and between two of them lies every moment at
which it reads the ledger or makes an entry.  What is done at a step depends on the stage that the
conversion has come to, and on nothing but what the steps before have left there.

A conversion in one go takes these steps, one after another (`exists_drive`).
-/
import PhpMigration.Proofs.Project.InTurn

namespace PhpMigration

variable {σ : Type}

/-- How far a whole conversion has come. -/
inductive Stage where
  /-- Its record has been begun. -/
  | begun
  /-- The folder of the project is there. -/
  | housed
  /-- The skeleton is laid. -/
  | laid (output : List String)
  | found (output : List String) (files : List (List String))
  | moving (run : Run)
  /-- All files have been settled, and it had not been stopped then. -/
  | closing
  /-- Something is in the way of the whole conversion; it is not in the record yet. -/
  | failing (incident : Incident)
  | ended (record : Record)
  | failed (incident : Incident)
  /-- The program was told to end. -/
  | lost (cause : Incident)

/-- What a conversion is answered by when it has come to its end. -/
def Stage.answer? : Stage → Option (Except Incident Record)
  | .ended record => some (.ok record)
  | .failed incident | .lost incident => some (.error incident)
  | .begun | .housed | .laid _ | .found .. | .moving _ | .closing | .failing _ => none

/-- What a conversion does at a time, or what somebody else asks of it. -/
inductive Act where
  /-- The next step, if it is none of the moves. -/
  | proceed
  | move (m : Move)
  | stop
  deriving DecidableEq, Repr

namespace Converter

/-- The next step of a conversion, if it is none of its moves. -/
def proceed (c : Converter σ) (project : String) (stage : Stage) (w : Workshop σ) :
    Option (Stage × Workshop σ) :=
  match stage with
  | .begun =>
    match needFolder project w with
    | .error incident => some (.failing incident, w)
    | .ok () => some (.housed, w.update project { step := some (.text "creating_structure") })
  | .housed =>
    match c.laySkeleton project w with
    | (.error incident, w) => some (.failing incident, w)
    | (.ok output, w) => some (.laid output, w)
  | .laid output =>
    match c.needSources project w with
    | .error incident => some (.failing incident, w)
    | .ok files => some (.found output files, w)
  | .found output files =>
    some (.moving ⟨project, output, [], chunksOf c.settings.chunkSize files⟩,
      (w.forget project).update project
        { total := some (.int files.length), step := some (.text "converting") })
  | .moving r =>
    if nextFrom 0 r.tasks ≠ none then none
    else match r.tasks.findSome? Task.abandonment? with
      | some cause => some (.lost cause, w)
      | none =>
        if !r.queue.isEmpty then none
        else if w.ledger.isStopped project then some (.ended (w.record project), w)
        else some (.closing, w)
  | .closing =>
    let w := (w.complete project).2
    some (.ended (w.record project), w)
  | .failing incident => some (.failed incident, w.fail project (lastWords incident))
  | .ended _ | .failed _ | .lost _ => none

/-- Do one thing, if it can be done. -/
def act (c : Converter σ) (project : String) : Act → Stage × Workshop σ → Option (Stage × Workshop σ)
  | .proceed, (stage, w) => c.proceed project stage w
  | .move m, (.moving r, w) => (c.step m r w).map fun (r, w) => (.moving r, w)
  | .move _, _ => none
  | .stop, (stage, w) => some (stage, (w.stop project).2)

/-- Do one thing after another, as long as it can be done. -/
def drive (c : Converter σ) (project : String) :
    List Act → Stage × Workshop σ → Option (Stage × Workshop σ)
  | [], s => some s
  | a :: rest, s => (c.act project a s).bind (c.drive project rest)

variable {c : Converter σ} {project : String} {w w' : Workshop σ} {r r' : Run}

theorem drive_append (c : Converter σ) (project : String) (acts more : List Act)
    (s : Stage × Workshop σ) :
    c.drive project (acts ++ more) s = (c.drive project acts s).bind (c.drive project more) := by
  induction acts generalizing s with
  | nil => rfl
  | cons a rest ih =>
      show (c.act project a s).bind (c.drive project (rest ++ more)) =
        ((c.act project a s).bind (c.drive project rest)).bind (c.drive project more)
      rw [Option.bind_assoc, funext ih]

theorem drive_moves (c : Converter σ) (project : String) (moves : List Move) (r : Run)
    (w : Workshop σ) :
    c.drive project (moves.map .move) (.moving r, w) =
      (c.steps moves r w).map fun (r, w) => (.moving r, w) := by
  induction moves generalizing r w with
  | nil => rfl
  | cons m rest ih =>
      show ((c.step m r w).map fun (r, w) => (Stage.moving r, w)).bind
        (c.drive project (rest.map .move)) = ((c.step m r w).bind _).map _
      cases c.step m r w with
      | none => rfl
      | some next => exact ih next.1 next.2

/-- A conversion that gets ready takes four steps to that. -/
theorem drive_of_prepare (h : c.prepare project w = (.ok r, w')) :
    c.drive project [.proceed, .proceed, .proceed, .proceed] (.begun, w) =
      some (.moving r, w') := by
  cases prepared_of_prepare h with
  | ready hfolder hlay hsources =>
      simp only [drive, act, proceed, hfolder, Option.bind_some, hlay, hsources]

/-- One that does not get ready is about to fail. -/
theorem exists_drive_of_prepare_error {incident : Incident}
    (h : c.prepare project w = (.error incident, w')) :
    ∃ acts, c.drive project acts (.begun, w) = some (.failing incident, w') := by
  cases prepared_of_prepare h with
  | homeless hfolder =>
      refine ⟨[.proceed], ?_⟩
      simp only [drive, act, proceed, hfolder, Option.bind_some]
  | unlaid hfolder hlay =>
      refine ⟨[.proceed, .proceed], ?_⟩
      simp only [drive, act, proceed, hfolder, hlay, Option.bind_some]
  | unfound hfolder hlay hsources =>
      refine ⟨[.proceed, .proceed, .proceed], ?_⟩
      simp only [drive, act, proceed, hfolder, hlay, hsources, Option.bind_some]

/-! ### The end of the moves -/

theorem nextFrom_of_settled {tasks : List Task} (h : ∀ t ∈ tasks, t.isSettled = true) (n : Nat) :
    nextFrom n tasks = none := by
  induction tasks generalizing n with
  | nil => rfl
  | cons first rest ih =>
      obtain ⟨hfirst, hrest⟩ := List.forall_mem_cons.mp h
      obtain ⟨file, standing⟩ := first
      cases standing with
      | settled => exact ih hrest (n + 1)
      | _ => cases hfirst

/-- Once all files are settled it is looked whether the conversion was stopped. -/
theorem proceed_of_isOver (c : Converter σ) (project : String) (h : r.IsOver) (w : Workshop σ) :
    c.proceed project (.moving r) w =
      if w.ledger.isStopped project then some (.ended (w.record project), w)
      else some (.closing, w) := by
  have hkept : r.tasks.findSome? Task.abandonment? = none := by
    refine List.findSome?_eq_none_iff.mpr fun t ht => ?_
    have hsettled := h.1 t ht
    obtain ⟨file, standing⟩ := t
    cases standing with
    | settled => rfl
    | _ => cases hsettled
  unfold proceed
  dsimp only
  rw [if_neg (not_not_intro (nextFrom_of_settled h.1 0)), hkept, h.2]
  rfl

/-- If the program was told to end, it does so when no other file waits for a move. -/
theorem proceed_of_abandonment (c : Converter σ) (project : String) {cause : Incident}
    (hnext : nextFrom 0 r.tasks = none) (h : r.tasks.findSome? Task.abandonment? = some cause)
    (w : Workshop σ) : c.proceed project (.moving r) w = some (.lost cause, w) := by
  unfold proceed
  dsimp only
  rw [if_neg (not_not_intro hnext), h]

/-- A conversion goes on from its moves in one of these ways only. -/
theorem proceed_moving_cases {stage : Stage}
    (h : c.proceed project (.moving r) w = some (stage, w')) :
    w' = w ∧ ((∃ cause, stage = .lost cause) ∨
      r.IsOver ∧ (w.ledger.isStopped project = true ∧ stage = .ended (w.record project) ∨
        w.ledger.isStopped project = false ∧ stage = .closing)) := by
  unfold proceed at h
  dsimp only at h
  split at h
  · cases h
  · rename_i hnext
    split at h
    · rename_i cause habandoned
      cases h
      exact ⟨rfl, .inl ⟨cause, rfl⟩⟩
    · rename_i hkept
      split at h
      · cases h
      · rename_i hqueue
        have hover : r.IsOver :=
          ⟨all_settled_of_nextFrom (not_not.mp hnext) (List.findSome?_eq_none_iff.mp hkept),
            List.isEmpty_iff.mp (by simpa using hqueue)⟩
        split at h
        · rename_i hstopped
          cases h
          exact ⟨rfl, .inr ⟨hover, .inl ⟨hstopped, rfl⟩⟩⟩
        · rename_i hgoing
          cases h
          exact ⟨rfl, .inr ⟨hover, .inr ⟨Bool.eq_false_iff.mpr hgoing, rfl⟩⟩⟩

/-! ### A conversion in one go -/

/-- Moves in turn are moves one after another. -/
theorem exists_steps_inTurn (c : Converter σ) (n : Nat) (r : Run) (w : Workshop σ) :
    ∃ moves, c.steps moves r w = some (c.inTurn n r w) := by
  induction n generalizing r w with
  | zero => exact ⟨[], rfl⟩
  | succ n ih =>
      rw [inTurn]
      cases hstep : (nextMove r).bind fun m => c.step m r w with
      | none => exact ⟨[], rfl⟩
      | some next =>
          obtain ⟨m, -, hm⟩ := Option.bind_eq_some_iff.mp hstep
          obtain ⟨moves, hmoves⟩ := ih next.1 next.2
          refine ⟨m :: moves, ?_⟩
          show (c.step m r w).bind _ = _
          rw [hm]
          exact hmoves

/-- Where no move can be made in turn, at most two steps are left. -/
theorem exists_drive_of_stuck {acts : List Act} {s : Stage × Workshop σ}
    (hdrive : c.drive project acts s = some (.moving r, w))
    (hstuck : ((nextMove r).bind fun m => c.step m r w) = none) :
    ∃ acts stage w', c.drive project acts s = some (stage, w') ∧
      (stage.answer?, w') = match r.tasks.findSome? Task.abandonment? with
        | some cause => (some (.error cause), w)
        | none => (some (.ok (conclude project w).1), (conclude project w).2) := by
  have hmore : ∀ more, c.drive project (acts ++ more) s = c.drive project more (.moving r, w) := by
    intro more
    rw [drive_append, hdrive, Option.bind_some]
  cases habandoned : r.tasks.findSome? Task.abandonment? with
  | some cause =>
      refine ⟨acts ++ [Act.proceed], .lost cause, w, ?_, rfl⟩
      rw [hmore]
      simp only [drive, act, Option.bind_some,
        proceed_of_abandonment c project (nextFrom_of_stuck hstuck) habandoned]
  | none =>
      have hover := isOver_of_stuck (List.findSome?_eq_none_iff.mp habandoned) hstuck
      have hproceed := proceed_of_isOver c project hover w
      unfold conclude
      by_cases hstopped : w.ledger.isStopped project = true
      · rw [if_pos hstopped] at hproceed ⊢
        refine ⟨acts ++ [Act.proceed], .ended (w.record project), w, ?_, rfl⟩
        rw [hmore]
        simp only [drive, act, hproceed, Option.bind_some]
      · rw [if_neg hstopped] at hproceed ⊢
        refine ⟨acts ++ [Act.proceed, Act.proceed], .ended _, _, ?_, rfl⟩
        rw [hmore]
        simp only [drive, act, hproceed, Option.bind_some]
        rfl

/-- **A conversion in one go takes these steps.** -/
theorem exists_drive (settings : Settings) (parser : SourceParser) (service : Service σ)
    (project : String) (w : Workshop σ) :
    ∃ acts stage w', (ofService settings parser service).drive project acts (.begun, w) =
        some (stage, w') ∧
      (stage.answer?, w') =
        ((ofService settings parser service).convertBegun project w).map some id := by
  obtain ⟨c, hc⟩ : ∃ c, c = ofService settings parser service := ⟨_, rfl⟩
  rw [← hc]
  unfold convertBegun
  cases hprepare : c.prepare project w with
  | mk result w₁ =>
      cases result with
      | error incident =>
          obtain ⟨acts, hacts⟩ := exists_drive_of_prepare_error hprepare
          refine ⟨acts ++ [Act.proceed], .failed incident, _, ?_, rfl⟩
          rw [drive_append, hacts]
          rfl
      | ok r =>
          obtain ⟨moves, hmoves⟩ := exists_steps_inTurn c (weight c.settings.maxAttempts r) r w₁
          obtain ⟨-, -, -, hstuck⟩ :=
            course_inTurn settings parser service (weight c.settings.maxAttempts r) r w₁
          rw [← hc] at hstuck
          have hlast : ((nextMove (c.finish r w₁).1).bind fun m =>
              c.step m (c.finish r w₁).1 (c.finish r w₁).2) = none :=
            hstuck (by rw [hc]; exact Nat.le_refl _)
          have hdrive : c.drive project
              ([Act.proceed, Act.proceed, Act.proceed, Act.proceed] ++ moves.map Act.move) (.begun, w) =
              some (.moving (c.finish r w₁).1, (c.finish r w₁).2) := by
            rw [drive_append, drive_of_prepare hprepare, Option.bind_some, drive_moves, hmoves]
            rfl
          obtain ⟨acts, stage, w', hacts, hanswer⟩ := exists_drive_of_stuck hdrive hlast
          refine ⟨acts, stage, w', hacts, hanswer.trans ?_⟩
          dsimp only
          cases (c.finish r w₁).1.tasks.findSome? Task.abandonment? <;> rfl

end Converter

end PhpMigration
