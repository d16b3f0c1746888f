/-
A stop while a conversion is under way.

A stop ends the record at once, whatever the conversion is about to do, and a record that has come
to an end is not changed by anything that can happen (`Journey.record_of_isFinal`).  The conversion
itself is not interrupted: it takes its steps as before, and finds the stop when it is about to
dispatch a chunk.  So no chunk is dispatched after a stop (`Journey.chunks_of_isStopped`), and the
files of the chunk at hand are carried on as if there had been none, because what becomes of them
does not depend on the ledger (`Journey.isOn`).

That a conversion comes to an end after a stop is shown apart from what holds then: there is always a
step that brings it nearer to its end (`Passage.exists_nearer`).
-/
import PhpMigration.Proofs.Project.Journey

namespace PhpMigration

variable {σ : Type}

/-! ### The entry that a stop makes -/

/-- A record that is there and has not come to an end takes a stop, whatever else is in it. -/
theorem Workshop.stop_of_open {w : Workshop σ} {project : String} {r : Record}
    (hrecord : Table.find? w.ledger project = some r) (hopen : r.status.isTerminal = .ok false) :
    (w.stop project).2.record project =
      { r with status := .stopped, step := .text "stopped", error := .text Ledger.stopMessage } := by
  have hhas : Table.has w.ledger project = true := by
    unfold Table.has
    rw [hrecord]
    rfl
  have hget : w.ledger.get project = r := by
    unfold Ledger.get
    rw [hrecord]
    rfl
  have hstop : Ledger.stop project (.text Ledger.stopMessage) w.ledger =
      .ok (w.ledger.enter project (r.changed (Ledger.stopping (.text Ledger.stopMessage)))) := by
    unfold Ledger.stop
    rw [if_pos hhas]
    unfold Ledger.update Ledger.revise
    rw [hget]
    simp only [hopen, bind, Except.bind, Bool.false_eq_true, if_false, pure, Except.pure,
      Record.merge_of_progress_none r (c := Ledger.stopping (.text Ledger.stopMessage)) rfl rfl]
  unfold stop
  dsimp only
  rw [if_pos hhas]
  unfold record
  rw [enter_ledger_of_ok hstop, Ledger.get_set, if_pos rfl]
  rfl

/-! ### A record that has come to an end -/

/-- An operation that does not begin a record anew leaves it alone if it has come to an end. -/
theorem LedgerOperation.get_after_of_isFinal {l : Ledger} {project : String} (op : LedgerOperation)
    (hfinal : (l.get project).status.IsFinal) (hop : op.renews l project = false) :
    (op.after l).get project = l.get project := by
  cases hconcerns : op.concerns project with
  | false =>
      unfold Ledger.get
      rw [op.find?_after_of_not_concerns hconcerns]
  | true =>
      cases op with
      | create p total =>
          obtain rfl := of_decide_eq_true hconcerns
          have hfree : ∀ r, Table.find? l p = some r → r.status.IsFinal := by
            intro r hr
            unfold Ledger.get at hfinal
            rwa [hr] at hfinal
          obtain ⟨r, -, hcreate⟩ := Ledger.create_accepted hfree total
          have happly : (create p total).apply l = .ok (some r, Table.set p r l) := hcreate
          unfold renews at hop
          dsimp only at hop
          rw [happly, decide_eq_true rfl] at hop
          cases hop
      | revise p rev =>
          obtain rfl := of_decide_eq_true hconcerns
          unfold after apply
          rw [Ledger.afterwards_map]
          rcases rev.apply_eq p (Table.find? l p) with hrevise | ⟨-, hnothing⟩
          · rw [hrevise l rfl, Ledger.revise_of_isFinal _ hfinal]
            rfl
          · obtain ⟨answer, hanswer⟩ := hnothing l rfl
            rw [hanswer]
            rfl
      | get p => rfl
      | clear p =>
          cases p with
          | none => cases hop
          | some p => cases hconcerns.symm.trans hop

namespace Converter

variable {c : Converter σ} {project : String} {w w' : Workshop σ} {stage stage' : Stage}

/-- A step of a conversion makes no entry in a record that has come to an end. -/
theorem proceed_ledger_of_isFinal (h : c.proceed project stage w = some (stage', w'))
    (hfinal : (w.record project).status.IsFinal) : w'.ledger = w.ledger := by
  have hupdated : ∀ change, w.ledger.update project change = .ok (w.record project, w.ledger) :=
    fun change => Ledger.revise_of_isFinal _ hfinal
  cases stage with
  | moving r => rw [(proceed_moving_cases h).1]
  | begun =>
      unfold proceed at h
      dsimp only at h
      split at h <;> cases h
      · rfl
      · exact Workshop.enter_ledger_of_ok (hupdated _)
  | housed =>
      have hlaid := laySkeleton_ledger c project w
      unfold proceed at h
      dsimp only at h
      split at h <;> rename_i hlay <;> cases h <;> rwa [hlay] at hlaid
  | laid output =>
      unfold proceed at h
      dsimp only at h
      split at h <;> cases h <;> rfl
  | found output files =>
      cases h
      exact Workshop.enter_ledger_of_ok (w := w.forget project) (hupdated _)
  | closing =>
      cases h
      exact Workshop.enter_ledger_of_ok (hupdated _)
  | failing incident =>
      cases h
      exact Workshop.enter_ledger_of_ok (hupdated _)
  | ended record => cases h
  | failed incident => cases h
  | lost cause => cases h

end Converter

section

variable {c : Converter σ} {project : String} {w₁ : Workshop σ} {s s' : Passage σ}

theorem Passed.record_of_isFinal (hstep : Passed c project s s') (hon : s.IsOn c project w₁)
    (hfinal : (s.workshop.record project).status.IsFinal) :
    s'.workshop.record project = s.workshop.record project := by
  cases hstep with
  | proceed h => exact congrArg (Ledger.get · project) (Converter.proceed_ledger_of_isFinal h hfinal)
  | move hstage h =>
      obtain rfl := hon.run_project hstage
      exact h.record_of_isFinal hfinal
  | stop => exact congrArg (Ledger.get · project) (Workshop.stop_of_isFinal hfinal)
  | elsewhere h hrecord => exact congrArg (Option.getD · {}) hrecord
  | asked _ hop => exact LedgerOperation.get_after_of_isFinal _ hfinal hop

/-- **A record that has come to an end stays as it is**, whatever happens to the conversion. -/
theorem Journey.record_of_isFinal (h : Journey c project s s') (hon : s.IsOn c project w₁)
    (hsound : w₁.tree.top.IsSound) (hfinal : (s.workshop.record project).status.IsFinal) :
    s'.workshop.record project = s.workshop.record project ∧ s'.IsOn c project w₁ := by
  induction h with
  | here => exact ⟨rfl, hon⟩
  | next h hstep ih =>
      obtain ⟨hrecord, hon'⟩ := ih
      exact ⟨(hstep.record_of_isFinal hon' (hrecord ▸ hfinal)).trans hrecord,
        hon'.passed hsound hstep⟩

/-- **No chunk is dispatched after a stop.** -/
theorem Journey.chunks_of_isStopped (h : Journey c project s s') (hon : s.IsOn c project w₁)
    (hsound : w₁.tree.top.IsSound) (hstopped : (s.workshop.record project).status = .stopped) :
    s'.chunks = s.chunks := by
  induction h with
  | here => rfl
  | next h hstep ih =>
      obtain ⟨hrecord, hon'⟩ := h.record_of_isFinal hon hsound (.inr (.inr hstopped))
      refine Eq.trans ?_ ih
      cases hstep with
      | move hstage hmove =>
          obtain rfl := hon'.run_project hstage
          rw [← hrecord] at hstopped
          have hnone : ∀ m, Converter.dispatched m _ _ = [] := fun m =>
            if_neg fun hgoing => absurd (of_decide_eq_false hgoing.2) (not_not_intro hstopped)
          exact (congrArg _ (hnone _)).trans (List.append_nil _)
      | _ => rfl

end

/-! ### The end of a conversion -/

/-- The steps that a conversion has still to take at most, all its moves counted as one. -/
def Stage.rank : Stage → Nat
  | .begun => 6
  | .housed => 5
  | .laid _ => 4
  | .found .. => 3
  | .moving _ => 2
  | .closing | .failing _ => 1
  | .ended _ | .failed _ | .lost _ => 0

/-- The moves that it may still need, if it is making them. -/
def Stage.weight (maxAttempts : Nat) : Stage → Nat
  | .moving r => Converter.weight maxAttempts r
  | _ => 0

/-- The first stage is nearer to the end of a conversion than the second. -/
def Stage.Nearer (maxAttempts : Nat) : Stage → Stage → Prop :=
  InvImage (Prod.Lex (· < ·) (· < ·)) fun stage => (stage.rank, stage.weight maxAttempts)

theorem Stage.wellFounded_nearer (maxAttempts : Nat) : WellFounded (Stage.Nearer maxAttempts) :=
  InvImage.wf _ (Prod.lex Nat.lt_wfRel Nat.lt_wfRel).wf

theorem Stage.nearer_of_rank {maxAttempts : Nat} {stage stage' : Stage}
    (h : stage'.rank < stage.rank) : stage'.Nearer maxAttempts stage :=
  Prod.Lex.left _ _ h

/-- Every move brings a conversion nearer to its end. -/
theorem Moved.nearer {c : Converter σ} {m : Move} {trial : Option Trial} {r r' : Run}
    {w w' : Workshop σ} (h : Moved c m trial r w r' w') :
    Stage.Nearer c.settings.maxAttempts (.moving r') (.moving r) :=
  Prod.Lex.right _ h.weight_lt

/-- So does every step. -/
theorem Converter.nearer_of_proceed {c : Converter σ} {project : String} {w w' : Workshop σ}
    {stage stage' : Stage} (h : c.proceed project stage w = some (stage', w')) :
    stage'.Nearer c.settings.maxAttempts stage := by
  refine Stage.nearer_of_rank ?_
  cases stage with
  | moving r =>
      obtain ⟨-, ⟨cause, rfl⟩ | ⟨-, ⟨-, rfl⟩ | ⟨-, rfl⟩⟩⟩ := proceed_moving_cases h
      · exact Nat.zero_lt_two
      · exact Nat.zero_lt_two
      · exact Nat.one_lt_two
  | begun =>
      unfold proceed at h
      dsimp only at h
      split at h <;> cases h
      · exact (by decide : 1 < 6)
      · exact Nat.lt_succ_self 5
  | housed =>
      unfold proceed at h
      dsimp only at h
      split at h <;> cases h
      · exact (by decide : 1 < 5)
      · exact Nat.lt_succ_self 4
  | laid output =>
      unfold proceed at h
      dsimp only at h
      split at h <;> cases h
      · exact (by decide : 1 < 4)
      · exact Nat.lt_succ_self 3
  | found output files =>
      cases h
      exact Nat.lt_succ_self 2
  | closing =>
      cases h
      exact Nat.zero_lt_one
  | failing incident =>
      cases h
      exact Nat.zero_lt_one
  | ended record => cases h
  | failed incident => cases h
  | lost cause => cases h

namespace Passage

variable {c : Converter σ} {project : String}

/-- A conversion that is making its moves can make another one, or has made the last. -/
theorem exists_move_or_proceed (c : Converter σ) (project : String) (r : Run) (w : Workshop σ) :
    (∃ m trial r' w', Moved c m trial r w r' w') ∨
      ∃ stage, c.proceed project (.moving r) w = some (stage, w) := by
  cases hnext : Converter.nextFrom 0 r.tasks with
  | some m =>
      obtain ⟨place, t, ht, hcase⟩ := Converter.nextFrom_cases hnext
      obtain ⟨file, standing⟩ := t
      left
      rcases hcase with ⟨-, k, rfl⟩ | ⟨-, ⟨m', rfl⟩ | ⟨cause, rfl⟩⟩
      · exact ⟨_, _, _, _, .missed ht (.unread .endlessWait)⟩
      · exact ⟨.settle place, none, _, _, .settle (by unfold Converter.settleFile; rw [ht])⟩
      · exact ⟨.settle place, none, _, _, .settle (by unfold Converter.settleFile; rw [ht])⟩
  | none =>
      cases habandoned : r.tasks.findSome? Task.abandonment? with
      | some cause =>
          exact .inr ⟨_, Converter.proceed_of_abandonment c project hnext habandoned w⟩
      | none =>
          have hall := Converter.all_settled_of_nextFrom hnext
            (List.findSome?_eq_none_iff.mp habandoned)
          by_cases hqueue : r.queue = []
          · right
            rw [Converter.proceed_of_isOver c project ⟨hall, hqueue⟩ w]
            split <;> exact ⟨_, rfl⟩
          · obtain ⟨r', hr'⟩ := exists_dispatch (w := w) hall hqueue
            exact .inl ⟨_, _, _, _, .dispatch hr'⟩

/-- As long as a conversion is not at its end, something brings it nearer. -/
theorem exists_nearer (c : Converter σ) (project : String) (s : Passage σ)
    (h : s.stage.answer? = none) :
    ∃ s', Passed c project s s' ∧ s'.stage.Nearer c.settings.maxAttempts s.stage := by
  have hproceed : (∃ stage w, c.proceed project s.stage s.workshop = some (stage, w)) →
      ∃ s', Passed c project s s' ∧ s'.stage.Nearer c.settings.maxAttempts s.stage := by
    rintro ⟨stage, w, hstep⟩
    exact ⟨_, .proceed hstep, Converter.nearer_of_proceed hstep⟩
  cases hstage : s.stage with
  | moving r =>
      rcases exists_move_or_proceed c project r s.workshop with ⟨m, trial, r', w', hmove⟩ |
        ⟨stage, hstep⟩
      · exact ⟨_, .move hstage hmove, hmove.nearer⟩
      · rw [hstage] at hproceed
        exact hproceed ⟨stage, _, hstep⟩
  | begun =>
      rw [hstage] at hproceed
      refine hproceed ?_
      unfold Converter.proceed
      dsimp only
      split <;> exact ⟨_, _, rfl⟩
  | housed =>
      rw [hstage] at hproceed
      refine hproceed ?_
      unfold Converter.proceed
      dsimp only
      split <;> exact ⟨_, _, rfl⟩
  | laid output =>
      rw [hstage] at hproceed
      refine hproceed ?_
      unfold Converter.proceed
      dsimp only
      split <;> exact ⟨_, _, rfl⟩
  | found output files =>
      rw [hstage] at hproceed
      exact hproceed ⟨_, _, rfl⟩
  | closing =>
      rw [hstage] at hproceed
      exact hproceed ⟨_, _, rfl⟩
  | failing incident =>
      rw [hstage] at hproceed
      exact hproceed ⟨_, _, rfl⟩
  | ended record => rw [hstage] at h; cases h
  | failed incident => rw [hstage] at h; cases h
  | lost cause => rw [hstage] at h; cases h

/-- **From every stage a conversion can come to its end.** -/
theorem exists_answer (c : Converter σ) (project : String) (s : Passage σ) :
    ∃ s', Journey c project s s' ∧ s'.stage.answer? ≠ none := by
  obtain ⟨stage, hstage⟩ : ∃ stage, stage = s.stage := ⟨_, rfl⟩
  induction stage using (Stage.wellFounded_nearer c.settings.maxAttempts).induction generalizing s
    with
  | _ stage ih =>
      subst hstage
      cases hanswer : s.stage.answer? with
      | some answer => exact ⟨s, .here, by rw [hanswer]; exact Option.some_ne_none _⟩
      | none =>
          obtain ⟨s₁, hstep, hnearer⟩ := exists_nearer c project s hanswer
          obtain ⟨s', hjourney, hend⟩ := ih s₁.stage hnearer s₁ rfl
          exact ⟨s', (Journey.here.next hstep).trans hjourney, hend⟩

end Passage

/-! ### What is done for the chunks that were dispatched -/

/-- A settled file has been attempted. -/
theorem Fares.results_ne_nil {maxAttempts : Nat} {path : String}
    {holds : Mapping → String → Prop} {results : List (Except Incident (Mapping × String))}
    {mappings : List Mapping} {failures : List FileFailure}
    (h : Fares maxAttempts path holds results mappings failures .settled) : results ≠ [] := by
  cases h with
  | entered h hholds => simp
  | reported h => simp

theorem exists_of_resultsOf {trials : List Trial} {file : List String}
    (h : resultsOf trials file ≠ []) : ∃ t ∈ trials, t.file = file := by
  obtain ⟨result, hresult⟩ := List.exists_mem_of_ne_nil _ h
  obtain ⟨t, ht, -⟩ := List.mem_map.mp hresult
  exact ⟨t, (List.mem_filter.mp ht).1, of_decide_eq_true (List.mem_filter.mp ht).2⟩

/-- **The files of some chunks have been finished, and no others were touched.** -/
structure Passage.Finishes (c : Converter σ) (project : String) (plain : Prop) (s : Passage σ)
    (chunks : List (List (List String))) : Prop where
  attempted : ∀ file, (∃ t ∈ s.trials, t.file = file) ↔ file ∈ chunks.flatten
  mapped : ∀ m ∈ s.workshop.mappingsOf project, m.source ∈ chunks.flatten.map Path.join
  /-- Each file was attempted until an attempt succeeded or no more were allowed.  If one did there
  is one mapping, and a file where it leads; its text is there if the output is plain. -/
  fares : ∃ output, c.outputFolder project = .ok output ∧ ∀ file ∈ chunks.flatten, ∃ failures,
    Fares c.settings.maxAttempts (Path.join file)
      (s.workshop.Delivers plain project output (Path.join file)) (resultsOf s.trials file)
      ((s.workshop.mappingsOf project).filter fun m => m.source = Path.join file) failures .settled

/-- A conversion that has come to its end has finished what it has dispatched. -/
theorem Passage.IsOn.finishes {c : Converter σ} {project : String} {w₁ : Workshop σ}
    {s : Passage σ} (h : s.IsOn c project w₁) {record : Record} (hended : s.stage = .ended record) :
    s.Finishes c project (c.LaysPlain project w₁) s.chunks := by
  have htried := h.tried
  unfold IsOn at h
  rw [hended] at h
  obtain ⟨output, stands, hall, hcovers⟩ := h
  have hcarried := hcovers.carried
  have hfares : ∀ file ∈ s.chunks.flatten, ∃ failures,
      Fares c.settings.maxAttempts (Path.join file)
        (s.workshop.Delivers (c.LaysPlain project w₁) project output (Path.join file))
        (resultsOf s.trials file)
        ((s.workshop.mappingsOf project).filter fun m => m.source = Path.join file) failures
        .settled := by
    intro file hfile
    rw [← hcovers.files] at hfile
    obtain ⟨t, ht, rfl⟩ := List.mem_map.mp hfile
    have hsettled := hall t ht
    have htracked := hcarried.tracked t ht
    obtain ⟨file, standing⟩ := t
    cases standing with
    | settled =>
        rcases htracked with hfares | ⟨⟨cause, habandoned⟩, -⟩
        · exact hfares
        · cases habandoned
    | _ => cases hsettled
  refine ⟨fun file => ⟨?_, fun hfile => ?_⟩, fun m hm => ?_, output, hcovers.folder, hfares⟩
  · rintro ⟨t, ht, rfl⟩
    exact htried t ht
  · obtain ⟨failures, hone⟩ := hfares file hfile
    exact exists_of_resultsOf hone.results_ne_nil
  · obtain ⟨t, ht, hsource⟩ := hcarried.owned m hm
    rw [hsource, ← hcovers.files]
    exact List.mem_map_of_mem (List.mem_map_of_mem ht)

/-! ### A stop -/

/-- The conversion after a stop. -/
def Passage.stop (s : Passage σ) (project : String) : Passage σ :=
  { s with workshop := (s.workshop.stop project).2 }

/-- **How a stop is honoured** that comes when a conversion stands as it does, and its record is
`r`. -/
structure Passage.HonoursStop (c : Converter σ) (project : String) (plain : Prop) (s : Passage σ)
    (r : Record) : Prop where
  stopped : (s.stop project).workshop.record project =
    { r with status := .stopped, step := .text "stopped", error := .text Ledger.stopMessage }
  /-- Whatever happens then, the record stays as it is. -/
  frozen : ∀ {s'}, Journey c project (s.stop project) s' →
    s'.workshop.record project = (s.stop project).workshop.record project
  /-- The chunks that have been dispatched before are the first of all, and all that ever are. -/
  chunks : ∀ {s'}, Journey c project (s.stop project) s' →
    s'.chunks = s.chunks ∧ s.chunks <+: chunksOf c.settings.chunkSize s'.files
  /-- No other file is attempted. -/
  tried : ∀ {s'}, Journey c project (s.stop project) s' → ∀ t ∈ s'.trials,
    t.file ∈ s.chunks.flatten
  /-- When the conversion has come to its end, their files are finished. -/
  finished : ∀ {s' record}, Journey c project (s.stop project) s' → s'.stage = .ended record →
    s'.Finishes c project plain s.chunks
  /-- It can always come to its end. -/
  ends : ∀ {s'}, Journey c project (s.stop project) s' →
    ∃ s'', Journey c project s' s'' ∧ s''.stage.answer? ≠ none

/-- **A stop is honoured at every moment of a conversion** whose record has not come to an end. -/
theorem Journey.honoursStop {c : Converter σ} {project : String} {w₁ : Workshop σ} {s : Passage σ}
    {r : Record} (h : Journey c project (.start w₁) s) (hsound : w₁.tree.top.IsSound)
    (hrecord : Table.find? s.workshop.ledger project = some r)
    (hopen : r.status.isTerminal = .ok false) :
    s.HonoursStop c project (c.LaysPlain project w₁) r := by
  have hstopped := Workshop.stop_of_open hrecord hopen
  have hstatus : ((s.stop project).workshop.record project).status = .stopped :=
    congrArg Record.status hstopped
  have hon : (s.stop project).IsOn c project w₁ := (h.isOn hsound).passed hsound .stop
  have hkept : ∀ {s'}, Journey c project (s.stop project) s' →
      s'.workshop.record project = (s.stop project).workshop.record project ∧
        s'.IsOn c project w₁ ∧ s'.chunks = s.chunks := by
    intro s' h'
    obtain ⟨hsame, hon'⟩ := h'.record_of_isFinal hon hsound (.inr (.inr hstatus))
    exact ⟨hsame, hon', h'.chunks_of_isStopped hon hsound hstatus⟩
  refine ⟨hstopped, fun h' => (hkept h').1, fun h' => ?_, fun h' => ?_, fun h' hended => ?_,
    fun _ => Passage.exists_answer c project _⟩
  · obtain ⟨-, hon', hchunks⟩ := hkept h'
    exact ⟨hchunks, hchunks ▸ hon'.chunks_prefix⟩
  · obtain ⟨-, hon', hchunks⟩ := hkept h'
    exact hchunks ▸ hon'.tried
  · obtain ⟨-, hon', hchunks⟩ := hkept h'
    exact hchunks ▸ hon'.finishes hended

/-! ### A stop in the first chunk -/

/-- A record under way is there when a conversion is ready to make its moves. -/
theorem Converter.exists_record_of_prepare {c : Converter σ} {project : String} {w w' : Workshop σ}
    {r : Run} {total : Nat} (h : (w.record project).IsUnderWay 0 total [])
    (hprepare : c.prepare project w = (.ok r, w')) :
    ∃ record, Table.find? w'.ledger project = some record ∧ record.status = .inProgress := by
  obtain ⟨files, -, -, -, -, -, -, -, -, -, hw'⟩ := prepare_start hprepare
  have hforget : (((c.laidOut project w).forget project).record project).status = .inProgress :=
    (laidOut_of_isUnderWay c h).status
  have hupdate := Ledger.update_of_inProgress hforget
    (c := { total := some (.int files.length), step := some (.text "converting") }) rfl rfl
  rw [hw']
  unfold Workshop.update
  rw [Workshop.enter_ledger_of_ok hupdate]
  exact ⟨_, (Table.find?_set _ project project _).trans (if_pos rfl), hforget⟩

/-- A stop while the first of two chunks is being converted. -/
theorem honoursStop_small : ∃ (w₁ : Workshop Unit) (s : Passage Unit) (r : Record),
    Journey .small "demo" (.start w₁) s ∧ w₁.tree.top.IsSound ∧
    Table.find? s.workshop.ledger "demo" = some r ∧ r.status.isTerminal = .ok false ∧
    s.chunks = [[["a.php"]]] ∧
    s.HonoursStop .small "demo" (Converter.LaysPlain .small "demo" w₁) r := by
  have hsorted : ["a.php", "b.php"].Pairwise fun a b => a ≤ b := by decide
  have hchunks : chunksOf 1 (["a.php", "b.php"].map fun n => [n]) = [[["a.php"]], [["b.php"]]] :=
    chunksOf_one _
  obtain ⟨w₁, w, hbegin, hprepare, -⟩ :=
    Converter.exists_prepare_begun [] hsorted (by decide) (List.cons_ne_nil _ _)
  obtain ⟨htree, hfresh⟩ := Converter.tree_and_record_of_begin hbegin
  rw [hchunks] at hprepare
  have hsound : w₁.tree.top.IsSound := htree ▸ Converter.isSound_pair
  obtain ⟨r, hrecord, hstatus⟩ := Converter.exists_record_of_prepare hfresh hprepare
  have hgoing : (w.record "demo").status = .inProgress := by
    unfold Workshop.record Ledger.get
    rw [hrecord]
    exact hstatus
  obtain ⟨s, hjourney, hstage, rfl, hnone⟩ :=
    exists_journey_of_drive (n := 4) (s := .start w₁) (Converter.drive_of_prepare hprepare)
  have hmove : Moved .small .dispatch none
      ⟨"demo", ["demo", "converted"], [], [[["a.php"]], [["b.php"]]]⟩ s.workshop _ s.workshop :=
    .dispatch (Converter.dispatch_of_inProgress (by simp) rfl hgoing)
  have hready := hjourney.next (.move hstage hmove)
  have hdispatched : s.chunks ++ Converter.dispatched .dispatch
      ⟨"demo", ["demo", "converted"], [], [[["a.php"]], [["b.php"]]]⟩ s.workshop =
      [[["a.php"]]] := by
    unfold Converter.dispatched
    rw [hnone, if_pos ⟨rfl, Workshop.isStopped_of_inProgress hgoing⟩]
    rfl
  have hterminal : r.status.isTerminal = .ok false := by
    rw [hstatus]
    rfl
  exact ⟨w₁, _, r, hready, hsound, hrecord, hterminal, hdispatched,
    hready.honoursStop hsound hrecord hterminal⟩

end PhpMigration
