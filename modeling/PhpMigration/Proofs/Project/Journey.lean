/-
A whole conversion among other requests, and the files of its chunks.

A conversion takes its steps and makes its moves, whatever the attempts come to; in between, it may
be stopped, and entries may be made that are none of its business.  Beside all this it is noted
which files it has found, which chunks it has dispatched, and which attempts it has made
(`Passage`).

What becomes of a file of a dispatched chunk does not depend on the ledger.  So these files are
followed without it (`Carried`): each has come to what its standing says (`IsTracked`), and the
other files of the conversion have not been touched.  That is kept by everything that can happen
(`Journey.isOn`), by a stop like by any other entry.
-/
import PhpMigration.Proofs.Project.History
import PhpMigration.Proofs.Project.Stage
import PhpMigration.Proofs.Project.Strategy

namespace PhpMigration

variable {σ : Type}

/-! ### What others may change -/

/-- The files, the mappings and the claims are the same. -/
structure Workshop.Agrees (w w' : Workshop σ) : Prop where
  tree : w'.tree = w.tree
  mappings : w'.mappings = w.mappings
  claims : w'.claims = w.claims

namespace Workshop

theorem agrees_enter (entry : Ledger → Except Misfit (Record × Ledger)) (w : Workshop σ) :
    w.Agrees (w.enter entry).2 :=
  ⟨enter_tree entry, enter_mappings entry, enter_claims entry⟩

theorem agrees_stop (project : String) (w : Workshop σ) : w.Agrees (w.stop project).2 := by
  unfold stop
  dsimp only
  split
  · exact agrees_enter _ w
  · exact ⟨rfl, rfl, rfl⟩

end Workshop

/-- A conversion of a project with what its program does not keep. -/
structure Passage (σ : Type) where
  stage : Stage
  workshop : Workshop σ
  /-- The files that it has found. -/
  files : List (List String) := []
  /-- The chunks that it has dispatched. -/
  chunks : List (List (List String)) := []
  /-- The attempts that it has made. -/
  trials : List Trial := []

/-- The files that a conversion has just found. -/
def Stage.found? : Stage → Option (List (List String))
  | .found _ files => some files
  | _ => none

/-- The chunk that a move dispatches, if it does. -/
def Converter.dispatched (m : Move) (r : Run) (w : Workshop σ) : List (List (List String)) :=
  if m = .dispatch ∧ w.ledger.isStopped r.project = false then r.queue.take 1 else []

/-- What can happen to a conversion at a time. -/
inductive Passed (c : Converter σ) (project : String) : Passage σ → Passage σ → Prop
  | proceed {s : Passage σ} {stage : Stage} {w : Workshop σ}
      (h : c.proceed project s.stage s.workshop = some (stage, w)) :
      Passed c project s { s with stage, workshop := w, files := stage.found?.getD s.files }
  | move {s : Passage σ} {m : Move} {trial : Option Trial} {r r' : Run} {w : Workshop σ}
      (hstage : s.stage = .moving r) (h : Moved c m trial r s.workshop r' w) :
      Passed c project s
        { s with
          stage := .moving r'
          workshop := w
          chunks := s.chunks ++ Converter.dispatched m r s.workshop
          trials := s.trials ++ trial.toList }
  | stop {s : Passage σ} : Passed c project s { s with workshop := (s.workshop.stop project).2 }
  /-- An entry for another project, or a change of what is noted beside the files. -/
  | elsewhere {s : Passage σ} {w : Workshop σ} (h : s.workshop.Agrees w)
      (hrecord : Table.find? w.ledger project = Table.find? s.workshop.ledger project) :
      Passed c project s { s with workshop := w }
  /-- An operation on the records once that of the project has come to an end, unless it begins the
  record anew or forgets it. -/
  | asked {s : Passage σ} {op : LedgerOperation}
      (hfinal : (s.workshop.record project).status.IsFinal)
      (hop : op.renews s.workshop.ledger project = false) :
      Passed c project s
        { s with workshop := { s.workshop with ledger := op.after s.workshop.ledger } }

/-- What happens to a conversion, one thing after another. -/
inductive Journey (c : Converter σ) (project : String) (s : Passage σ) : Passage σ → Prop
  | here : Journey c project s s
  | next {s₁ s₂ : Passage σ} (h : Journey c project s s₁) (hstep : Passed c project s₁ s₂) :
      Journey c project s s₂

theorem Journey.trans {c : Converter σ} {project : String} {s s₁ s₂ : Passage σ}
    (h : Journey c project s s₁) (h' : Journey c project s₁ s₂) : Journey c project s s₂ := by
  induction h' with
  | here => exact h
  | next _ hstep ih => exact ih.next hstep

/-- Steps that are no moves are part of a journey. -/
theorem exists_journey_of_drive {c : Converter σ} {project : String} {n : Nat} {s : Passage σ}
    {stage : Stage} {w : Workshop σ}
    (h : c.drive project (.replicate n .proceed) (s.stage, s.workshop) = some (stage, w)) :
    ∃ s', Journey c project s s' ∧ s'.stage = stage ∧ s'.workshop = w ∧ s'.chunks = s.chunks := by
  induction n generalizing s with
  | zero =>
      cases h
      exact ⟨s, .here, rfl, rfl, rfl⟩
  | succ n ih =>
      obtain ⟨next, hnext, hrest⟩ := Option.bind_eq_some_iff.mp h
      obtain ⟨s₁, hstep, hnext₁, hchunks₁⟩ : ∃ s₁, Passed c project s s₁ ∧
          next = (s₁.stage, s₁.workshop) ∧ s₁.chunks = s.chunks :=
        ⟨_, .proceed hnext, rfl, rfl⟩
      rw [hnext₁] at hrest
      obtain ⟨s', hjourney, hstage, hworkshop, hchunks⟩ := ih hrest
      rw [hchunks₁] at hchunks
      exact ⟨s', (Journey.here.next hstep).trans hjourney, hstage, hworkshop, hchunks⟩

/-- A conversion whose record has been begun. -/
def Passage.start (w : Workshop σ) : Passage σ := { stage := .begun, workshop := w }

/-! ### One file -/

/-- How a file has come to stand as it does, or that the program was told to end at it. -/
def IsTracked (maxAttempts : Nat) (path : String) (holds : Mapping → String → Prop)
    (results : List (Except Incident (Mapping × String))) (mappings : List Mapping)
    (standing : Standing) : Prop :=
  (∃ failures, Fares maxAttempts path holds results mappings failures standing) ∨
    (∃ cause, standing = .abandoned cause) ∧ mappings = []

/-- A text has been written for a file, and a file is there; it has the text if the output is
`plain`. -/
structure Workshop.Delivers (plain : Prop) (w : Workshop σ) (project : String)
    (output : List String) (file : String) (m : Mapping) (code : String) : Prop where
  source : m.source = file
  there : ∃ place content, w.tree.LeadsTo (output ++ Path.parts m.target) place (.file content)
  holds : plain → w.Holds project output file m code

namespace Workshop.Delivers

variable {plain : Prop} {w w' : Workshop σ} {project file : String} {output : List String}
  {m : Mapping} {code : String}

theorem congr (h : w.Delivers plain project output file m code) (htree : w'.tree = w.tree)
    (hclaims : w'.claims = w.claims) : w'.Delivers plain project output file m code := by
  obtain ⟨hsource, hthere, hholds⟩ := h
  exact ⟨hsource, by rwa [htree], fun hplain => (hholds hplain).congr htree hclaims⟩

/-- What has been written for another file is still there. -/
theorem of_writesFor (h : w.Delivers plain project output file m code)
    (hgrown : w.tree.Grown w'.tree) {other : String} (hne : file ≠ other)
    (hwrites : plain → WritesFor project output other w w') :
    w'.Delivers plain project output file m code := by
  obtain ⟨hsource, ⟨place, content, hleads⟩, hholds⟩ := h
  obtain ⟨e, hleads', content', rfl⟩ := hgrown.leadsTo hleads
  exact ⟨hsource, ⟨place, content', hleads'⟩, fun hplain =>
    (hwrites hplain).others file m code hne (hholds hplain)⟩

end Workshop.Delivers

namespace Attempted

variable {r : Run} {file : List String} {w w' : Workshop σ} {m : Mapping} {code : String}

/-- What an attempt that succeeds has written is there. -/
theorem delivers (h : Attempted r file w (.ok (m, code)) w') {plain : Prop}
    (htidy : plain → w.IsTidy r.project r.output) :
    w'.Delivers plain r.project r.output (Path.join file) m code := by
  refine ⟨?_, ?_, fun hplain => h.holds (htidy hplain)⟩ <;> cases h with
  | delivered content text s h => _
  · rw [(Converter.deliver_ok (congrArg Prod.fst h)).1]
    rfl
  · obtain ⟨place, hleads, -⟩ := Converter.built_of_deliver_ok h
    exact ⟨place, _, hleads⟩

end Attempted

theorem Advances.grown {c : Converter σ} {r : Run} {file : List String} {w w' : Workshop σ}
    {standing standing' : Standing} {trial : Option Trial}
    (h : Advances c r file w standing trial standing' w') : w.tree.Grown w'.tree := by
  cases h with
  | converted h => exact h.grown
  | missed h =>
      rw [Converter.afterFailure_tree]
      exact h.grown
  | entered =>
      rename_i m
      exact (Workshop.enter_tree (w := w.addMapping r.project m) _) ▸ .refl _
  | reported => exact (Workshop.enter_tree (w := w) _) ▸ .refl _

theorem IsTracked.advance {c : Converter σ} {r : Run} {file : List String} {w w' : Workshop σ}
    {holds holds' : Mapping → String → Prop} {results : List (Except Incident (Mapping × String))}
    {mappings : List Mapping} {standing standing' : Standing} {trial : Option Trial}
    (h : IsTracked c.settings.maxAttempts (Path.join file) holds results mappings standing)
    (ha : Advances c r file w standing trial standing' w')
    (hkept : trial = none → ∀ m code, holds m code → holds' m code)
    (hdone : ∀ m code, (⟨file, .ok (m, code)⟩ : Trial) ∈ trial → holds' m code) :
    IsTracked c.settings.maxAttempts (Path.join file) holds'
      (results ++ trial.toList.map Trial.result) (mappings ++ standing.mapping?.toList)
      standing' := by
  rcases h with ⟨failures, hfares⟩ | ⟨⟨cause, rfl⟩, -⟩
  · rcases hfares.advance ha hkept hdone with ⟨cause, -, -, habandoned, rfl⟩ | hfares'
    · refine .inr ⟨⟨cause, habandoned⟩, ?_⟩
      cases ha with
      | missed h => rfl
      | _ => cases habandoned
    · exact .inl ⟨_, hfares'⟩
  · cases ha

/-! ### All files of the chunks -/

/-- What has become of the files of the chunks that were dispatched, while the `rest` of the files
has not been touched. -/
structure Carried (c : Converter σ) (project : String) (output : List String) (plain : Prop)
    (trials : List Trial) (stands : List Task) (rest : List (List String)) (w : Workshop σ) :
    Prop where
  tidy : plain → w.IsTidy project output
  distinct : ((stands.map Task.file ++ rest).map Path.join).Nodup
  owned : ∀ m ∈ w.mappingsOf project, ∃ t ∈ stands, m.source = Path.join t.file
  tried : ∀ t ∈ trials, t.file ∈ stands.map Task.file
  tracked : ∀ t ∈ stands, IsTracked c.settings.maxAttempts (Path.join t.file)
    (w.Delivers plain project output (Path.join t.file)) (resultsOf trials t.file)
    ((w.mappingsOf project).filter fun m => m.source = Path.join t.file) t.standing

theorem IsTracked.mono {maxAttempts : Nat} {path : String} {holds holds' : Mapping → String → Prop}
    {results : List (Except Incident (Mapping × String))} {mappings : List Mapping}
    {standing : Standing} (h : IsTracked maxAttempts path holds results mappings standing)
    (himp : ∀ m code, holds m code → holds' m code) :
    IsTracked maxAttempts path holds' results mappings standing := by
  rcases h with ⟨failures, hfares⟩ | hended
  · exact .inl ⟨failures, hfares.mono himp⟩
  · exact .inr hended

namespace Carried

variable {c : Converter σ} {project : String} {output : List String} {plain : Prop}
  {trials : List Trial} {stands : List Task} {chunk rest : List (List String)} {w w' : Workshop σ}
  {i : Nat} {file : List String} {standing standing' : Standing}

/-- Nothing has been done yet. -/
theorem start (htidy : plain → w.IsTidy project output) (hdistinct : (rest.map Path.join).Nodup)
    (hmappings : w.mappingsOf project = []) : Carried c project output plain [] [] rest w := by
  refine ⟨htidy, hdistinct, ?_, by simp, by simp⟩
  rw [hmappings]
  simp

theorem congr (h : Carried c project output plain trials stands rest w) (hagrees : w.Agrees w') :
    Carried c project output plain trials stands rest w' := by
  have hmappings : w'.mappingsOf project = w.mappingsOf project := by
    unfold Workshop.mappingsOf
    rw [hagrees.mappings]
  refine ⟨fun hplain => (h.tidy hplain).congr hagrees.tree hagrees.claims, h.distinct, ?_, h.tried,
    fun t ht => ?_⟩
  · rw [hmappings]
    exact h.owned
  · rw [hmappings]
    exact (h.tracked t ht).mono fun m code hdelivers =>
      hdelivers.congr hagrees.tree hagrees.claims

/-- The files that have not been touched may be dropped. -/
theorem drop (h : Carried c project output plain trials stands rest w) :
    Carried c project output plain trials stands [] w := by
  refine ⟨h.tidy, ?_, h.owned, h.tried, h.tracked⟩
  have hdistinct := h.distinct
  rw [List.map_append] at hdistinct
  rw [List.append_nil]
  exact (List.nodup_append.mp hdistinct).1

/-- The files of a chunk have not been touched when it is dispatched. -/
theorem dispatch (h : Carried c project output plain trials stands (chunk ++ rest) w) :
    Carried c project output plain trials (stands ++ chunk.map fun file => ⟨file, .waiting 1⟩) rest
      w := by
  have hfiles : (stands ++ chunk.map fun file => (⟨file, .waiting 1⟩ : Task)).map Task.file =
      stands.map Task.file ++ chunk := by
    rw [List.map_append, List.map_map]
    exact congrArg _ (List.map_id chunk)
  have hnew : ∀ file ∈ chunk, ∀ t ∈ stands, Path.join t.file ≠ Path.join file := by
    intro file hfile t ht
    have hdistinct := h.distinct
    rw [List.map_append] at hdistinct
    exact (List.nodup_append.mp hdistinct).2.2 _ (List.mem_map_of_mem (List.mem_map_of_mem ht)) _
      (List.mem_map_of_mem (List.mem_append_left _ hfile))
  refine ⟨h.tidy, ?_, ?_, ?_, ?_⟩
  · rw [hfiles, List.append_assoc]
    exact h.distinct
  · intro m hm
    obtain ⟨t, ht, hsource⟩ := h.owned m hm
    exact ⟨t, List.mem_append_left _ ht, hsource⟩
  · intro t ht
    rw [hfiles]
    exact List.mem_append_left _ (h.tried t ht)
  · intro t ht
    rcases List.mem_append.mp ht with ht | ht
    · exact h.tracked t ht
    · obtain ⟨file, hfile, rfl⟩ := List.mem_map.mp ht
      have hresults : resultsOf trials file = [] := by
        refine congrArg (List.map Trial.result) (List.filter_eq_nil_iff.mpr fun trial htrial heq => ?_)
        obtain ⟨old, hold, hsame⟩ := List.mem_map.mp (h.tried trial htrial)
        exact hnew file hfile old hold (by rw [hsame, of_decide_eq_true heq])
      have hmappings : (w.mappingsOf project).filter (fun m => m.source = Path.join file) = [] := by
        refine List.filter_eq_nil_iff.mpr fun m hm heq => ?_
        obtain ⟨old, hold, hsource⟩ := h.owned m hm
        exact hnew file hfile old hold (hsource.symm.trans (of_decide_eq_true heq))
      rw [hresults, hmappings]
      exact .inl ⟨[], @Fares.waiting _ _ _ [] c.settings.maxAttempts_pos⟩

/-- **A move that takes one file further leaves all others as they are.** -/
theorem advance {r : Run} (h : Carried c r.project r.output plain trials stands rest w)
    (hi : stands[i]? = some ⟨file, standing⟩) {trial : Option Trial}
    (ha : Advances c r file w standing trial standing' w') :
    Carried c r.project r.output plain (trials ++ trial.toList)
      (stands.set i ⟨file, standing'⟩) rest w' := by
  have hwrites : plain → Workshop.WritesFor r.project r.output (Path.join file) w w' :=
    fun hplain => ha.writesFor (h.tidy hplain)
  have hmap : (stands.set i ⟨file, standing'⟩).map Task.file = stands.map Task.file :=
    map_file_set hi
  have hstands : ((stands.map Task.file).map Path.join).Nodup := by
    have hdistinct := h.distinct
    rw [List.map_append] at hdistinct
    exact (List.nodup_append.mp hdistinct).1
  have hold := h.tracked _ (List.mem_of_getElem? hi)
  have hnew : ∀ m ∈ standing.mapping?.toList, m.source = Path.join file := by
    intro m hm
    cases standing with
    | converted m' =>
        obtain rfl := List.mem_singleton.mp hm
        rcases hold with ⟨failures, hfares⟩ | ⟨⟨cause, habandoned⟩, -⟩
        · obtain ⟨-, -, causes, code, -, -, hdelivers⟩ := hfares.of_converted
          exact hdelivers.source
        · cases habandoned
    | _ => cases hm
  refine ⟨fun hplain => (hwrites hplain).tidy, by rw [hmap]; exact h.distinct, ?_, ?_, ?_⟩
  · have hall : ∀ path, (∃ t ∈ stands, path = Path.join t.file) →
        ∃ t ∈ stands.set i ⟨file, standing'⟩, path = Path.join t.file := by
      rintro path ⟨t, ht, rfl⟩
      have hmem : t.file ∈ (stands.set i ⟨file, standing'⟩).map Task.file := by
        rw [hmap]
        exact List.mem_map_of_mem ht
      obtain ⟨t', ht', hsame⟩ := List.mem_map.mp hmem
      exact ⟨t', ht', by rw [hsame]⟩
    intro m hm
    rw [ha.mappings] at hm
    rcases List.mem_append.mp hm with hm | hm
    · exact hall _ (h.owned m hm)
    · exact hall _ ⟨_, List.mem_of_getElem? hi, hnew m hm⟩
  · rw [hmap]
    intro t ht
    rcases List.mem_append.mp ht with ht | ht
    · exact h.tried t ht
    · rw [ha.trial_file t ht]
      exact List.mem_map_of_mem (List.mem_of_getElem? hi)
  · intro t ht
    rw [resultsOf_append, ha.mappings, List.filter_append]
    rcases path_ne_of_nodup hstands hi ht with rfl | ⟨ht, hne⟩
    · rw [resultsOf_of_eq ha.trial_file, filter_source_of_eq hnew]
      refine hold.advance ha ?_ ?_
      · rintro rfl m code hdelivers
        exact hdelivers.congr ha.tree_and_claims.1 ha.tree_and_claims.2
      · rintro m code rfl
        exact ha.attempted.delivers h.tidy
    · rw [resultsOf_of_ne ha.trial_file hne, filter_source_of_ne hnew hne, List.append_nil,
        List.append_nil]
      exact (h.tracked t ht).mono fun m code hdelivers =>
        hdelivers.of_writesFor ha.grown hne hwrites

end Carried

/-! ### A whole conversion -/

/-- There is no link in the folder that the output goes to, once the skeleton is laid. -/
def Converter.LaysPlain (c : Converter σ) (project : String) (w : Workshop σ) : Prop :=
  ∀ output, c.outputFolder project = .ok output →
    ∃ place e, (c.laidOut project w).tree.LeadsTo output place e ∧ e.HasNoLink

namespace Passage

variable {c : Converter σ} {project : String} {w₁ w : Workshop σ} {s : Passage σ}
  {output : List String} {stands : List Task} {queue : List (List (List String))} {r r' : Run}

/-- The chunks that were dispatched are the first of all, and their files are carried on; only the
chunks in the queue are still to come. -/
structure Covers (c : Converter σ) (project : String) (w₁ : Workshop σ) (s : Passage σ)
    (output : List String) (stands : List Task) (queue : List (List (List String))) : Prop where
  folder : c.outputFolder project = .ok output
  files : stands.map Task.file = s.chunks.flatten
  chunks : ∃ rest, s.chunks ++ rest = chunksOf c.settings.chunkSize s.files ∧
    (queue = rest ∨ queue = [])
  carried : Carried c project output (c.LaysPlain project w₁) s.trials stands queue.flatten
    s.workshop

/-- What holds of a conversion that began with the workshop `w₁`, by its stage. -/
def IsOn (c : Converter σ) (project : String) (w₁ : Workshop σ) (s : Passage σ) : Prop :=
  match s.stage with
  | .begun | .housed => s.workshop.tree = w₁.tree ∧ s.chunks = [] ∧ s.trials = []
  | .laid output => c.outputFolder project = .ok output ∧
    s.workshop.tree = (c.laidOut project w₁).tree ∧ s.chunks = [] ∧ s.trials = []
  | .found output files => c.outputFolder project = .ok output ∧
    s.workshop.tree = (c.laidOut project w₁).tree ∧ s.files = files ∧
    c.sources project s.workshop = .ok files ∧ s.chunks = [] ∧ s.trials = []
  | .moving r => r.project = project ∧ ∃ stands, Run.Shows { r with queue := [] } stands ∧
    s.Covers c project w₁ r.output stands r.queue
  | .closing | .ended _ => ∃ output stands, (∀ t ∈ stands, t.isSettled = true) ∧
    s.Covers c project w₁ output stands []
  | .lost _ => ∃ output stands queue, s.Covers c project w₁ output stands queue
  | .failing _ | .failed _ => s.chunks = [] ∧ s.trials = []

theorem Covers.congr (h : s.Covers c project w₁ output stands queue)
    (hagrees : s.workshop.Agrees w) (stage : Stage) :
    ({ s with stage, workshop := w } : Passage σ).Covers c project w₁ output stands queue :=
  ⟨h.folder, h.files, h.chunks, h.carried.congr hagrees⟩

/-- What others change does not matter. -/
theorem IsOn.congr (h : s.IsOn c project w₁) (hagrees : s.workshop.Agrees w) :
    ({ s with workshop := w } : Passage σ).IsOn c project w₁ := by
  obtain ⟨stage, workshop, files, chunks, trials⟩ := s
  have htree := hagrees.tree
  cases stage with
  | begun => exact ⟨htree.trans h.1, h.2⟩
  | housed => exact ⟨htree.trans h.1, h.2⟩
  | laid output => exact ⟨h.1, htree.trans h.2.1, h.2.2⟩
  | found output files =>
      obtain ⟨houtput, hlaid, hfiles, hsources, hnone⟩ := h
      exact ⟨houtput, htree.trans hlaid, hfiles, (Converter.sources_of_tree htree).trans hsources,
        hnone⟩
  | moving r =>
      obtain ⟨hproject, stands, hshows, hcovers⟩ := h
      exact ⟨hproject, stands, hshows, hcovers.congr hagrees _⟩
  | closing =>
      obtain ⟨output, stands, hall, hcovers⟩ := h
      exact ⟨output, stands, hall, hcovers.congr hagrees _⟩
  | ended record =>
      obtain ⟨output, stands, hall, hcovers⟩ := h
      exact ⟨output, stands, hall, hcovers.congr hagrees _⟩
  | lost cause =>
      obtain ⟨output, stands, queue, hcovers⟩ := h
      exact ⟨output, stands, queue, hcovers.congr hagrees _⟩
  | failing incident => exact h
  | failed incident => exact h

/-- Once all files of a chunk are settled, those of another chunk stand beside them. -/
theorem shows_dispatch (h : Run.Shows { r with queue := [] } stands)
    (hall : r.tasks.all Task.isSettled = true) (chunk : List (List String)) :
    Run.Shows { r with tasks := chunk.map fun file => ⟨file, .waiting 1⟩, queue := [] }
      (stands ++ chunk.map fun file => ⟨file, .waiting 1⟩) := by
  have hbefore : Run.Shows { r with queue := [chunk] }
      (stands ++ chunk.map fun file => ⟨file, .waiting 1⟩) := by
    obtain ⟨past, rfl⟩ := h
    refine ⟨past, ?_⟩
    simp
  exact hbefore.dispatch hall rfl

/-- A move dispatches the next chunk, or none once the conversion was stopped, or it takes a file
of the chunk at hand further. -/
theorem Covers.move (h : s.Covers c project w₁ r.output stands r.queue)
    (hproject : r.project = project) (hshows : Run.Shows { r with queue := [] } stands) {m : Move}
    {trial : Option Trial} (hmove : Moved c m trial r s.workshop r' w) (stage : Stage) :
    ∃ stands', Run.Shows { r' with queue := [] } stands' ∧
      ({ s with
          stage
          workshop := w
          chunks := s.chunks ++ Converter.dispatched m r s.workshop
          trials := s.trials ++ trial.toList } : Passage σ).Covers c project w₁ r'.output stands'
        r'.queue := by
  obtain ⟨rest, hchunks, hqueue⟩ := h.chunks
  rcases hmove.dispatches_or_advances with ⟨rfl, rfl, rfl, hdispatch⟩ |
    ⟨hno, place, t, standing', ht, rfl, hadvances⟩
  · obtain ⟨hall, chunk, later, hq, hcase⟩ := Converter.dispatch_cases hdispatch
    rw [Option.toList_none, List.append_nil]
    rcases hcase with ⟨hstopped, rfl⟩ | ⟨hgoing, rfl⟩
    · have hnone : Converter.dispatched .dispatch r s.workshop = [] := by
        unfold Converter.dispatched
        rw [hstopped]
        rfl
      have hshows' := shows_dispatch hshows hall []
      rw [List.map_nil, List.append_nil] at hshows'
      rw [hnone, List.append_nil]
      exact ⟨stands, hshows', h.folder, h.files, ⟨rest, hchunks, .inr rfl⟩, h.carried.drop⟩
    · have hone : Converter.dispatched .dispatch r s.workshop = [chunk] := by
        unfold Converter.dispatched
        rw [if_pos ⟨rfl, hgoing⟩, hq]
        rfl
      have hcarried := h.carried
      rw [hq, List.flatten_cons] at hcarried
      rw [hone]
      refine ⟨_, shows_dispatch hshows hall chunk, h.folder, ?_, ⟨later, ?_, .inl rfl⟩,
        hcarried.dispatch⟩
      · rw [List.map_append, List.map_map, h.files, List.flatten_append, List.flatten_singleton]
        exact congrArg _ (List.map_id chunk)
      · rcases hqueue with hqueue | hqueue
        · rw [List.append_assoc, List.singleton_append, ← hq, hqueue]
          exact hchunks
        · rw [hq] at hqueue
          cases hqueue
  · have hnone : Converter.dispatched m r s.workshop = [] := by
      unfold Converter.dispatched
      rw [if_neg fun hdispatch => hno hdispatch.1]
    obtain ⟨i, hi, hshows', -⟩ := hshows.setStanding ht standing'
    have hcarried := h.carried
    rw [← hproject] at hcarried
    rw [hnone, List.append_nil]
    refine ⟨_, hshows', h.folder, ?_, h.chunks, ?_⟩
    · rw [map_file_set hi]
      exact h.files
    · have hnext := hcarried.advance hi hadvances
      rw [hproject] at hnext
      exact hnext

/-- What is ready to make its moves has dispatched nothing, and no file has been touched. -/
theorem covers_start (hsound : w₁.tree.top.IsSound) {files : List (List String)}
    (houtput : c.outputFolder project = .ok output)
    (htree : s.workshop.tree = (c.laidOut project w₁).tree)
    (hsources : c.sources project s.workshop = .ok files) (hchunks : s.chunks = [])
    (htrials : s.trials = []) (hfiles : s.files = files) (change : Change) (stage : Stage) :
    ({ s with
        stage
        workshop := (s.workshop.forget project).update project change } : Passage σ).Covers c project
      w₁ output [] (chunksOf c.settings.chunkSize files) := by
  have hdistinct := Converter.nodup_sources
    (htree.symm ▸ Converter.laidOut_isSound c project hsound) hsources
  have htidy : c.LaysPlain project w₁ → (s.workshop.forget project).IsTidy project output := by
    intro hplain
    refine ⟨?_, htree ▸ hplain output houtput⟩
    unfold Workshop.claimsOf Workshop.forget
    rw [Table.find?_set, if_pos rfl]
    exact Claims.isFair_nil
  have hmappings : (s.workshop.forget project).mappingsOf project = [] := by
    unfold Workshop.mappingsOf Workshop.forget
    rw [Table.find?_set, if_pos rfl]
    rfl
  refine ⟨houtput, ?_, ⟨chunksOf c.settings.chunkSize files, ?_, .inl rfl⟩, ?_⟩
  · rw [hchunks]
    rfl
  · rw [hchunks, hfiles]
    rfl
  · rw [htrials, flatten_chunksOf c.settings.chunkSize_pos]
    exact (Carried.start htidy hdistinct hmappings).congr (Workshop.agrees_enter _ _)

/-- Every step of a conversion keeps what holds of it. -/
theorem IsOn.proceed (h : s.IsOn c project w₁) (hsound : w₁.tree.top.IsSound) {stage : Stage}
    (hstep : c.proceed project s.stage s.workshop = some (stage, w)) :
    ({ s with stage, workshop := w, files := stage.found?.getD s.files } : Passage σ).IsOn c project
      w₁ := by
  obtain ⟨before, workshop, files, chunks, trials⟩ := s
  cases before with
  | begun =>
      obtain ⟨htree, hnone⟩ := h
      unfold Converter.proceed at hstep
      dsimp only at hstep
      split at hstep
      · cases hstep
        exact hnone
      · cases hstep
        exact ⟨(Workshop.enter_tree _).trans htree, hnone⟩
  | housed =>
      obtain ⟨htree, hnone⟩ := h
      have hbefore := htree.trans (Workshop.enter_tree (w := w₁) (Ledger.update project
        { step := some (.text "creating_structure") })).symm
      have hlaid := (@Converter.laySkeleton_of_tree _ project _ _ c hbefore).2
      unfold Converter.proceed at hstep
      dsimp only at hstep hlaid
      split at hstep
      · cases hstep
        exact hnone
      · rename_i output w₂ hlay
        cases hstep
        rw [hlay] at hlaid
        exact ⟨Converter.laySkeleton_ok hlay, hlaid, hnone⟩
  | laid output =>
      obtain ⟨houtput, hlaid, hnone⟩ := h
      unfold Converter.proceed at hstep
      dsimp only at hstep
      split at hstep
      · cases hstep
        exact hnone
      · rename_i found hsources
        cases hstep
        exact ⟨houtput, hlaid, rfl, (Converter.needSources_ok hsources).1, hnone⟩
  | found output found =>
      obtain ⟨houtput, hlaid, hfiles, hsources, hchunks, htrials⟩ := h
      cases hstep
      exact ⟨rfl, [], ⟨[], rfl⟩,
        covers_start hsound houtput hlaid hsources hchunks htrials hfiles _ _⟩
  | moving r =>
      obtain ⟨hproject, stands, hshows, hcovers⟩ := h
      obtain ⟨rfl, ⟨cause, rfl⟩ | ⟨hover, hcase⟩⟩ := Converter.proceed_moving_cases hstep
      · exact ⟨r.output, stands, r.queue, hcovers.congr ⟨rfl, rfl, rfl⟩ _⟩
      · have hall := hshows.isSettled ⟨hover.1, rfl⟩
        rw [hover.2] at hcovers
        rcases hcase with ⟨-, rfl⟩ | ⟨-, rfl⟩ <;>
          exact ⟨r.output, stands, hall, hcovers.congr ⟨rfl, rfl, rfl⟩ _⟩
  | closing =>
      obtain ⟨output, stands, hall, hcovers⟩ := h
      cases hstep
      exact ⟨output, stands, hall, hcovers.congr (Workshop.agrees_enter _ _) _⟩
  | failing incident =>
      cases hstep
      exact h
  | ended record => cases hstep
  | failed incident => cases hstep
  | lost cause => cases hstep

theorem IsOn.passed {s' : Passage σ} (h : s.IsOn c project w₁) (hsound : w₁.tree.top.IsSound)
    (hstep : Passed c project s s') : s'.IsOn c project w₁ := by
  cases hstep with
  | proceed hstep => exact h.proceed hsound hstep
  | move hstage hmove =>
      unfold IsOn at h
      rw [hstage] at h
      obtain ⟨hproject, stands, hshows, hcovers⟩ := h
      obtain ⟨stands', hshows', hcovers'⟩ := hcovers.move hproject hshows hmove _
      exact ⟨hmove.project.trans hproject, stands', hshows', hcovers'⟩
  | stop => exact h.congr (Workshop.agrees_stop project s.workshop)
  | elsewhere hagrees hrecord => exact h.congr hagrees
  | asked hfinal hop => exact h.congr ⟨rfl, rfl, rfl⟩

end Passage

/-- **Whatever happens to a conversion, the files of its chunks are carried on.** -/
theorem Journey.isOn {c : Converter σ} {project : String} {w₁ : Workshop σ} {s : Passage σ}
    (h : Journey c project (.start w₁) s) (hsound : w₁.tree.top.IsSound) :
    s.IsOn c project w₁ := by
  induction h with
  | here => exact ⟨rfl, rfl, rfl⟩
  | next _ hstep ih => exact ih.passed hsound hstep

namespace Passage.IsOn

variable {c : Converter σ} {project : String} {w₁ : Workshop σ} {s : Passage σ}

/-- At every stage the chunks that were dispatched are the first of all, and attempts have been made
at their files only. -/
theorem exists_covers_or_none (h : s.IsOn c project w₁) :
    (∃ output stands queue, s.Covers c project w₁ output stands queue) ∨
      s.chunks = [] ∧ s.trials = [] := by
  obtain ⟨stage, workshop, files, chunks, trials⟩ := s
  cases stage with
  | begun => exact .inr h.2
  | housed => exact .inr h.2
  | laid output => exact .inr h.2.2
  | found output found => exact .inr h.2.2.2.2
  | moving r =>
      obtain ⟨-, stands, -, hcovers⟩ := h
      exact .inl ⟨_, _, _, hcovers⟩
  | closing =>
      obtain ⟨output, stands, -, hcovers⟩ := h
      exact .inl ⟨_, _, _, hcovers⟩
  | ended record =>
      obtain ⟨output, stands, -, hcovers⟩ := h
      exact .inl ⟨_, _, _, hcovers⟩
  | lost cause =>
      obtain ⟨output, stands, queue, hcovers⟩ := h
      exact .inl ⟨_, _, _, hcovers⟩
  | failing incident => exact .inr h
  | failed incident => exact .inr h

theorem run_project (h : s.IsOn c project w₁) {r : Run} (hstage : s.stage = .moving r) :
    r.project = project := by
  unfold IsOn at h
  rw [hstage] at h
  exact h.1

theorem chunks_prefix (h : s.IsOn c project w₁) :
    s.chunks <+: chunksOf c.settings.chunkSize s.files := by
  rcases h.exists_covers_or_none with ⟨output, stands, queue, hcovers⟩ | ⟨hchunks, -⟩
  · obtain ⟨rest, hrest, -⟩ := hcovers.chunks
    exact ⟨rest, hrest⟩
  · rw [hchunks]
    exact List.nil_prefix

theorem tried (h : s.IsOn c project w₁) : ∀ t ∈ s.trials, t.file ∈ s.chunks.flatten := by
  rcases h.exists_covers_or_none with ⟨output, stands, queue, hcovers⟩ | ⟨-, htrials⟩
  · rw [← hcovers.files]
    exact hcovers.carried.tried
  · rw [htrials]
    simp

end Passage.IsOn

end PhpMigration
