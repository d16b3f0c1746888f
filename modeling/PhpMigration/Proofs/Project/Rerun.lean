/-
Converting a project a second time.

A second conversion starts from the tree that the first one has left.  The skeleton stands then and
is left alone (`Skeleton.stands_of_lay`), and what has been converted is no source, so the same files
are found.  Their texts are the same, the claims are empty again, and so everything that could be
foreseen when the first conversion was ready is foreseen once more (`Keeps.trials_eq`).  All of it is
there already, and hence the second conversion changes nothing (`Converts.again`).

It is different if a link leads from the output to a source, because then the first conversion has
overwritten what the second one reads, and if a source is read from where another one is converted
to.
-/
import PhpMigration.Proofs.Project.History
import PhpMigration.Proofs.Project.InOrder
import PhpMigration.Proofs.Project.Schedule

namespace PhpMigration

variable {σ : Type}

/-! ### The tree that a conversion leaves -/

/-- A file that is there or could be written is there. -/
theorem Skeleton.leadsToEntry_of_writeFiles {path : List String} {files : Table String}
    {report report' : Report} {t t' : FileTree}
    (h : writeFiles path files report t = (.ok report', t')) :
    ∀ name ∈ files.names, t'.leadsToEntry (path ++ Path.parts name) = .ok true := by
  induction files generalizing report t with
  | nil => exact fun name hname => by cases hname
  | cons entry rest ih =>
      obtain ⟨name, content⟩ := entry
      have hkept : ∀ {report : Report} {t₁ : FileTree}, writeFiles path rest report t₁ =
          (.ok report', t') → t₁.leadsToEntry (path ++ Path.parts name) = .ok true →
          ∀ n ∈ Table.names ((name, content) :: rest),
            t'.leadsToEntry (path ++ Path.parts n) = .ok true := by
        intro report t₁ hrest hthere
        have hgrown := (built_writeFiles path rest report t₁).grown
        rw [hrest] at hgrown
        obtain ⟨place, e, hleads⟩ := FileTree.leadsToEntry_eq_ok_true_iff.mp hthere
        obtain ⟨e', hleads', -⟩ := hgrown.leadsTo hleads
        exact List.forall_mem_cons.mpr
          ⟨FileTree.leadsToEntry_eq_ok_true_iff.mpr ⟨place, e', hleads'⟩, ih hrest⟩
      rcases writeFiles_cons path rest name content report t with
        ⟨fault, t₁, heq, -⟩ | ⟨hthere, heq⟩ | ⟨t₁, -, hwrite, heq⟩
      · rw [heq] at h
        cases h
      · exact hkept (heq.symm.trans h) hthere
      · obtain ⟨place, hleads⟩ := (built_writeFile (path ++ Path.parts name) content
          t).2 (congrArg Prod.fst hwrite)
        rw [hwrite] at hleads
        exact hkept (heq.symm.trans h)
          (FileTree.leadsToEntry_eq_ok_true_iff.mpr ⟨place, _, hleads⟩)

/-- A skeleton that has been laid stands. -/
theorem Skeleton.stands_of_lay {path : List String} {projectName : String} {report : Report}
    {t t' : FileTree} (h : lay path projectName t = (.ok report, t')) :
    Stands path projectName t' := by
  obtain ⟨t₁, -, hwrite⟩ := lay_ok h
  exact ⟨fun name hname => isFolder_of_lay h name hname, leadsToEntry_of_writeFiles hwrite⟩

/-- What is apart from some places stays apart while they are written. -/
theorem FileTree.ReadsApart.filled {t t' : FileTree} {path : List String}
    {written : List String → Prop} (h : t.ReadsApart path written) (hfilled : t.Filled written t') :
    t'.ReadsApart path written := by
  intro t'' hgrown hfiles
  rw [hfilled.read_eq h]
  refine h t'' (hfilled.built.grown.trans hgrown) fun other content hnot => ?_
  exact (hfiles other content hnot).trans
    ⟨fun hat => hfilled.built.at?_file_of hat hnot, fun hat => hfilled.built.at?_file hat hnot⟩

namespace Prospect

variable {p : Prospect} {files : List (List String)} {written : List String → Prop} {taken : Nat}
  {w : Workshop σ}

/-- The same conversion, when there is another tree. -/
def withTree (p : Prospect) (t : FileTree) : Prospect := { p with tree := t }

/-- **What could be foreseen is foreseen again** from the tree that is left. -/
theorem Keeps.trials_eq (h : p.Keeps files written taken w) (hclear : p.IsClear files written) :
    (p.withTree w.tree).trials files = p.trials files := by
  have hrequest : ∀ file ∈ files, (p.withTree w.tree).request file = p.request file := by
    intro file hfile
    unfold request withTree
    dsimp only
    rw [Converter.sourceText_of_read (h.filled.read_eq (hclear.apart file hfile))]
  have hdelivery : ∀ m code, (p.withTree w.tree).delivery m code = p.delivery m code := by
    intro m code
    unfold delivery withTree
    dsimp only
    rw [h.refusal?_eq]
    cases p.tree.refusal? (p.output ++ Path.parts m.target) (p.place ++ Path.parts m.target) with
    | none => rfl
    | some problem => exact congrArg (Except.error ∘ Incident.storage) (h.fault_eq problem _)
  refine List.ext_getElem? fun k => ?_
  rw [getElem?_trials, getElem?_trials]
  refine Option.map_congr fun file hfile => ?_
  have hrequests : (p.withTree w.tree).requests (files.take k) = p.requests (files.take k) := by
    unfold requests
    refine List.filterMap_congr fun other hother => ?_
    rw [hrequest other (List.mem_of_mem_take hother)]
  unfold result
  rw [hrequest file (List.mem_of_getElem? hfile), hrequests]
  cases p.request file with
  | error cause => rfl
  | ok found => exact congrArg (Trial.mk file) (hdelivery _ _)

/-- Everything is as clear as it was. -/
theorem Keeps.isClear (h : p.Keeps files written taken w) (hclear : p.IsClear files written) :
    (p.withTree w.tree).IsClear files written :=
  ⟨hclear.laid.built h.filled.built, hclear.names, hclear.distinct,
    fun file hfile => (hclear.apart file hfile).filled h.filled⟩

end Prospect

/-! ### What a conversion begins and ends with -/

/-- What has been written for a settled file has been mapped. -/
theorem Fares.mem_of_mem_results {maxAttempts : Nat} {path : String}
    {holds : Mapping → String → Prop} {results : List (Except Incident (Mapping × String))}
    {mappings : List Mapping} {failures : List FileFailure}
    (h : Fares maxAttempts path holds results mappings failures .settled) {m : Mapping}
    {code : String} (hmem : Except.ok (m, code) ∈ results) : m ∈ mappings := by
  cases h with
  | entered h hholds =>
      rcases List.mem_append.mp hmem with hmem | hmem
      · obtain ⟨cause, -, hcause⟩ := List.mem_map.mp hmem
        cases hcause
      · cases List.mem_singleton.mp hmem
        exact List.mem_singleton_self _
  | reported h =>
      obtain ⟨cause, -, hcause⟩ := List.mem_map.mp hmem
      cases hcause

/-- Where all files are settled, all that has been written has been mapped. -/
theorem Course.mem_mappingsOf {c : Converter σ} {moves : List Move} {trials : List Trial}
    {r r' : Run} {w w' : Workshop σ} {stands : List Task} (h : Course c r w moves trials r' w')
    (hover : r'.IsOver) (hshows : r.Shows stands)
    (hbalanced : Balanced c r.project r.output [] [] stands w) {t : Trial} (ht : t ∈ trials)
    {m : Mapping} {code : String} (hresult : t.result = .ok (m, code)) :
    m ∈ w'.mappingsOf r.project := by
  obtain ⟨-, -, failures, stands', hshows', -, hbalanced'⟩ :=
    h.balanced (h.isOrdinary hover.not_isAbandoned) hshows hbalanced
  obtain ⟨task, htask, hfile⟩ := List.mem_map.mp (hbalanced'.tried t ht)
  have hfares := hbalanced'.fares task htask
  have hsettled := hshows'.isSettled hover task htask
  obtain ⟨file, standing⟩ := task
  cases standing with
  | settled =>
      have hmem : Except.ok (m, code) ∈ resultsOf trials file :=
        List.mem_map.mpr ⟨t, List.mem_filter.mpr ⟨ht, decide_eq_true hfile.symm⟩, hresult⟩
      exact List.mem_of_mem_filter (hfares.mem_of_mem_results hmem)
  | _ => cases hsettled

/-- The record that is foreseen. -/
def Prospect.record (p : Prospect) (files : List (List String)) : Record :=
  { status := .completed
    progress := .int 100
    step := .text "completed"
    completed := .int files.length
    total := .int files.length
    failed := .list (((p.trials files).filterMap Trial.failure?).map FileFailure.toDocument) }

namespace Converter

variable {c : Converter σ} {outcomes : String → String → Except Incident String}
  {project : String} {files : List (List String)} {r : Run} {w₀ w₁ w w' : Workshop σ}

/-- Nothing is said of an error in a record that has been begun. -/
theorem error_of_begin (h : beginRecord project {} w₀ = (.ok (), w₁)) :
    (w₁.record project).error = .null := by
  unfold beginRecord Workshop.create Ledger.create at h
  cases hfree : w₀.ledger.isFree project with
  | error misfit => rw [hfree] at h; cases h
  | ok free =>
      rw [hfree] at h
      cases free with
      | false => cases h
      | true =>
          cases h
          unfold Workshop.record
          rw [Ledger.get_set, if_pos rfl]
          rfl

/-- A change that says nothing of an error does not touch it. -/
theorem error_of_update {change : Change} (hstatus : (w.record project).status = .inProgress)
    (hprogress : change.progress = none) (hstrange : change.isStrange = false)
    (herror : change.error = none) :
    ((w.update project change).record project).error = (w.record project).error := by
  unfold Workshop.update
  rw [Workshop.update_record hstatus hprogress hstrange]
  unfold Record.changed
  rw [herror]
  rfl

/-- Getting ready does not touch the error of a record. -/
theorem error_of_prepare (hfresh : (w₁.record project).IsUnderWay 0 0 [])
    (hprepare : c.prepare project w₁ = (.ok r, w)) :
    (w.record project).error = (w₁.record project).error := by
  obtain ⟨found, -, -, -, -, -, -, -, -, -, rfl⟩ := prepare_start hprepare
  have hstatus : (((c.laidOut project w₁).forget project).record project).status = .inProgress :=
    (laidOut_of_isUnderWay c hfresh).status
  refine (error_of_update hstatus rfl rfl rfl).trans ?_
  show ((c.laidOut project w₁).record project).error = _
  unfold laidOut Workshop.record
  rw [laySkeleton_ledger]
  exact error_of_update hfresh.status rfl rfl rfl

/-- A conversion that is ready is on course. -/
theorem isOnCourse_of_prepare (hsound : w₁.tree.top.IsSound)
    (hbegin : beginRecord project {} w₀ = (.ok (), w₁))
    (hprepare : c.prepare project w₁ = (.ok r, w)) (hsources : c.sources project w = .ok files)
    (place : List String) (written : List String → Prop) :
    IsOnCourse ⟨outcomes, project, r.output, place, w.tree⟩ files written 0 0 r w := by
  have hfresh := (tree_and_record_of_begin hbegin).2
  obtain ⟨found, hfound, -, hproject, htasks, hqueue, -, htree, hmappings, hclaims, hrecord⟩ :=
    prepare_ok hfresh hprepare
  have hfiles : found = files := by
    rw [← sources_of_tree htree, hsources] at hfound
    cases hfound
    rfl
  subst hfiles
  refine ⟨hproject, rfl, ⟨_, ⟨[], ?_⟩, .start _⟩, ⟨.refl _, ?_, hclaims, ?_, fun _ => rfl⟩,
    ⟨hmappings, ?_, (error_of_prepare hfresh hprepare).trans (error_of_begin hbegin)⟩⟩
  · rw [htasks, hqueue, flatten_chunksOf c.settings.chunkSize_pos, Prospect.map_file_trials]
    rfl
  · rw [htree]
    exact laidOut_isSound c project hsound
  · exact fun k hk => absurd hk (Nat.not_lt_zero k)
  · rw [Prospect.length_trials]
    exact hrecord

theorem conclude_mappings (project : String) (w : Workshop σ) :
    (conclude project w).2.mappings = w.mappings := by
  unfold conclude
  dsimp only
  split
  · rfl
  · exact Workshop.enter_mappings _

/-- **A conversion on course ends as foreseen.** -/
theorem conclude_of_isOnCourse {p : Prospect} {written : List String → Prop} {settled taken : Nat}
    (h : IsOnCourse p files written settled taken r w) (hover : r.IsOver) :
    (conclude p.project w).1 = p.record files ∧
      (conclude p.project w).2.record p.project = p.record files ∧
      (conclude p.project w).2.mappingsOf p.project =
        (p.trials files).filterMap Trial.mapping? := by
  obtain ⟨hsettled, -, -⟩ := h.of_isOver hover
  have hlength : settled = (p.trials files).length := hsettled.trans (p.length_trials files).symm
  obtain ⟨hmappings, hrecord, herror⟩ := h.entered
  rw [hlength, List.take_length] at hmappings hrecord
  have hended := conclude_record hrecord
  have hrecord' : (conclude p.project w).2.record p.project = p.record files := by
    rw [hended]
    dsimp only
    rw [hrecord.completed, hrecord.total, hrecord.failed, herror, p.length_trials]
    rfl
  refine ⟨hrecord', hrecord', ?_⟩
  unfold Workshop.mappingsOf at hmappings ⊢
  rw [conclude_mappings, hmappings]

end Converter

/-! ### Whole conversions -/

/-- A whole conversion whose moves are made in order: the run and the workshop when it was ready for
the first of them, and the record and the workshop when it had come to its end. -/
structure Converter.Converts (c : Converter σ)
    (outcomes : String → String → Except Incident String) (project : String) (w₀ : Workshop σ)
    (r : Run) (w : Workshop σ) (record : Record) (w' : Workshop σ) : Prop where
  ready : ∃ w₁, beginRecord project {} w₀ = (.ok (), w₁) ∧ c.prepare project w₁ = (.ok r, w)
  ended : ∃ trials r' w₂, InOrder c outcomes r w trials r' w₂ ∧ r'.IsOver ∧
    conclude project w₂ = (record, w')

/-- What a conversion has left that has ended as foreseen. -/
structure Prospect.Leaves (p : Prospect) (files : List (List String))
    (written : List String → Prop) (record : Record) (w : Workshop σ) : Prop where
  record : record = p.record files
  entered : w.record p.project = p.record files
  mappings : w.mappingsOf p.project = (p.trials files).filterMap Trial.mapping?
  keeps : ∃ taken, p.Keeps files written taken w
  there : p.IsThere files w.tree
  ordinary : IsOrdinary (p.trials files)

/-- **A conversion whose moves are made in order leaves what is foreseen.** -/
theorem InOrder.leaves {c : Converter σ} {p : Prospect} {files : List (List String)}
    {written : List String → Prop} {trials : List Trial} {r r' : Run} {w w' : Workshop σ}
    (h : InOrder c p.outcomes r w trials r' w') (hover : r'.IsOver)
    (hclear : p.IsClear files written) (hstart : IsOnCourse p files written 0 0 r w)
    (hwritten : CoversForeseen p files written trials) :
    p.Leaves files written (Converter.conclude p.project w').1
      (Converter.conclude p.project w').2 := by
  obtain ⟨moves, hcourse⟩ := h.course
  obtain ⟨settled, taken, hend⟩ :=
    h.isOnCourse hclear hstart (hcourse.isOrdinary hover.not_isAbandoned) hwritten
  obtain ⟨hrecord, hentered, hmappings⟩ := Converter.conclude_of_isOnCourse hend hover
  obtain ⟨-, hthere, hordinary⟩ := hend.of_isOver hover
  refine ⟨hrecord, hentered, hmappings, ⟨taken, hend.keeps.congr (Converter.conclude_tree _ _)
    (Converter.conclude_claims _ _)⟩, ?_, hordinary⟩
  rw [Converter.conclude_tree]
  exact hthere

/-- The mapping of what is foreseen to be written is among those that are entered. -/
theorem Prospect.Leaves.mem_mappingsOf {p : Prospect} {files : List (List String)}
    {written : List String → Prop} {record : Record} {w : Workshop σ}
    (h : p.Leaves files written record w) {m : Mapping} : m ∈ w.mappingsOf p.project ↔
      ∃ t ∈ p.trials files, ∃ code, t.result = .ok (m, code) := by
  rw [h.mappings, List.mem_filterMap]
  refine exists_congr fun t => and_congr_right fun _ => ?_
  unfold Trial.mapping?
  cases t.result with
  | error cause => simp
  | ok done => simp [Prod.ext_iff]

/-- All that is mapped has been converted to a path of a converted file. -/
theorem Prospect.Leaves.isOutputPath {p : Prospect} {files : List (List String)}
    {written : List String → Prop} {record : Record} {w : Workshop σ}
    (h : p.Leaves files written record w) {m : Mapping} (hm : m ∈ w.mappingsOf p.project) :
    IsOutputPath m.target := by
  obtain ⟨t, ht, code, hresult⟩ := h.mem_mappingsOf.mp hm
  obtain ⟨k, hk⟩ := List.mem_iff_getElem?.mp ht
  rw [getElem?_trials] at hk
  obtain ⟨file, -, rfl⟩ := Option.map_eq_some_iff.mp hk
  exact (isTarget_of_result hresult).isOutputPath

/-! ### The second conversion -/

/-- What has been converted is no source. -/
def Settings.SparesTargets (s : Settings) : Prop :=
  ∃ suffixes, s.suffixes = .ok suffixes ∧ targetSuffix ∉ suffixes ∧ "" ∉ suffixes

/-- The places that files have been converted to. -/
def IsConvertedTo (project : String) (place : List String) (w : Workshop σ) (other : List String) :
    Prop :=
  ∃ m ∈ w.mappingsOf project, other = place ++ Path.parts m.target

/-- A conversion has changed neither the tree nor what was entered. -/
structure IsRepeated (project : String) (record record' : Record) (w w' : Workshop σ) : Prop where
  record : record' = record
  entered : w'.record project = w.record project
  mappings : w'.mappingsOf project = w.mappingsOf project
  tree : w'.tree = w.tree

/-- What is left when all that was foreseen is foreseen again is what was left before. -/
theorem Prospect.Leaves.isRepeated {p : Prospect} {files : List (List String)}
    {written : List String → Prop} {record record' : Record} {w w' : Workshop σ}
    (h : p.Leaves files written record w) (hclear : p.IsClear files written)
    (h' : (p.withTree w.tree).Leaves files written record' w') :
    IsRepeated p.project record record' w w' := by
  obtain ⟨taken, hkeeps⟩ := h.keeps
  obtain ⟨taken', hkeeps'⟩ := h'.keeps
  have htrials := hkeeps.trials_eq hclear
  have hrecord : (p.withTree w.tree).record files = p.record files := by
    unfold Prospect.record
    rw [htrials]
  refine ⟨?_, ?_, ?_, hkeeps'.same ?_⟩
  · rw [h'.record, h.record, hrecord]
  · exact h'.entered.trans (hrecord.trans h.entered.symm)
  · rw [h.mappings, ← htrials]
    exact h'.mappings
  · intro t ht
    exact h.there t (htrials ▸ ht)

/-- All is as clear as it was, and everything is foreseen to be written where it was. -/
theorem Prospect.Leaves.clear_again {p : Prospect} {files : List (List String)} {record : Record}
    {w : Workshop σ} (h : p.Leaves files (IsConvertedTo p.project p.place w) record w)
    (hclear : p.IsClear files (IsConvertedTo p.project p.place w)) :
    (p.withTree w.tree).IsClear files (IsConvertedTo p.project p.place w) ∧
      IsOrdinary ((p.withTree w.tree).trials files) ∧
      ∀ t ∈ (p.withTree w.tree).trials files, ∀ m code, t.result = .ok (m, code) →
        IsConvertedTo p.project p.place w (p.place ++ Path.parts m.target) := by
  obtain ⟨taken, hkeeps⟩ := h.keeps
  rw [hkeeps.trials_eq hclear]
  exact ⟨hkeeps.isClear hclear, h.ordinary, fun t ht m code hresult =>
    ⟨m, h.mem_mappingsOf.mpr ⟨t, ht, code, hresult⟩, rfl⟩⟩

/-- **A conversion that starts from what was left leaves the same**, and it comes to an end. -/
theorem Prospect.Leaves.again {p : Prospect} {files : List (List String)} {record : Record}
    {c : Converter σ} {r : Run} {w w₁ : Workshop σ}
    (h : p.Leaves files (IsConvertedTo p.project p.place w) record w)
    (hclear : p.IsClear files (IsConvertedTo p.project p.place w))
    (hstart : IsOnCourse (p.withTree w.tree) files (IsConvertedTo p.project p.place w) 0 0 r w₁) :
    (∃ trials r' w', InOrder c p.outcomes r w₁ trials r' w' ∧ r'.IsOver) ∧
      ∀ trials r' w', InOrder c p.outcomes r w₁ trials r' w' → r'.IsOver →
        IsRepeated p.project record (Converter.conclude p.project w').1 w
          (Converter.conclude p.project w').2 := by
  obtain ⟨hclear', hordinary, hwritten⟩ := h.clear_again hclear
  constructor
  · exact hstart.exists_isOver c hclear' hordinary fun t ht _ => hwritten t ht
  · intro trials r' w' hinOrder hover
    exact h.isRepeated hclear (InOrder.leaves (p := p.withTree w.tree) hinOrder hover hclear' hstart
      fun t _ ht => hwritten t ht)

/-- The name of a converted file has the suffix of one, or it is all suffix. -/
theorem suffix_target {stem : String} (h : Path.IsName stem) :
    Path.suffix (stem ++ targetSuffix) = targetSuffix ∨ Path.suffix (stem ++ targetSuffix) = "" := by
  have hname : Path.name (stem ++ targetSuffix) = stem ++ targetSuffix := by
    have hlength : 3 ≤ (stem ++ targetSuffix).length := by
      rw [String.length_append]
      exact Nat.le_add_left 3 stem.length
    have hparts : Path.parts (stem ++ targetSuffix) = [stem ++ targetSuffix] := by
      refine Path.parts_of_isName (Path.isName_append h (by decide)) ⟨?_, ?_⟩
      · intro heq
        rw [heq] at hlength
        exact absurd hlength (by decide)
      · intro heq
        rw [heq] at hlength
        exact absurd hlength (by decide)
    unfold Path.name
    rw [hparts]
    rfl
  have hback : (stem ++ targetSuffix).toList.reverse =
      's' :: 't' :: '.' :: stem.toList.reverse := by simp [targetSuffix]
  unfold Path.suffix Path.cut
  rw [hname, hback]
  by_cases hempty : stem.toList.reverse.isEmpty = true
  · right
    simp [hempty]
  · left
    simp [hempty, targetSuffix]

/-- What has been converted is passed over for its suffix. -/
theorem Settings.SparesTargets.hasSuffix {s : Settings} (h : s.SparesTargets) : ∃ suffixes,
    s.suffixes = .ok suffixes ∧ ∀ place path, IsOutputPath path →
      Discovery.hasSuffix suffixes ((place ++ Path.parts path).getLastD "") = false := by
  obtain ⟨suffixes, hsuffixes, htarget, hnone⟩ := h
  refine ⟨suffixes, hsuffixes, fun place path hpath => ?_⟩
  obtain ⟨role, stem, rfl, hstem⟩ := hpath
  have hlast : (place ++ [role.folder, stem ++ targetSuffix]).getLastD "" =
      stem ++ targetSuffix := by simp
  rw [IsOutputPath.parts_eq role hstem, hlast]
  unfold Discovery.hasSuffix
  rw [← Bool.not_eq_true, List.contains_iff_mem]
  rcases suffix_target hstem with hsuffix | hsuffix
  · rw [hsuffix, show Text.lower targetSuffix = targetSuffix by decide]
    exact htarget
  · rw [hsuffix, show Text.lower "" = "" by decide]
    exact hnone

namespace Converter

variable {c : Converter σ} {outcomes : String → String → Except Incident String}
  {project : String} {files : List (List String)} {r r₁ : Run} {w₀ w₁ w w' w'' : Workshop σ}
  {record record' : Record} {written : List String → Prop} {place : List String} {e : Entry}

theorem isSound_of_prepare (hsound : w₁.tree.top.IsSound)
    (hprepare : c.prepare project w₁ = (.ok r, w)) : w.tree.top.IsSound := by
  obtain ⟨_, -, -, -, -, -, -, htree, -⟩ := prepare_start hprepare
  rw [htree]
  exact laidOut_isSound c project hsound

/-- A conversion can begin where the last one has been completed. -/
theorem exists_begin_of_completed (h : (w.record project).status = .completed) :
    ∃ w', beginRecord project {} w = (.ok (), w') ∧ w'.tree = w.tree := by
  have hfinal : ∀ r, Table.find? w.ledger project = some r → r.status.IsFinal := by
    intro r hfind
    unfold Workshop.record Ledger.get at h
    rw [hfind] at h
    exact .inl h
  obtain ⟨fresh, -, hcreate⟩ := Ledger.create_accepted hfinal none
  unfold beginRecord Workshop.create
  rw [show ({} : Change) = { total := (none : Option Int).map Value.int } from rfl, hcreate]
  exact ⟨_, rfl, rfl⟩

/-- **A second conversion gets ready as the first one did**, and changes nothing by that. -/
theorem exists_prepare_again (hprepare : c.prepare project w₁ = (.ok r, w))
    (hsound : w.tree.top.IsSound) (hspares : c.settings.SparesTargets)
    (hended : (w'.record project).status = .completed) (hsound' : w'.tree.top.IsSound)
    (hfilled : w.tree.Filled written w'.tree) (hwritten : ∀ other, written other →
      ∃ path, IsOutputPath path ∧ other = place ++ Path.parts path) :
    ∃ w₂ w₃, beginRecord project {} w' = (.ok (), w₂) ∧ c.prepare project w₂ = (.ok r, w₃) ∧
      w₃.tree = w'.tree ∧ c.sources project w₃ = c.sources project w := by
  obtain ⟨files, hfound, hne, hproject, htasks, hqueue, houtput, htree, -⟩ := prepare_start hprepare
  obtain ⟨w₂, hbegin, hsame⟩ := exists_begin_of_completed hended
  have hgrown : w.tree.Grown w₂.tree := by
    rw [hsame]
    exact hfilled.built.grown
  have hfolder : needFolder project w₂ = .ok () := by
    refine needFolder_grown (prepare_needFolder hprepare) (.trans ?_ hgrown)
    rw [htree]
    exact laidOut_grown c project w₁
  obtain ⟨report, t, hlay⟩ := exists_lay_of_prepare hprepare
  have hsources : c.sources project w₂ = c.sources project w := by
    obtain ⟨suffixes, hsuffixes, hpassed⟩ := hspares.hasSuffix
    unfold sources
    rw [hsame, hfilled.sources_eq hsound hsound' hsuffixes fun other hother => ?_]
    obtain ⟨path, hpath, rfl⟩ := hwritten other hother
    exact hpassed place path hpath
  have hready : c.sources project w = .ok files := (sources_of_tree htree).trans hfound
  obtain ⟨w₃, hprepare', htree'⟩ := prepare_of_stands hfolder houtput
    ((Skeleton.stands_of_lay hlay).grown hgrown) (hsources.trans hready) hne
  obtain ⟨_, output, tasks, queue⟩ := r
  dsimp only at hproject htasks hqueue
  subst hproject htasks hqueue
  exact ⟨w₂, w₃, hbegin, hprepare', htree'.trans hsame, (sources_of_tree htree').trans hsources⟩

section

variable (h : c.Converts outcomes project w₀ r w record w') (hsound : w₀.tree.top.IsSound)
  (hsources : c.sources project w = .ok files) (hleads : w.tree.LeadsTo r.output place e)
  (hlinks : e.HasNoLink)
  (hapart : ∀ file ∈ files, w.tree.ReadsApart (Workshop.folderOf project ++ file)
    (IsConvertedTo project place w'))

include h hsound hsources hleads hlinks hapart

/-- **What is foreseen when a conversion is ready is what it leaves**, and all of it is as clear as
it has to be. -/
theorem Converts.leaves :
    (Prospect.mk outcomes project r.output place w.tree).IsClear files
        (IsConvertedTo project place w') ∧
      (Prospect.mk outcomes project r.output place w.tree).Leaves files
        (IsConvertedTo project place w') record w' := by
  obtain ⟨⟨w₁, hbegin, hprepare⟩, trials, r', w₂, hinOrder, hover, hconclude⟩ := h
  obtain ⟨htree, hfresh⟩ := tree_and_record_of_begin hbegin
  have hsound₁ : w₁.tree.top.IsSound := htree ▸ hsound
  obtain ⟨found, hfound, -, hproject, houtput, -, hshows, hbalanced⟩ :=
    balanced_of_prepare hsound₁ hfresh hprepare ⟨place, e, hleads, hlinks⟩
  obtain rfl : files = found := Except.ok.inj (hsources.symm.trans hfound)
  have hfiles : (files.map fun file => (⟨file, .waiting 1⟩ : Task)).map Task.file = files := by
    rw [List.map_map]
    exact List.map_id files
  have hclear : (Prospect.mk outcomes project r.output place w.tree).IsClear files
      (IsConvertedTo project place w') :=
    ⟨isLaidOut_of_prepare hprepare hleads hlinks, isName_of_mem_outputFolder houtput,
      hfiles ▸ hbalanced.distinct, hapart⟩
  have hmappings : w'.mappings = w₂.mappings := by
    have hkept := conclude_mappings project w₂
    rwa [hconclude] at hkept
  obtain ⟨moves, hcourse⟩ := hinOrder.course
  have hleaves := hinOrder.leaves hover hclear
    (isOnCourse_of_prepare hsound₁ hbegin hprepare hsources place _) fun t ht _ m code hresult => by
      refine ⟨m, ?_, rfl⟩
      unfold Workshop.mappingsOf
      rw [hmappings]
      subst hproject
      exact hcourse.mem_mappingsOf hover hshows hbalanced ht hresult
  dsimp only at hleaves
  rw [hconclude] at hleaves
  exact ⟨hclear, hleaves⟩

/-- **A second conversion gets on course** as the first one did. -/
theorem Converts.isOnCourse_again (hspares : c.settings.SparesTargets) : ∃ w₁ w₂,
    beginRecord project {} w' = (.ok (), w₁) ∧ c.prepare project w₁ = (.ok r, w₂) ∧
      IsOnCourse ((Prospect.mk outcomes project r.output place w.tree).withTree w'.tree) files
        (IsConvertedTo project place w') 0 0 r w₂ := by
  obtain ⟨hclear, hleaves⟩ := h.leaves hsound hsources hleads hlinks hapart
  obtain ⟨⟨w₁, hbegin, hprepare⟩, -⟩ := h
  obtain ⟨taken, hkeeps⟩ := hleaves.keeps
  have hwritten : ∀ other, IsConvertedTo project place w' other →
      ∃ path, IsOutputPath path ∧ other = place ++ Path.parts path := by
    rintro other ⟨m, hm, rfl⟩
    exact ⟨m.target, hleaves.isOutputPath hm, rfl⟩
  obtain ⟨w₂, w₃, hbegin', hprepare', htree, hsources'⟩ := exists_prepare_again hprepare
    (isSound_of_prepare ((tree_and_record_of_begin hbegin).1 ▸ hsound) hprepare) hspares
    (hleaves.entered ▸ rfl) hkeeps.sound hkeeps.filled hwritten
  have hstart : IsOnCourse ⟨outcomes, project, r.output, place, w₃.tree⟩ files
      (IsConvertedTo project place w') 0 0 r w₃ :=
    isOnCourse_of_prepare ((tree_and_record_of_begin hbegin').1.symm ▸ hkeeps.sound) hbegin'
      hprepare' (hsources'.trans hsources) place (IsConvertedTo project place w')
  rw [htree] at hstart
  exact ⟨w₂, w₃, hbegin', hprepare', hstart⟩

end

/-- **A second conversion changes nothing.**  It can be made right after the first one, and in
whatever order attempts at different files are made in it, it ends with the same record, the same
mappings and the same tree. -/
theorem Converts.again (h : c.Converts outcomes project w₀ r w record w')
    (hsound : w₀.tree.top.IsSound) (hsources : c.sources project w = .ok files)
    (hleads : w.tree.LeadsTo r.output place e) (hlinks : e.HasNoLink)
    (hapart : ∀ file ∈ files, w.tree.ReadsApart (Workshop.folderOf project ++ file)
      (IsConvertedTo project place w'))
    (hspares : c.settings.SparesTargets) :
    (∃ r₁ w₁ record' w'', c.Converts outcomes project w' r₁ w₁ record' w'') ∧
      ∀ r₁ w₁ record' w'', c.Converts outcomes project w' r₁ w₁ record' w'' →
        IsRepeated project record record' w' w'' := by
  obtain ⟨w₁, w₂, hbegin, hprepare, hstart⟩ :=
    h.isOnCourse_again hsound hsources hleads hlinks hapart hspares
  obtain ⟨hclear, hleaves⟩ := h.leaves hsound hsources hleads hlinks hapart
  obtain ⟨⟨trials, r', w₃, hinOrder, hover⟩, hrepeated⟩ := hleaves.again (c := c) hclear hstart
  refine ⟨⟨r, w₂, _, _, ⟨w₁, hbegin, hprepare⟩, trials, r', w₃, hinOrder, hover, rfl⟩, ?_⟩
  rintro r₁ w₄ record' w'' ⟨⟨w₅, hbegin', hprepare'⟩, trials', r'', w₆, hinOrder', hover', hended⟩
  cases hbegin.symm.trans hbegin'
  cases hprepare.symm.trans hprepare'
  have hsame := hrepeated trials' r'' w₆ hinOrder' hover'
  dsimp only at hsame
  rwa [hended] at hsame

end Converter

/-! ### Conversions in turn -/

/-- What becomes of a text depends on nothing but its name and itself. -/
def Converter.Reads (c : Converter σ) (outcomes : String → String → Except Incident String) :
    Prop :=
  ∀ content name w, (c.textConverter.convert content name w).1.result = outcomes name content

namespace Converter

variable {settings : Settings} {parser : SourceParser} {service : Service σ}
  {outcomes : String → String → Except Incident String} {r r' : Run} {w w' w₀ : Workshop σ}
  {project : String} {record : Record}

/-- A move in turn is made in order. -/
theorem exists_played_of_nextMove (hreads : (ofService settings parser service).Reads outcomes)
    (hkept : ∀ t ∈ r.tasks, t.abandonment? = none)
    (hnext : ((nextMove r).bind fun m => (ofService settings parser service).step m r w) =
      some (r', w')) :
    ∃ m trial, m.IsInOrder r ∧
      Played (ofService settings parser service) (.reading outcomes r.project w.tree) m trial
        r w r' w' := by
  obtain ⟨m, hm, hstep⟩ := Option.bind_eq_some_iff.mp hnext
  have hplayed : ∃ trial, Played (ofService settings parser service)
      (.reading outcomes r.project w.tree) m trial r w r' w' := by
    refine played_of_step settings parser service hstep fun place file n _ _ content hread => ?_
    rw [outcomeOf_of_sourceText hread, hreads]
  obtain ⟨trial, hplayed⟩ := hplayed
  exact ⟨m, trial, isInOrder_of_nextMove hkept hm, hplayed⟩

/-- **Moves in turn are made in order** if the program is told to end by none of the files. -/
theorem exists_inOrder_inTurn (hreads : (ofService settings parser service).Reads outcomes)
    (n : Nat) (hkept : ∀ t ∈ ((ofService settings parser service).inTurn n r w).1.tasks,
      t.abandonment? = none) :
    ∃ trials, InOrder (ofService settings parser service) outcomes r w trials
      ((ofService settings parser service).inTurn n r w).1
      ((ofService settings parser service).inTurn n r w).2 := by
  induction n generalizing r w with
  | zero => exact ⟨[], .start⟩
  | succ n ih =>
      obtain ⟨moves, trials, hcourse, -⟩ := course_inTurn settings parser service (n + 1) r w
      have hkept' : ∀ t ∈ r.tasks, t.abandonment? = none :=
        Run.not_isAbandoned_iff.mp fun hr => Run.not_isAbandoned_iff.mpr hkept (hcourse.isAbandoned hr)
      rw [inTurn] at hkept ⊢
      cases hnext : (nextMove r).bind fun m => (ofService settings parser service).step m r w with
      | none => exact ⟨[], .start⟩
      | some next =>
          obtain ⟨r₁, w₁⟩ := next
          rw [hnext] at hkept
          obtain ⟨m, trial, horder, hplayed⟩ := exists_played_of_nextMove hreads hkept' hnext
          obtain ⟨trials, hrest⟩ := ih hkept
          exact ⟨_, (InOrder.start.next horder hplayed).trans hrest⟩

/-- What is made in turn comes to its end in order. -/
theorem exists_inOrder_finish (hreads : (ofService settings parser service).Reads outcomes)
    (hkept : ∀ t ∈ ((ofService settings parser service).finish r w).1.tasks,
      t.abandonment? = none) :
    (∃ trials, InOrder (ofService settings parser service) outcomes r w trials
      ((ofService settings parser service).finish r w).1
      ((ofService settings parser service).finish r w).2) ∧
      ((ofService settings parser service).finish r w).1.IsOver := by
  obtain ⟨-, -, -, hstuck⟩ :=
    course_inTurn settings parser service (weight settings.maxAttempts r) r w
  exact ⟨exists_inOrder_inTurn hreads _ hkept, isOver_of_stuck hkept (hstuck (Nat.le_refl _))⟩

/-- What a conversion that has come to its end has gone through. -/
theorem convertAll_ok {c : Converter σ} (h : c.convertAll project w₀ = (.ok record, w')) :
    ∃ w₁ r w, beginRecord project {} w₀ = (.ok (), w₁) ∧ c.prepare project w₁ = (.ok r, w) ∧
      (∀ t ∈ (c.finish r w).1.tasks, t.abandonment? = none) ∧
      conclude project (c.finish r w).2 = (record, w') := by
  unfold convertAll convertBegun at h
  cases hbegin : beginRecord project {} w₀ with
  | mk begun w₁ =>
      rw [hbegin] at h
      cases begun with
      | error incident => cases h
      | ok u =>
          dsimp only at h
          cases hprepare : c.prepare project w₁ with
          | mk ready w =>
              rw [hprepare] at h
              cases ready with
              | error incident => cases h
              | ok r =>
                  dsimp only at h
                  cases hlost : (c.finish r w).1.tasks.findSome? Task.abandonment? with
                  | some cause => rw [hlost] at h; cases h
                  | none =>
                      rw [hlost] at h
                      cases h
                      exact ⟨w₁, r, w, rfl, hprepare, List.findSome?_eq_none_iff.mp hlost, rfl⟩

/-- **What the converter does is a whole conversion in order**, as long as it comes to its end. -/
theorem exists_converts_of_convertAll (hreads : (ofService settings parser service).Reads outcomes)
    (h : (ofService settings parser service).convertAll project w₀ = (.ok record, w')) :
    ∃ r w, (ofService settings parser service).Converts outcomes project w₀ r w record w' := by
  obtain ⟨w₁, r, w, hbegin, hprepare, hkept, hconclude⟩ := convertAll_ok h
  obtain ⟨⟨trials, hinOrder⟩, hover⟩ := exists_inOrder_finish hreads hkept
  exact ⟨r, w, ⟨w₁, hbegin, hprepare⟩, trials, _, _, hinOrder, hover, hconclude⟩

end Converter

/-- A conversion that goes on in turn stays on course. -/
theorem IsOnCourse.inTurn {settings : Settings} {parser : SourceParser} {service : Service σ}
    {r : Run} {w : Workshop σ} {p : Prospect} {files : List (List String)}
    {written : List String → Prop} {settled taken : Nat}
    (h : IsOnCourse p files written settled taken r w)
    (hreads : (Converter.ofService settings parser service).Reads p.outcomes)
    (hclear : p.IsClear files written) (hordinary : IsOrdinary (p.trials files))
    (hwritten : CoversForeseen p files written (p.trials files)) (n : Nat) :
    ∃ settled taken, IsOnCourse p files written settled taken
      ((Converter.ofService settings parser service).inTurn n r w).1
      ((Converter.ofService settings parser service).inTurn n r w).2 := by
  induction n generalizing settled taken r w with
  | zero => exact ⟨settled, taken, h⟩
  | succ n ih =>
      rw [Converter.inTurn]
      cases hnext : (Converter.nextMove r).bind fun m =>
          (Converter.ofService settings parser service).step m r w with
      | none => exact ⟨settled, taken, h⟩
      | some next =>
          obtain ⟨m, trial, horder, hplayed⟩ :=
            Converter.exists_played_of_nextMove hreads h.kept hnext
          have hforeseen := h.mem_trials hclear horder hplayed
          obtain ⟨settled', taken', hstep⟩ := h.step hclear horder hplayed
            (fun t ht => hordinary t (hforeseen t ht)) fun t ht _ => hwritten t (hforeseen t ht)
              (hforeseen t ht)
          exact ih hstep


/-- **Converting twice in one go is converting once**: the second time the converter answers with
the same record, and nothing has changed. -/
theorem Converter.exists_convertAll_again {settings : Settings} {parser : SourceParser}
    {service : Service σ} {outcomes : String → String → Except Incident String} {project : String}
    {r : Run} {w₀ w w' : Workshop σ} {record : Record} {files : List (List String)} {place : List String}
    {e : Entry} (hreads : (ofService settings parser service).Reads outcomes)
    (h : (ofService settings parser service).Converts outcomes project w₀ r w record w')
    (hsound : w₀.tree.top.IsSound)
    (hsources : (ofService settings parser service).sources project w = .ok files)
    (hleads : w.tree.LeadsTo r.output place e) (hlinks : e.HasNoLink)
    (hapart : ∀ file ∈ files, w.tree.ReadsApart (Workshop.folderOf project ++ file)
      (IsConvertedTo project place w'))
    (hspares : settings.SparesTargets) :
    ∃ w'', (ofService settings parser service).convertAll project w' = (.ok record, w'') ∧
      IsRepeated project record record w' w'' := by
  obtain ⟨w₁, w₂, hbegin, hprepare, hstart⟩ :=
    h.isOnCourse_again hsound hsources hleads hlinks hapart hspares
  obtain ⟨hclear, hleaves⟩ := h.leaves hsound hsources hleads hlinks hapart
  obtain ⟨hclear', hordinary, hwritten⟩ := hleaves.clear_again hclear
  obtain ⟨settled, taken, hend⟩ := hstart.inTurn hreads hclear' hordinary
    (fun t ht _ => hwritten t ht) (weight settings.maxAttempts r)
  obtain ⟨⟨trials, hinOrder⟩, hover⟩ := exists_inOrder_finish hreads hend.kept
  have hrepeated := (hleaves.again hclear hstart).2 _ _ _ hinOrder hover
  have hsame := hrepeated.record
  rw [convertAll_eq hbegin hprepare hend.kept]
  refine ⟨_, ?_, hsame ▸ hrepeated⟩
  rw [← hsame]

end PhpMigration
