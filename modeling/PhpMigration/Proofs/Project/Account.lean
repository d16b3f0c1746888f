/-
A conversion that comes to its end accounts for every file once.

When all files are settled each has come to one mapping or one failure (`Fares`), so the mappings
and the failures are as many as the files, which is what the record counts.  The report reads the
mappings from the workshop and the failures from the record, and every role that a file can be
given has a list of its own, so it shows each of them once (`Report.perm_flatMap_ofRole`).

The output must not go through links: a link in the output folder makes two paths lead to one
place, and then one file overwrites what was written for another (`not_accountsForAll_of_link`).
-/
import Mathlib.Data.List.Perm.Basic
import PhpMigration.Project.Report
import PhpMigration.Proofs.Project.Discovery
import PhpMigration.Proofs.Project.InTurn
import PhpMigration.Proofs.Project.Interleaving

namespace PhpMigration

variable {σ : Type}

/-! ### What the report shows -/

theorem Text.Utf8.decode_encode (s : String) : decode (encode s) = .ok s := by
  have hread : String.fromUTF8? s.toUTF8 = some s := by
    unfold String.fromUTF8?
    rw [String.toUTF8_eq_toByteArray, dif_pos s.isValidUTF8]
    rfl
  unfold decode encode
  rw [hread]

theorem Text.Utf8.encode_injective {s s' : String} (h : encode s = encode s') : s = s' := by
  have hread := decode_encode s
  rw [h, decode_encode] at hread
  exact (Except.ok.inj hread).symm

/-- What is read from a file with a text. -/
theorem Converter.sourceText_of_leadsTo {t : FileTree} {path place : List String} {text : String}
    (h : t.LeadsTo path place (.file (Text.Utf8.encode text))) :
    sourceText t path = .ok (withoutMarks (Text.withLineFeeds text)) := by
  unfold sourceText
  rw [h.read_eq]
  show ((Text.Utf8.decode (Text.Utf8.encode text)).mapError Incident.undecodable >>= _) = _
  rw [Text.Utf8.decode_encode]
  rfl

namespace Record

variable {r : Record} {entered : List FileFailure}

/-- The failures that a conversion enters are shown as they are. -/
theorem failures_of_failed (h : r.failed = .list (entered.map FileFailure.toDocument)) :
    r.failures = .ok (entered.map FileFailure.toDocument) := by
  unfold failures
  rw [h]
  show (entered.map FileFailure.toDocument).mapM _ = _
  clear h
  induction entered with
  | nil => rfl
  | cons f rest ih =>
      rw [List.map_cons, List.mapM_cons, ih]
      rfl

theorem toDocument_of_failed (h : r.failed = .list (entered.map FileFailure.toDocument)) :
    ∃ doc, r.toDocument = .ok doc := by
  unfold toDocument
  rw [failures_of_failed h]
  exact ⟨_, rfl⟩

end Record

namespace Report

/-- The report shows each mapping under one role, and all files as converted or failed. -/
structure Accounts (report : Report) (mappings : List Mapping) (total : Nat) : Prop where
  /-- The numbers that are shown add up. -/
  counts : ∃ doc stats, report.toDocument = .ok doc ∧
    Table.find? doc "stats" = some (.object stats) ∧ ∃ converted failed : Nat,
      Table.find? stats "filesConverted" = some (.int converted) ∧
      Table.find? stats "filesFailed" = some (.int failed) ∧ converted + failed = total
  /-- The lists of the roles together hold each mapping as often as it was entered. -/
  once : (Role.priority.flatMap report.ofRole).Perm mappings

/-- Lists of those with one of some keys each, put together. -/
theorem perm_flatMap_filter {α β : Type} [DecidableEq β] (key : α → β) {keys : List β}
    (hkeys : keys.Nodup) (l : List α) :
    (keys.flatMap fun k => l.filter fun a => key a = k).Perm (l.filter fun a => key a ∈ keys) := by
  induction keys with
  | nil => simp
  | cons k keys ih =>
      obtain ⟨hk, hkeys⟩ := List.nodup_cons.mp hkeys
      have hsplit := List.filter_append_perm (fun a => decide (key a = k))
        (l.filter fun a => key a ∈ k :: keys)
      rw [List.filter_filter, List.filter_filter] at hsplit
      have hfirst : (l.filter fun a => decide (key a = k) && decide (key a ∈ k :: keys)) =
          l.filter fun a => key a = k :=
        List.filter_congr fun a _ => by
          by_cases ha : key a = k <;> simp [ha]
      have hrest : (l.filter fun a => !decide (key a = k) && decide (key a ∈ k :: keys)) =
          l.filter fun a => key a ∈ keys :=
        List.filter_congr fun a _ => by
          by_cases ha : key a = k
          · simp [ha, hk]
          · simp [ha]
      rw [hfirst, hrest] at hsplit
      exact ((ih hkeys).append_left _).trans hsplit

/-- Every mapping with a role that a file can be given is shown once. -/
theorem perm_flatMap_ofRole {report : Report} {mappings : List Mapping}
    (h : report.mappings.Perm mappings) (hroles : ∀ m ∈ mappings, m.role ∈ Role.priority) :
    (Role.priority.flatMap report.ofRole).Perm mappings := by
  refine (perm_flatMap_filter Mapping.role (by decide) report.mappings).trans ?_
  rw [List.filter_eq_self.mpr fun m hm => decide_eq_true (hroles m (h.subset hm))]
  exact h

variable {c : Converter σ} {project : String} {output : List String} {w : Workshop σ}

/-- A file that was written is counted. -/
theorem linesOf_of_leadsTo {t : FileTree} {path place : List String} {code : String}
    (h : t.LeadsTo path place (.file (Text.Utf8.encode code))) : ∃ n, linesOf t path = .ok n := by
  unfold linesOf
  rw [h.leadsToFile_eq, h.read_eq]
  show ∃ n, ((Text.Utf8.decode (Text.Utf8.encode code)).mapError Incident.undecodable >>= _) = _
  rw [Text.Utf8.decode_encode]
  exact ⟨_, rfl⟩

/-- There is a report if everything that has been written is still there. -/
theorem exists_ofProject (hfolder : Converter.needFolder project w = .ok ())
    (houtput : c.outputFolder project = .ok output)
    (hwritten : ∀ m ∈ w.mappingsOf project, ∃ place code,
      w.tree.LeadsTo (output ++ Path.parts m.target) place (.file (Text.Utf8.encode code))) :
    ∃ report, ofProject c project w = .ok report ∧ report.record = w.record project ∧
      report.mappings.Perm (w.mappingsOf project) := by
  obtain ⟨sorted, hsorted⟩ : ∃ sorted, sorted = (w.mappingsOf project).mergeSort fun a b =>
    decide (a.source ≤ b.source) := ⟨_, rfl⟩
  have hperm : sorted.Perm (w.mappingsOf project) := hsorted ▸ List.mergeSort_perm _ _
  have hcounts : ∃ counts,
      sorted.mapM (fun m => linesOf w.tree (output ++ Path.parts m.target)) = .ok counts := by
    have hall : ∀ m ∈ sorted, ∃ n, linesOf w.tree (output ++ Path.parts m.target) = .ok n := by
      intro m hm
      obtain ⟨place, code, hleads⟩ := hwritten m (hperm.subset hm)
      exact linesOf_of_leadsTo hleads
    clear hperm hsorted
    induction sorted with
    | nil => exact ⟨[], rfl⟩
    | cons m rest ih =>
        obtain ⟨⟨n, hn⟩, hrest⟩ := List.forall_mem_cons.mp hall
        obtain ⟨counts, hcounts⟩ := ih hrest
        rw [List.mapM_cons, hn, hcounts]
        exact ⟨n :: counts, rfl⟩
  obtain ⟨counts, hcounts⟩ := hcounts
  refine ⟨⟨project, w.record project, sorted, counts.foldl (· + ·) 0⟩, ?_, rfl, hperm⟩
  unfold ofProject
  rw [hfolder, houtput, ← hsorted]
  simp only [bind, Except.bind, hcounts]
  rfl

/-- A report whose mappings and failures are as many as the files accounts for them. -/
theorem accounts_of_perm {report : Report} {mappings : List Mapping}
    {failures : List FileFailure} {total : Nat}
    (hfailed : report.record.failed = .list (failures.map FileFailure.toDocument))
    (hperm : report.mappings.Perm mappings) (hroles : ∀ m ∈ mappings, m.role ∈ Role.priority)
    (htotal : mappings.length + failures.length = total) : report.Accounts mappings total := by
  refine ⟨?_, perm_flatMap_ofRole hperm hroles⟩
  obtain ⟨shown, hshown⟩ := Record.toDocument_of_failed hfailed
  unfold toDocument Record.report
  rw [hshown, Record.failures_of_failed hfailed]
  refine ⟨_, _, rfl, rfl, report.mappings.length, failures.length, rfl, ?_, ?_⟩
  · show some (Value.int (failures.map FileFailure.toDocument).length) = _
    rw [List.length_map]
  · rw [hperm.length_eq, htotal]

end Report

/-! ### What a preparation leaves -/

namespace Converter

variable {c : Converter σ} {project : String} {w w' : Workshop σ} {r : Run}

theorem prepare_needFolder (hp : c.prepare project w = (.ok r, w')) :
    needFolder project w = .ok () := by
  cases prepared_of_prepare hp with
  | ready hfolder hlay hsources => exact hfolder

/-- A skeleton is laid into what was there. -/
theorem laidOut_tree (c : Converter σ) (project : String) (w : Workshop σ) :
    (c.laidOut project w).tree = w.tree ∨ ∃ output, c.outputFolder project = .ok output ∧
      (c.laidOut project w).tree = (Skeleton.lay output project w.tree).2 := by
  have htree : (w.update project { step := some (.text "creating_structure") }).tree = w.tree :=
    Workshop.enter_tree _
  unfold laidOut laySkeleton
  cases houtput : c.outputFolder project with
  | error incident => exact .inl htree
  | ok output =>
      refine .inr ⟨output, rfl, ?_⟩
      dsimp only
      rw [htree]
      cases hlay : Skeleton.lay output project w.tree with
      | mk result t => cases result <;> rfl

theorem laidOut_grown (c : Converter σ) (project : String) (w : Workshop σ) :
    w.tree.Grown (c.laidOut project w).tree := by
  rcases laidOut_tree c project w with htree | ⟨output, -, htree⟩
  · rw [htree]
    exact .refl _
  · rw [htree]
    exact (Skeleton.built_lay output project w.tree).grown

/-- The names on the way to the output are those of paths. -/
theorem mem_outputFolder {output : List String} {good : String → Prop}
    (h : c.outputFolder project = .ok output)
    (hparts : ∀ path, ∀ name ∈ Path.parts path, good name) : ∀ name ∈ output, good name := by
  unfold outputFolder at h
  cases hname : c.settings.outputName with
  | error fault => rw [hname] at h; cases h
  | ok folder =>
      rw [hname] at h
      cases h
      intro name hmem
      rcases List.mem_append.mp hmem with hmem | hmem <;> exact hparts _ name hmem

theorem isName_of_mem_outputFolder {output : List String}
    (h : c.outputFolder project = .ok output) : ∀ name ∈ output, Path.IsName name :=
  mem_outputFolder h fun _ _ => Path.isName_of_mem_parts

theorem laidOut_isSound (c : Converter σ) (project : String) (h : w.tree.top.IsSound) :
    (c.laidOut project w).tree.top.IsSound := by
  rcases laidOut_tree c project w with htree | ⟨output, houtput, htree⟩
  · rwa [htree]
  · rw [htree]
    exact Skeleton.isSound_lay h (isName_of_mem_outputFolder houtput) project

/-- No source is found twice. -/
theorem nodup_sources {files : List (List String)} (hsound : w.tree.top.IsSound)
    (h : c.sources project w = .ok files) : (files.map Path.join).Nodup := by
  unfold sources at h
  cases hfound : Discovery.sources c.settings (Workshop.folderOf project) w.tree with
  | error fault => rw [hfound] at h; cases h
  | ok found =>
      rw [hfound] at h
      cases h
      exact Discovery.nodup_sources hsound hfound

end Converter

/-! ### All files of a conversion -/

/-- **All files of a conversion are accounted for once**: by what has come of the attempts at
them, by one mapping or one failure each, and by the record and the report. -/
structure IsAccountedFor (c : Converter σ) (project : String) (output : List String)
    (files : List (List String)) (trials : List Trial) (record : Record) (w : Workshop σ) :
    Prop where
  entered : w.record project = record
  status : record.status = .completed
  progress : record.progress = .int 100
  completed : record.completed = .int files.length
  total : record.total = .int files.length
  tried : ∀ t ∈ trials, t.file ∈ files
  /-- Each file was attempted until an attempt succeeded or no more were allowed, and has one
  mapping whose path leads to what was written then, or one failure with the last cause. -/
  fares : ∃ failures : List FileFailure,
    record.failed = .list (failures.map FileFailure.toDocument) ∧
    (∀ m ∈ w.mappingsOf project, m.source ∈ files.map Path.join) ∧
    (∀ f ∈ failures, f.file ∈ files.map Path.join) ∧
    ∀ file ∈ files, Fares c.settings.maxAttempts (Path.join file)
      (w.Holds project output (Path.join file)) (resultsOf trials file)
      ((w.mappingsOf project).filter fun m => m.source = Path.join file)
      (failures.filter fun f => f.file = Path.join file) .settled
  report : ∃ report, Report.ofProject c project w = .ok report ∧ report.record = record ∧
    report.Accounts (w.mappingsOf project) files.length

theorem Fares.exists_holds {maxAttempts : Nat} {path : String} {holds : Mapping → String → Prop}
    {results : List (Except Incident (Mapping × String))} {mappings : List Mapping}
    {failures : List FileFailure} (h : Fares maxAttempts path holds results mappings failures .settled)
    {m : Mapping} (hm : m ∈ mappings) : ∃ code, holds m code := by
  cases h with
  | entered h hholds =>
      obtain rfl := List.mem_singleton.mp hm
      exact ⟨_, hholds⟩
  | reported h => cases hm

/-- What the last attempt at a settled file has written is what the file holds. -/
theorem Fares.holds_of_getLast? {maxAttempts : Nat} {path : String}
    {holds : Mapping → String → Prop} {results : List (Except Incident (Mapping × String))}
    {mappings : List Mapping} {failures : List FileFailure}
    (h : Fares maxAttempts path holds results mappings failures .settled) (m : Mapping)
    (code : String) (hlast : results.getLast? = some (.ok (m, code))) : holds m code := by
  cases h with
  | entered h hholds =>
      rw [List.getLast?_append] at hlast
      cases hlast
      exact hholds
  | reported h =>
      rw [List.map_append, List.getLast?_append] at hlast
      cases hlast

namespace Run.Shows

variable {r : Run} {stands : List Task}

theorem mem_of_mem_tasks (h : r.Shows stands) {t : Task} (ht : t ∈ r.tasks) : t ∈ stands := by
  obtain ⟨past, rfl⟩ := h
  exact List.mem_append_left _ (List.mem_append_right _ ht)

/-- When a conversion is over all files are settled. -/
theorem isSettled (h : r.Shows stands) (hover : r.IsOver) : ∀ t ∈ stands, t.isSettled = true := by
  obtain ⟨past, rfl⟩ := h
  intro t ht
  rw [hover.2, List.flatten_nil, List.map_nil, List.append_nil] at ht
  rcases List.mem_append.mp ht with ht | ht
  · obtain ⟨file, -, rfl⟩ := List.mem_map.mp ht
    rfl
  · exact hover.1 t ht

end Run.Shows

namespace Balanced

variable {c : Converter σ} {project : String} {output : List String} {trials : List Trial}
  {failures : List FileFailure} {files : List (List String)} {stands : List Task} {w : Workshop σ}

/-- Nothing has been attempted or entered at the start. -/
theorem start (htidy : w.IsTidy project output) (hdistinct : (files.map Path.join).Nodup)
    (hmappings : w.mappingsOf project = [])
    (hrecord : (w.record project).IsUnderWay 0 files.length []) :
    Balanced c project output [] [] (files.map fun file => ⟨file, .waiting 1⟩) w := by
  have hfiles : (files.map fun file => (⟨file, .waiting 1⟩ : Task)).map Task.file = files := by
    rw [List.map_map]
    exact List.map_id files
  have hcount : (files.map fun file => (⟨file, .waiting 1⟩ : Task)).countP Task.isSettled = 0 := by
    rw [List.countP_map]
    exact List.countP_eq_zero.mpr fun file _ hsettled => by cases hsettled
  refine ⟨htidy, by rwa [hfiles], ?_, ?_, ?_, by simp, by simp, ?_⟩
  · rwa [hcount, List.length_map]
  · rw [hcount, hmappings]
    rfl
  · rw [hmappings]
    simp
  · intro t ht
    obtain ⟨file, -, rfl⟩ := List.mem_map.mp ht
    rw [hmappings]
    exact @Fares.waiting _ _ _ [] c.settings.maxAttempts_pos

theorem not_abandoned (h : Balanced c project output trials failures stands w) :
    ∀ t ∈ stands, t.abandonment? = none := by
  intro t ht
  have hfares := h.fares t ht
  obtain ⟨file, standing⟩ := t
  cases standing with
  | abandoned cause => exact hfares.not_abandoned.elim
  | _ => rfl

/-- **When all files are settled they are accounted for.** -/
theorem isAccountedFor (h : Balanced c project output trials failures stands w)
    (hall : ∀ t ∈ stands, t.isSettled = true) (hfolder : Converter.needFolder project w = .ok ())
    (houtput : c.outputFolder project = .ok output) :
    IsAccountedFor c project output (stands.map Task.file) trials
      (Converter.conclude project w).1 (Converter.conclude project w).2 := by
  have hcount : stands.countP Task.isSettled = (stands.map Task.file).length := by
    rw [List.countP_eq_length.mpr hall, List.length_map]
  obtain ⟨w', hw'⟩ : ∃ w', w' = (w.complete project).2 := ⟨_, rfl⟩
  have hconclude : Converter.conclude project w = (w'.record project, w') := by
    rw [hw']
    exact Converter.conclude_of_inProgress h.record.status
  have htree : w'.tree = w.tree := by rw [hw']; exact Workshop.enter_tree _
  have hclaims : w'.claims = w.claims := by rw [hw']; exact Workshop.enter_claims _
  have hmappings : w'.mappingsOf project = w.mappingsOf project := by
    unfold Workshop.mappingsOf
    rw [hw', show (w.complete project).2.mappings = w.mappings from Workshop.enter_mappings _]
  have hrecord : w'.record project = { w.record project with
      status := .completed, progress := .int 100, step := .text "completed" } := by
    rw [hw']
    exact Workshop.complete_of_isUnderWay h.record
  have hfailed : (w'.record project).failed = .list (failures.map FileFailure.toDocument) := by
    rw [hrecord]
    exact h.record.failed
  have hfares : ∀ file ∈ stands.map Task.file, Fares c.settings.maxAttempts (Path.join file)
      (w'.Holds project output (Path.join file)) (resultsOf trials file)
      ((w'.mappingsOf project).filter fun m => m.source = Path.join file)
      (failures.filter fun f => f.file = Path.join file) .settled := by
    intro file hfile
    obtain ⟨t, ht, rfl⟩ := List.mem_map.mp hfile
    have hone := (h.fares t ht).mono fun m code hholds => hholds.congr htree hclaims
    have hsettled := hall t ht
    obtain ⟨file, standing⟩ := t
    rw [hmappings]
    cases standing with
    | settled => exact hone
    | _ => cases hsettled
  have howned : ∀ m ∈ w'.mappingsOf project, m.source ∈ (stands.map Task.file).map Path.join := by
    rw [hmappings]
    exact h.owned
  have hholds : ∀ m ∈ w'.mappingsOf project, ∃ file code, w'.Holds project output file m code := by
    intro m hm
    obtain ⟨file, hfile, hsource⟩ := List.mem_map.mp (howned m hm)
    obtain ⟨code, hholds⟩ := (hfares file hfile).exists_holds
      (List.mem_filter.mpr ⟨hm, decide_eq_true hsource.symm⟩)
    exact ⟨_, code, hholds⟩
  rw [hconclude]
  refine ⟨rfl, by rw [hrecord], by rw [hrecord], ?_, ?_, h.tried,
    ⟨failures, hfailed, howned, h.blamed, hfares⟩, ?_⟩
  · rw [hrecord, ← hcount]
    exact h.record.completed
  · rw [hrecord, List.length_map]
    exact h.record.total
  · have hfolder' : Converter.needFolder project w' = .ok () :=
      Converter.needFolder_grown hfolder (by rw [htree]; exact .refl _)
    have hwritten : ∀ m ∈ w'.mappingsOf project, ∃ place code,
        w'.tree.LeadsTo (output ++ Path.parts m.target) place (.file (Text.Utf8.encode code)) := by
      intro m hm
      obtain ⟨file, code, hone⟩ := hholds m hm
      obtain ⟨place, hleads⟩ := hone.written
      exact ⟨place, code, hleads⟩
    obtain ⟨report, hreport, hsame, hperm⟩ := Report.exists_ofProject hfolder' houtput hwritten
    have hfailed' : report.record.failed = .list (failures.map FileFailure.toDocument) := by
      rw [hsame]
      exact hfailed
    refine ⟨report, hreport, hsame, Report.accounts_of_perm hfailed' hperm ?_ ?_⟩
    · intro m hm
      obtain ⟨file, code, hone⟩ := hholds m hm
      exact hone.role
    · dsimp only
      rw [hmappings, ← hcount]
      exact h.entries

end Balanced

/-! ### Whole conversions -/

namespace Converter

variable {project : String} {w₀ w₁ w : Workshop σ} {r : Run}

/-- What is ready to make its moves is in balance. -/
theorem balanced_of_prepare {c : Converter σ} {total : Nat} (hsound : w₁.tree.top.IsSound)
    (hfresh : (w₁.record project).IsUnderWay 0 total []) (hprepare : c.prepare project w₁ = (.ok r, w))
    (hplain : ∃ place e, w.tree.LeadsTo r.output place e ∧ e.HasNoLink) :
    ∃ files, c.sources project w = .ok files ∧ files ≠ [] ∧ r.project = project ∧
      c.outputFolder project = .ok r.output ∧ needFolder project w = .ok () ∧
      r.Shows (files.map fun file => ⟨file, .waiting 1⟩) ∧
      Balanced c project r.output [] [] (files.map fun file => ⟨file, .waiting 1⟩) w := by
  obtain ⟨files, hsources, hne, hproject, htasks, hqueue, houtput, htree, hmappings, hclaims,
    hrecord⟩ := prepare_ok hfresh hprepare
  have hfound : c.sources project w = .ok files := (sources_of_tree htree).trans hsources
  have hdistinct := nodup_sources (laidOut_isSound c project hsound) hsources
  have hgrown : w₁.tree.Grown w.tree := by
    rw [htree]
    exact laidOut_grown c project w₁
  have htidy : w.IsTidy project r.output := by
    refine ⟨?_, hplain⟩
    unfold Workshop.claimsOf
    rw [hclaims]
    exact Claims.isFair_nil
  refine ⟨files, hfound, hne, hproject, houtput,
    needFolder_grown (prepare_needFolder hprepare) hgrown, ⟨[], ?_⟩,
    .start htidy hdistinct hmappings hrecord⟩
  rw [htasks, hqueue, flatten_chunksOf c.settings.chunkSize_pos]
  rfl

theorem tree_and_record_of_announced {count : Option Nat}
    (hbegin : beginRecord project (announcement count) w₀ = (.ok (), w₁)) :
    w₁.tree = w₀.tree ∧ (w₁.record project).IsUnderWay 0 (count.getD 0) [] := by
  rcases beginRecord_cases project count w₀ with ⟨incident, hrefused⟩ | ⟨fresh, haccepted, hfresh⟩
  · cases hbegin.symm.trans hrefused
  · cases hbegin.symm.trans haccepted
    refine ⟨rfl, ?_⟩
    unfold Workshop.record
    rw [Ledger.get_set, if_pos rfl]
    exact hfresh

theorem tree_and_record_of_begin (hbegin : beginRecord project {} w₀ = (.ok (), w₁)) :
    w₁.tree = w₀.tree ∧ (w₁.record project).IsUnderWay 0 0 [] := by
  have hannounced : beginRecord project (announcement none) w₀ = (.ok (), w₁) := hbegin
  exact tree_and_record_of_announced hannounced

theorem conclude_tree (project : String) (w : Workshop σ) :
    (conclude project w).2.tree = w.tree := by
  unfold conclude
  dsimp only
  split
  · rfl
  · exact Workshop.enter_tree _

/-- A conversion whose files are all settled has come to its end. -/
theorem convertAll_eq {c : Converter σ} (hbegin : beginRecord project {} w₀ = (.ok (), w₁))
    (hprepare : c.prepare project w₁ = (.ok r, w))
    (hkept : ∀ t ∈ (c.finish r w).1.tasks, t.abandonment? = none) :
    c.convertAll project w₀ =
      (.ok (conclude project (c.finish r w).2).1, (conclude project (c.finish r w).2).2) := by
  unfold convertAll convertBegun
  rw [hbegin]
  dsimp only
  rw [hprepare]
  dsimp only
  rw [List.findSome?_eq_none_iff.mpr hkept]

/-- Whatever the order of the moves and whatever comes of the attempts, a conversion comes to its
end and accounts for each of its files then. -/
structure AccountsForAll (c : Converter σ) (project : String) (files : List (List String))
    (r : Run) (w : Workshop σ) : Prop where
  /-- No course is longer than the weight of what is left at its start. -/
  bounded : ∀ {moves trials r' w'}, Course c r w moves trials r' w' →
    moves.length ≤ weight c.settings.maxAttempts r
  /-- A course can go on until all files are settled. -/
  goesOn : ∀ {moves trials r' w'}, Course c r w moves trials r' w' → IsOrdinary trials →
    ¬ r'.IsOver → ∃ m trial r'' w'', Moved c m trial r' w' r'' w'' ∧ IsOrdinary trial.toList
  /-- Then they are accounted for. -/
  accounts : ∀ {moves trials r' w'}, Course c r w moves trials r' w' → IsOrdinary trials →
    r'.IsOver → IsAccountedFor c project r.output files trials (conclude project w').1
      (conclude project w').2

/-- **A conversion accounts for every file once**, and the converter itself takes one of the
courses to its end, unless the program is told to end. -/
theorem accountsForAll_of_prepare (settings : Settings) (parser : SourceParser)
    (service : Service σ) (hsound : w₀.tree.top.IsSound) (hbegin : beginRecord project {} w₀ = (.ok (), w₁))
    (hprepare : (ofService settings parser service).prepare project w₁ = (.ok r, w))
    (hplain : ∃ place e, w.tree.LeadsTo r.output place e ∧ e.HasNoLink) :
    ∃ files, (ofService settings parser service).sources project w = .ok files ∧ files ≠ [] ∧
      (ofService settings parser service).AccountsForAll project files r w ∧
      ∃ moves trials r' w', Course (ofService settings parser service) r w moves trials r' w' ∧
        (IsOrdinary trials → r'.IsOver ∧ (ofService settings parser service).convertAll project w₀ =
          (.ok (conclude project w').1, (conclude project w').2)) := by
  have hbegun := tree_and_record_of_begin hbegin
  obtain ⟨files, hsources, hne, hproject, houtput, hfolder, hshows, hbalanced⟩ :=
    balanced_of_prepare (hbegun.1 ▸ hsound) hbegun.2 hprepare hplain
  have hfiles : (files.map fun file => (⟨file, .waiting 1⟩ : Task)).map Task.file = files := by
    rw [List.map_map]
    exact List.map_id files
  have hkept : ∀ {moves trials r' w'},
      Course (ofService settings parser service) r w moves trials r' w' → IsOrdinary trials →
      ∀ t ∈ r'.tasks, t.abandonment? = none := by
    intro moves trials r' w' hcourse hordinary t ht
    obtain ⟨-, -, failures, stands, hshows', -, hbalanced'⟩ :=
      hcourse.balanced hordinary hshows (hproject ▸ hbalanced)
    exact hbalanced'.not_abandoned t (hshows'.mem_of_mem_tasks ht)
  refine ⟨files, hsources, hne, ⟨?_, ?_, ?_⟩, ?_⟩
  · exact fun hcourse => Nat.le_of_add_right_le hcourse.length_le
  · exact fun hcourse hordinary => exists_moved _ _ (hkept hcourse hordinary)
  · intro moves trials r' w' hcourse hordinary hover
    obtain ⟨-, -, failures, stands, hshows', hsame, hbalanced'⟩ :=
      hcourse.balanced hordinary hshows (hproject ▸ hbalanced)
    rw [hproject] at hbalanced'
    have haccount := hbalanced'.isAccountedFor (hshows'.isSettled hover)
      (needFolder_grown hfolder hcourse.grown) houtput
    rwa [hsame, hfiles] at haccount
  · obtain ⟨moves, trials, hcourse, hstuck⟩ :=
      course_inTurn settings parser service (weight settings.maxAttempts r) r w
    refine ⟨moves, trials, _, _, hcourse, fun hordinary => ⟨?_, ?_⟩⟩
    · exact isOver_of_stuck (hkept hcourse hordinary) (hstuck (Nat.le_refl _))
    · exact convertAll_eq hbegin hprepare (hkept hcourse hordinary)

/-! ### A small project -/

theorem hasNoLink_skeleton {utilities : List (String × Entry)}
    (h : ∀ entry ∈ utilities, entry.2.HasNoLink) : (Entry.skeleton utilities).HasNoLink := by
  have hall : ∀ {entries : List (String × Entry)}, (∀ entry ∈ entries, entry.2.HasNoLink) →
      (Entry.folder entries).HasNoLink := Entry.hasNoLink_folder
  have hutilities := hall h
  refine hall ?_
  simp [Entry.hasNoLink_file, hall, hutilities]

theorem isSound_small : (FileTree.small ["a.php"] []).top.IsSound := by
  simp only [FileTree.small, Entry.skeleton, Entry.IsSound, EachSound, List.map, Table.names]
  decide

theorem isSound_pair : (FileTree.small ["a.php", "b.php"] []).top.IsSound := by
  simp only [FileTree.small, Entry.skeleton, Entry.IsSound, EachSound, List.map, Table.names]
  decide

/-- The small project is ready when its record has been begun. -/
theorem exists_prepareWith_begun {names : List String} (utilities : List (String × Entry))
    (useAi : Bool) (service : Service σ) (state : σ) (hsorted : names.Pairwise fun a b => a ≤ b)
    (hsuffix : ∀ name ∈ names, Discovery.hasSuffix [".php"] name = true) (hne : names ≠ []) :
    ∃ w₁ w, beginRecord "demo" {} { tree := .small names utilities, service := state } =
        (.ok (), w₁) ∧
      (smallWith useAi service).prepare "demo" w₁ =
        (.ok ⟨"demo", ["demo", "converted"], [], chunksOf 1 (names.map fun n => [n])⟩, w) ∧
      w.tree = .small names utilities := by
  obtain ⟨w₁, hbegin, htree⟩ : ∃ w₁ : Workshop σ, beginRecord "demo" {}
      { tree := .small names utilities, service := state } = (.ok (), w₁) ∧
        w₁.tree = .small names utilities := ⟨_, rfl, rfl⟩
  obtain ⟨w, hprepare, hsame⟩ := prepare_small htree hsorted hsuffix hne
  exact ⟨w₁, w, hbegin, hprepare, hsame⟩

theorem exists_prepare_begun {names : List String} (utilities : List (String × Entry))
    (hsorted : names.Pairwise fun a b => a ≤ b)
    (hsuffix : ∀ name ∈ names, Discovery.hasSuffix [".php"] name = true) (hne : names ≠ []) :
    ∃ w₁ w, beginRecord "demo" {} (.small names utilities) = (.ok (), w₁) ∧
      small.prepare "demo" w₁ =
        (.ok ⟨"demo", ["demo", "converted"], [], chunksOf 1 (names.map fun n => [n])⟩, w) ∧
      w.tree = .small names utilities :=
  exists_prepareWith_begun utilities false _ () hsorted hsuffix hne

/-- A project with one file and no link accounts for it. -/
theorem accountsForAll_small : ∃ (w₁ w : Workshop Unit) (r : Run),
    (FileTree.small ["a.php"] []).top.IsSound ∧
    beginRecord "demo" {} (.small ["a.php"] []) = (.ok (), w₁) ∧
    small.prepare "demo" w₁ = (.ok r, w) ∧
    (∃ place e, w.tree.LeadsTo r.output place e ∧ e.HasNoLink) ∧
    small.AccountsForAll "demo" [["a.php"]] r w := by
  have hsorted : ["a.php"].Pairwise fun a b => a ≤ b := List.pairwise_singleton _ _
  obtain ⟨w₁, w, hbegin, hprepare, htree⟩ :=
    exists_prepare_begun [] hsorted (by decide) (List.cons_ne_nil _ _)
  have hplain : ∃ place e, w.tree.LeadsTo ["demo", "converted"] place e ∧ e.HasNoLink := by
    rw [htree]
    exact ⟨_, _, leadsTo_small rfl (fun _ h => by cases h) (by decide) (by decide),
      hasNoLink_skeleton nofun⟩
  obtain ⟨files, hsources, -, haccounts, -⟩ :=
    accountsForAll_of_prepare .small _ _ isSound_small hbegin hprepare hplain
  have hfiles : small.sources "demo" (.small ["a.php"] []) = .ok [["a.php"]] :=
    sources_small rfl hsorted (by decide)
  cases (hsources.symm.trans (sources_of_tree htree)).trans hfiles
  exact ⟨w₁, w, _, isSound_small, hbegin, hprepare, hplain, haccounts⟩

/-! ### A link in the output -/

/-- What is delivered, if the file can be written. -/
theorem deliver_of_writeFile {m : Mapping} {code : String} {t : FileTree}
    (h : Skeleton.writeFile (r.output ++ Path.parts (given r m w)) code w.tree = (.ok (), t)) :
    ∃ w', deliver r m code w = (.ok { m with target := given r m w }, w') ∧ w'.tree = t ∧
      w'.claimsOf r.project = ((w.claimsOf r.project).claim m.source m.target).2 := by
  have htree := deliver_tree r m code w
  have hok : (deliver r m code w).1 = .ok { m with target := given r m w } := by
    unfold deliver
    dsimp only
    split
    · rfl
    · rename_i fault tree hwrite
      cases h.symm.trans hwrite
  rw [h] at htree
  exact ⟨_, Prod.ext hok rfl, htree, deliver_claimsOf r m code w⟩

theorem mappingsOf_of_mappings {w' : Workshop σ} (h : w'.mappings = w.mappings) (project : String) :
    w'.mappingsOf project = w.mappingsOf project := by
  unfold Workshop.mappingsOf
  rw [h]

theorem mappings_of_deliver {m : Mapping} {code : String} {result : Except Incident Mapping}
    {w' : Workshop σ} (h : deliver r m code w = (result, w')) : w'.mappings = w.mappings := by
  have hkept := deliver_mappings r m code w
  rwa [h] at hkept

theorem mappingsOf_settle (failure : Option Value) (w : Workshop σ) (own project : String) :
    (w.settle own failure).2.mappingsOf project = w.mappingsOf project :=
  mappingsOf_of_mappings (Workshop.enter_mappings _) project

theorem mappingsOf_addMapping (project : String) (m : Mapping) (w : Workshop σ) :
    (w.addMapping project m).mappingsOf project = w.mappingsOf project ++ [m] := by
  unfold Workshop.addMapping Workshop.mappingsOf
  dsimp only
  rw [Table.find?_set, if_pos rfl]
  rfl

/-- The one file of a chunk, which has been converted and can be written, is delivered and settled. -/
theorem exists_settled_of_writeFile (c : Converter σ) (file : List String)
    (rest : List (List (List String))) {done total : Nat} {failures : List FileFailure}
    (hrecord : (w.record r.project).IsUnderWay done total failures) (content code : String) (s : σ)
    {t : FileTree} (hwrite : Skeleton.writeFile
      (r.output ++ Path.parts (given r (.ofFile (Path.join file) content) w)) code w.tree =
        (.ok (), t)) :
    ∃ m w₁ w', m.source = Path.join file ∧
      m.target = given r (.ofFile (Path.join file) content) w ∧
      deliver { r with tasks := [⟨file, .waiting 1⟩], queue := rest }
        (.ofFile (Path.join file) content) code { w with service := s } = (.ok m, w₁) ∧
      w' = ((w₁.addMapping r.project m).settle r.project none).2 ∧
      w'.tree = t ∧ w'.mappingsOf r.project = w.mappingsOf r.project ++ [m] ∧
      w'.claimsOf r.project = ((w.claimsOf r.project).claim (Path.join file)
        (Mapping.ofFile (Path.join file) content).target).2 ∧
      ∃ done failures, (w'.record r.project).IsUnderWay done total failures := by
  obtain ⟨m, w₁, hsource, htarget, hdeliver, htree, hclaims⟩ : ∃ m w₁, m.source = Path.join file ∧
      m.target = given r (.ofFile (Path.join file) content) w ∧
      deliver { r with tasks := [⟨file, .waiting 1⟩], queue := rest }
        (.ofFile (Path.join file) content) code { w with service := s } = (.ok m, w₁) ∧
      w₁.tree = t ∧ w₁.claimsOf r.project = ((w.claimsOf r.project).claim (Path.join file)
        (Mapping.ofFile (Path.join file) content).target).2 := by
    obtain ⟨w₁, hdeliver, hleft⟩ := deliver_of_writeFile (w := { w with service := s })
      (r := { r with tasks := [⟨file, .waiting 1⟩], queue := rest }) hwrite
    exact ⟨_, w₁, rfl, rfl, hdeliver, hleft⟩
  have hattempt : Moved c (.attempt 0) (some ⟨file, .ok (m, code)⟩)
      { r with tasks := [⟨file, .waiting 1⟩], queue := rest } w
      { r with tasks := [⟨file, .converted m⟩], queue := rest } w₁ :=
    .converted (n := 1) rfl (.delivered content code s hdeliver)
  have hsettle : Moved c (.settle 0) none
      { r with tasks := [⟨file, .converted m⟩], queue := rest } w₁
      { r with tasks := [⟨file, .settled⟩], queue := rest } _ := .settle rfl
  obtain ⟨failures₁, hrecord₁⟩ := hattempt.isUnderWay hrecord
  obtain ⟨failures₂, hrecord₂⟩ := hsettle.isUnderWay hrecord₁
  refine ⟨m, w₁, _, hsource, htarget, hdeliver, rfl, ?_, ?_, ?_, _, failures₂, hrecord₂⟩
  · rw [← htree]
    exact Workshop.enter_tree _
  · rw [mappingsOf_settle, mappingsOf_addMapping,
      mappingsOf_of_mappings (mappings_of_deliver hdeliver)]
    rfl
  · refine Eq.trans ?_ hclaims
    exact congrArg (fun claims => (Table.find? claims r.project).getD [])
      (Workshop.enter_claims (w := w₁.addMapping r.project m) _)

/-- A chunk of one file that can be written is dispatched, attempted and settled. -/
theorem exists_course_of_writeFile (c : Converter σ) (file : List String)
    (rest : List (List (List String))) {done total : Nat} {failures : List FileFailure}
    (hall : ∀ t ∈ r.tasks, t.isSettled = true) (hqueue : r.queue = [file] :: rest)
    (hrecord : (w.record r.project).IsUnderWay done total failures) (code : String) {t : FileTree}
    (hwrite : Skeleton.writeFile
      (r.output ++ Path.parts (given r (.ofFile (Path.join file) "") w)) code w.tree = (.ok (), t)) :
    ∃ moves m w', m.target = given r (.ofFile (Path.join file) "") w ∧
      Course c r w moves [⟨file, .ok (m, code)⟩]
        { r with tasks := [⟨file, .settled⟩], queue := rest } w' ∧ w'.tree = t ∧
      w'.claimsOf r.project = ((w.claimsOf r.project).claim (Path.join file)
        (Mapping.ofFile (Path.join file) "").target).2 ∧
      ∃ done failures, (w'.record r.project).IsUnderWay done total failures := by
  have hdispatch : dispatch r w =
      some { r with tasks := [⟨file, .waiting 1⟩], queue := rest } :=
    dispatch_of_inProgress hall hqueue hrecord.status
  obtain ⟨m, w₁, w', -, htarget, hdeliver, rfl, htree, -, hclaims, hrecord'⟩ :=
    exists_settled_of_writeFile c file rest hrecord "" code w.service hwrite
  have hattempt : Moved c (.attempt 0) (some ⟨file, .ok (m, code)⟩)
      { r with tasks := [⟨file, .waiting 1⟩], queue := rest } w
      { r with tasks := [⟨file, .converted m⟩], queue := rest } w₁ :=
    .converted (n := 1) rfl (.delivered "" code w.service hdeliver)
  have hsettle : Moved c (.settle 0) none
      { r with tasks := [⟨file, .converted m⟩], queue := rest } w₁
      { r with tasks := [⟨file, .settled⟩], queue := rest } _ := .settle rfl
  exact ⟨_, m, _, htarget,
    ((Course.start.next (.dispatch hdispatch)).next hattempt).next hsettle, htree, hclaims, hrecord'⟩

/-- A file that is there can be written over. -/
theorem writeFile_of_leadsTo {t : FileTree} {path place : List String} {old : ByteArray}
    (h : t.LeadsTo path place (.file old)) (hfolder : t.isFolder path.dropLast = true)
    (code : String) : Skeleton.writeFile path code t =
      (.ok (), t.put place (.file (Text.Utf8.encode code))) := by
  rw [Skeleton.writeFile_of_isFolder hfolder, h.write_eq]

/-- Of two paths that lead to one place, the one is written over by the other. -/
theorem exists_writeFile_of_leadsTo {t : FileTree} {path path' place : List String}
    {old : ByteArray} (h : t.LeadsTo path place (.file old))
    (h' : t.LeadsTo path' place (.file old)) (hfolder : t.isFolder path.dropLast = true)
    (hfolder' : t.isFolder path'.dropLast = true) (code code' : String) :
    ∃ t₁ t₂, Skeleton.writeFile path code t = (.ok (), t₁) ∧
      Skeleton.writeFile path' code' t₁ = (.ok (), t₂) ∧
      t₂.LeadsTo path place (.file (Text.Utf8.encode code')) := by
  have hfirst := h.write_eq (Text.Utf8.encode code)
  have h₁ := h.of_write h hfirst
  have h₁' := h.of_write h' hfirst
  have hsecond := h₁'.write_eq (Text.Utf8.encode code')
  exact ⟨_, _, writeFile_of_leadsTo h hfolder code,
    writeFile_of_leadsTo h₁' ((FileTree.write_grown hfirst).isFolder hfolder') code',
    h₁'.of_write h₁ hsecond⟩

/-- Utilities among which a link leads from the path of one file to that of another. -/
def linkedUtilities : List (String × Entry) :=
  [("a.ts", .link ["demo", "converted", "utils", "b.ts"]), ("b.ts", .file ByteArray.empty)]

/-- Both paths lead to one place in a folder that is there. -/
theorem leadsTo_linked :
    (FileTree.small ["a.php", "b.php"] linkedUtilities).LeadsTo
        ["demo", "converted", "utils", "a.ts"] ["demo", "converted", "utils", "b.ts"]
        (.file ByteArray.empty) ∧
      (FileTree.small ["a.php", "b.php"] linkedUtilities).LeadsTo
        ["demo", "converted", "utils", "b.ts"] ["demo", "converted", "utils", "b.ts"]
        (.file ByteArray.empty) ∧
      (FileTree.small ["a.php", "b.php"] linkedUtilities).isFolder
        ["demo", "converted", "utils"] = true := by
  refine ⟨?_, ?_, ?_⟩
  · exact FileTree.leadsTo_of_link ["demo", "converted", "utils"] "a.ts"
      ⟨by decide, by decide⟩ rfl (by decide) (by decide) rfl
      (fun _ h => by cases h) (by decide) (by decide)
  · exact leadsTo_small rfl (fun _ h => by cases h) (by decide) (by decide)
  · have hleads : ∃ entries, (FileTree.small ["a.php", "b.php"] linkedUtilities).LeadsTo
        ["demo", "converted", "utils"] ["demo", "converted", "utils"] (.folder entries) :=
      ⟨_, leadsTo_small rfl (fun _ h => by cases h) (by decide) (by decide)⟩
    obtain ⟨entries, hleads⟩ := hleads
    exact hleads.isFolder_eq

/-- What the first file writes is written over by the second. -/
theorem exists_writeFile_linked : ∃ t₁ t₂ place,
    Skeleton.writeFile ["demo", "converted", "utils", "a.ts"] "1"
      (.small ["a.php", "b.php"] linkedUtilities) = (.ok (), t₁) ∧
    Skeleton.writeFile ["demo", "converted", "utils", "b.ts"] "2" t₁ = (.ok (), t₂) ∧
    t₂.LeadsTo ["demo", "converted", "utils", "a.ts"] place (.file (Text.Utf8.encode "2")) := by
  obtain ⟨hlink, hfile, hfolder⟩ := leadsTo_linked
  obtain ⟨t₁, t₂, hfirst, hsecond, hlost⟩ :=
    exists_writeFile_of_leadsTo hlink hfile hfolder hfolder "1" "2"
  exact ⟨t₁, t₂, _, hfirst, hsecond, hlost⟩

/-- What is written for one file is not kept if a link leads from its path to that of another. -/
theorem not_accountsForAll_of_link : ∃ (w₁ w : Workshop Unit) (r : Run),
    beginRecord "demo" {} (.small ["a.php", "b.php"] linkedUtilities) = (.ok (), w₁) ∧
    small.prepare "demo" w₁ = (.ok r, w) ∧
    small.sources "demo" w = .ok [["a.php"], ["b.php"]] ∧
    ¬ small.AccountsForAll "demo" [["a.php"], ["b.php"]] r w := by
  have hsorted : ["a.php", "b.php"].Pairwise fun a b => a ≤ b := by decide
  obtain ⟨w₁, w, hbegin, hprepare, htree⟩ :=
    exists_prepare_begun linkedUtilities hsorted (by decide) (List.cons_ne_nil _ _)
  have hsources : small.sources "demo" w = .ok [["a.php"], ["b.php"]] :=
    sources_small htree hsorted (by decide)
  obtain ⟨files, -, -, -, -, -, -, -, -, hclaims, hrecord⟩ :=
    prepare_ok (tree_and_record_of_begin hbegin).2 hprepare
  obtain ⟨t₁, t₂, place, hfirst, hsecond, hlost⟩ := exists_writeFile_linked
  have hchunks : chunksOf 1 (["a.php", "b.php"].map fun n => [n]) = [[["a.php"]], [["b.php"]]] :=
    chunksOf_one _
  rw [hchunks] at hprepare
  refine ⟨w₁, w, _, hbegin, hprepare, hsources, fun haccounts => ?_⟩
  have hparts : Path.parts "utils/a.ts" = ["utils", "a.ts"] ∧
      Path.parts "utils/b.ts" = ["utils", "b.ts"] := by decide
  have hgiven : ((w.claimsOf "demo").claim "a.php"
      (Mapping.ofFile (Path.join ["a.php"]) "").target) =
      ("utils/a.ts", [("utils/a.ts", "a.php")]) := by
    unfold Workshop.claimsOf
    rw [hclaims]
    decide
  obtain ⟨moves, m, w₂, htarget, hcourse, htree₂, hclaims₂, done, failures, hrecord₂⟩ :=
    exists_course_of_writeFile small ["a.php"] [[["b.php"]]] (w := w)
      (r := ⟨"demo", ["demo", "converted"], [], _⟩) (by simp) rfl hrecord "1" (t := t₁) (by
        unfold given
        rw [show Mapping.source _ = "a.php" from rfl, hgiven, hparts.1, htree]
        exact hfirst)
  have hclaimed : w₂.claimsOf "demo" = [("utils/a.ts", "a.php")] :=
    hclaims₂.trans (congrArg Prod.snd hgiven)
  have hgiven₂ : ((w₂.claimsOf "demo").claim "b.php"
      (Mapping.ofFile (Path.join ["b.php"]) "").target).1 = "utils/b.ts" := by
    rw [hclaimed]
    decide
  obtain ⟨moves₂, m₂, w₃, -, hcourse₂, htree₃, -⟩ :=
    exists_course_of_writeFile small ["b.php"] [] (w := w₂)
      (r := ⟨"demo", ["demo", "converted"], [⟨["a.php"], .settled⟩], [[["b.php"]]]⟩)
      (by simp [Task.isSettled]) rfl hrecord₂ "2" (t := t₂) (by
        unfold given
        rw [show Mapping.source _ = "b.php" from rfl, hgiven₂, hparts.2, htree₂]
        exact hsecond)
  have hordinary : IsOrdinary ([⟨["a.php"], .ok (m, "1")⟩] ++ [⟨["b.php"], .ok (m₂, "2")⟩]) := by
    intro t ht cause hcause
    simp only [List.cons_append, List.nil_append, List.mem_cons, List.not_mem_nil, or_false] at ht
    rcases ht with rfl | rfl <;> cases hcause
  have hover := haccounts.accounts (hcourse.trans hcourse₂) hordinary
    ⟨by simp [Task.isSettled], rfl⟩
  obtain ⟨_, -, -, -, hfares⟩ := hover.fares
  obtain ⟨place', hkept⟩ :=
    ((hfares ["a.php"] (by simp)).holds_of_getLast? m "1" rfl).written
  have htarget' : m.target = "utils/a.ts" := htarget.trans (congrArg Prod.fst hgiven)
  rw [htarget', hparts.1, conclude_tree, htree₃] at hkept
  have hsame : Text.Utf8.encode "1" = Text.Utf8.encode "2" :=
    Entry.file.inj (hkept.unique hlost).2
  exact absurd (Text.Utf8.encode_injective hsame) (by decide)

end Converter

end PhpMigration
