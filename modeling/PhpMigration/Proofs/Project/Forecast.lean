/-
What an analysis says of a conversion.

An analysis and an attempt read the same bytes, but not the same text: an analysis keeps the marks
before it and an attempt takes them away.  No role is recognised by a mark, so both give a file the
same role (`Role.classify_withoutMarks`).  Hence every mapping that a run comes to is a line of the
analysis (`Analysis.Foretells`), as long as the files are as they were wherever the run looks at
them (`Converter.Revisits`); that is kept by every step of the run, whatever others do in the
meantime.

A file has one line in the analysis, so it is in the list of its role and in no other one.
-/
import PhpMigration.Project.Analysis
import PhpMigration.Proofs.Attempt
import PhpMigration.Proofs.Project.Agreement
import PhpMigration.Proofs.Project.Fallback
import PhpMigration.Proofs.Role

namespace PhpMigration

variable {σ : Type}

/-! ### The lines of an analysis -/

namespace Analysis

variable {a : Analysis} {s : Settings} {folder : List String} {t : FileTree} {name : String}
  {role role' : Role}

/-- The list of files that an analysis shows under a name of its structure. -/
def listOf (a : Analysis) (key : String) : List Value :=
  match ((Table.find? a.toDocument "structure").getD .null).member key with
  | .list files => files
  | _ => []

theorem listOf_role (a : Analysis) :
    a.listOf "routes" = (a.filesOf .route).map .text ∧
      a.listOf "controllers" = (a.filesOf .controller).map .text ∧
      a.listOf "models" = (a.filesOf .model).map .text := ⟨rfl, rfl, rfl⟩

theorem mem_filesOf_iff : name ∈ a.filesOf role ↔ (name, role) ∈ a.classified := by
  rw [filesOf, List.mem_map]
  constructor
  · rintro ⟨line, hline, rfl⟩
    obtain ⟨hmem, hrole⟩ := List.mem_filter.mp hline
    obtain rfl := of_decide_eq_true hrole
    exact hmem
  · exact fun hmem => ⟨(name, role), List.mem_filter.mpr ⟨hmem, decide_eq_true rfl⟩, rfl⟩

/-- The line of a file in an analysis of a tree, if it can be read. -/
def lineOf? (t : FileTree) (folder file : List String) : Option (String × Role) :=
  (textOf t (folder ++ file)).map fun text => (Path.join file, Role.classify text (Path.join file))

theorem exists_classified (h : ofProject s folder t = .ok a) : ∃ found,
    Discovery.sources s folder t = .ok found ∧ a.classified = found.filterMap (lineOf? t folder) := by
  unfold ofProject at h
  cases hskipped : s.skipped with
  | error fault => rw [hskipped] at h; cases h
  | ok skipped =>
      cases hsources : Discovery.sources s folder t with
      | error fault => rw [hskipped, hsources] at h; cases h
      | ok found =>
          cases hneeded : dependenciesOf t folder with
          | error fault => rw [hskipped, hsources, hneeded] at h; cases h
          | ok needed =>
              rw [hskipped, hsources, hneeded] at h
              cases h
              refine ⟨found, rfl, ?_⟩
              rw [List.map_filterMap]
              refine List.filterMap_congr fun file _ => ?_
              rw [lineOf?, Option.map_map]
              rfl

/-- A file has one line at most. -/
theorem nodup_classified (hsound : t.top.IsSound) (h : ofProject s folder t = .ok a) :
    (a.classified.map Prod.fst).Nodup := by
  obtain ⟨found, hfound, hlines⟩ := exists_classified h
  rw [hlines]
  refine (Discovery.nodup_sources hsound hfound).sublist ?_
  clear hlines hfound
  induction found with
  | nil => exact .slnil
  | cons file rest ih =>
      cases htext : textOf t (folder ++ file) with
      | none =>
          rw [List.filterMap_cons_none (by rw [lineOf?, htext]; rfl)]
          exact ih.cons _
      | some text =>
          rw [List.filterMap_cons_some (by rw [lineOf?, htext]; rfl)]
          exact ih.cons_cons _

theorem role_unique (hsound : t.top.IsSound) (h : ofProject s folder t = .ok a)
    (hrole : (name, role) ∈ a.classified) (hrole' : (name, role') ∈ a.classified) :
    role = role' :=
  congrArg Prod.snd (List.inj_on_of_nodup_map (nodup_classified hsound h) hrole hrole' rfl)

/-- **The lists of an analysis hold a file once at most, and not two of them hold it.** -/
theorem nodup_lists (hsound : t.top.IsSound) (h : ofProject s folder t = .ok a) :
    (a.listOf "routes" ++ a.listOf "controllers" ++ a.listOf "models").Nodup := by
  have hone : ∀ role, (a.filesOf role).Nodup := fun role =>
    (nodup_classified hsound h).sublist (List.filter_sublist.map _)
  have hapart : ∀ {role role' : Role}, role ≠ role' → (a.filesOf role).Disjoint (a.filesOf role') := by
    intro role role' hne name hname hname'
    exact hne (role_unique hsound h (mem_filesOf_iff.mp hname) (mem_filesOf_iff.mp hname'))
  obtain ⟨hroutes, hcontrollers, hmodels⟩ := a.listOf_role
  rw [hroutes, hcontrollers, hmodels, ← List.map_append, ← List.map_append]
  refine List.Nodup.map (fun _ _ => Value.text.inj) ?_
  refine List.Nodup.append (List.Nodup.append (hone _) (hone _) (hapart (by decide))) (hone _) ?_
  exact List.disjoint_append_left.mpr ⟨hapart (by decide), hapart (by decide)⟩

/-- A mapping is foretold if its file has a line with its role. -/
def Foretells (a : Analysis) (m : Mapping) : Prop := (m.source, m.role) ∈ a.classified

end Analysis

namespace Converter

/-! ### One attempt -/

/-- An attempt and an analysis that find the same bytes read the same text, but for the marks before
it. -/
theorem exists_textOf {t t' : FileTree} {path : List String} {content : String}
    (hread : t'.read path = t.read path) (h : sourceText t' path = .ok content) :
    ∃ text, Analysis.textOf t path = some text ∧ content = withoutMarks text := by
  unfold sourceText at h
  cases hbytes : t'.read path with
  | error fault => rw [hbytes] at h; cases h
  | ok bytes =>
      rw [hbytes] at h
      cases hdecoded : Text.Utf8.decode bytes with
      | error fault =>
          simp only [Except.mapError, bind, Except.bind, hdecoded] at h
          cases h
      | ok text =>
          simp only [Except.mapError, bind, Except.bind, hdecoded] at h
          refine ⟨Text.withLineFeeds text, ?_, pure_eq_ok_iff.mp h⟩
          rw [Analysis.textOf, ← hread, hbytes]
          dsimp only
          rw [hdecoded]
          rfl

/-- **The mapping of a file that reads as it did is foretold.** -/
theorem foretells_deliver {a : Analysis} {s : Settings} {folder file : List String} {t t' : FileTree}
    {found : List (List String)} {r : Run} {w : Workshop σ} {m : Mapping} {content code : String}
    (ha : Analysis.ofProject s folder t = .ok a) (hfound : Discovery.sources s folder t = .ok found)
    (hfile : file ∈ found) (hread : t'.read (folder ++ file) = t.read (folder ++ file))
    (hcontent : sourceText t' (folder ++ file) = .ok content)
    (hdeliver : (deliver r (.ofFile (Path.join file) content) code w).1 = .ok m) : a.Foretells m := by
  obtain ⟨found', hfound', hlines⟩ := Analysis.exists_classified ha
  obtain rfl : found = found' := Except.ok.inj (hfound.symm.trans hfound')
  obtain ⟨text, htext, rfl⟩ := exists_textOf hread hcontent
  obtain ⟨rfl, -⟩ := deliver_ok hdeliver
  rw [Analysis.Foretells, hlines, List.mem_filterMap]
  refine ⟨file, hfile, ?_⟩
  rw [Analysis.lineOf?, htext, Option.map_some, ← Role.classify_withoutMarks, Mapping.ofFile]

/-! ### A whole run -/

/-- Where a run looks at the files of a project, they are as they are in a tree: it finds the same
ones, and an attempt reads what is there. -/
def SeesSame (c : Converter σ) (project : String) (t : FileTree) : Act → Stage → Workshop σ → Prop
  | .proceed, .laid _, w =>
    Discovery.sources c.settings (Workshop.folderOf project) w.tree =
      Discovery.sources c.settings (Workshop.folderOf project) t
  | .move (.attempt place), .moving r, w => ∀ task, r.tasks[place]? = some task →
    w.tree.read (Workshop.folderOf project ++ task.file) =
      t.read (Workshop.folderOf project ++ task.file)
  | _, _, _ => True

/-- A conversion of a project has come to a stage, and the files of the project were as they are in
a tree wherever it looked at them.  In the meantime others may do what they like, as long as they
enter no mappings for the project. -/
inductive Revisits (c : Converter σ) (project : String) (t : FileTree) : Stage → Workshop σ → Prop
  | begun (w : Workshop σ) : Revisits c project t .begun w
  | act {a : Act} {stage stage' : Stage} {w w' : Workshop σ} (h : Revisits c project t stage w)
      (hsame : c.SeesSame project t a stage w)
      (hact : c.act project a (stage, w) = some (stage', w')) : Revisits c project t stage' w'
  | meanwhile {stage : Stage} {w w' : Workshop σ} (h : Revisits c project t stage w)
      (hmappings : w'.mappingsOf project = w.mappingsOf project) : Revisits c project t stage w'

/-- The files of a run are among those of an analysis, and what has come of them is foretold. -/
structure IsForetold (a : Analysis) (found : List (List String)) (project : String) (r : Run)
    (w : Workshop σ) : Prop where
  own : r.project = project
  tasks : ∀ task ∈ r.tasks, task.file ∈ found ∧
    ∀ m, task.standing = .converted m → a.Foretells m
  queue : ∀ chunk ∈ r.queue, ∀ file ∈ chunk, file ∈ found
  mappings : ∀ m ∈ w.mappingsOf project, a.Foretells m

section

variable {a : Analysis} {found : List (List String)} {project : String} {t : FileTree}
  {settings : Settings} {parser : SourceParser} {service : Service σ} {r r' : Run}
  {w w' : Workshop σ}

theorem mappingsOf_forget (project : String) (c : Change) (w : Workshop σ) :
    ((w.forget project).update project c).mappingsOf project = [] := by
  rw [mappingsOf_of_mappings (show ((w.forget project).update project c).mappings =
    (w.forget project).mappings from Workshop.enter_mappings _)]
  unfold Workshop.mappingsOf Workshop.forget
  dsimp only
  rw [Table.find?_set, if_pos rfl]
  rfl

/-- A failed attempt is no conversion. -/
theorem afterFailure_ne_converted (c : Converter σ) (n : Nat) (cause : Incident) (w : Workshop σ)
    (m : Mapping) : (c.afterFailure n cause w).1 ≠ .converted m := by
  unfold afterFailure
  split
  · exact nofun
  · split <;> exact nofun

namespace IsForetold

/-- One file of the chunk at hand has come further. -/
theorem setStanding (h : IsForetold a found project r w) {place : Nat} {task : Task}
    (ht : r.tasks[place]? = some task) {standing : Standing}
    (hstanding : ∀ m, standing = .converted m → a.Foretells m)
    (hmappings : ∀ m ∈ w'.mappingsOf project, a.Foretells m) :
    IsForetold a found project (Converter.setStanding r place task.file standing) w' := by
  refine ⟨h.own, fun other hother => ?_, h.queue, hmappings⟩
  rcases List.mem_or_eq_of_mem_set hother with hold | rfl
  · exact h.tasks other hold
  · exact ⟨(h.tasks task (List.mem_of_getElem? ht)).1, hstanding⟩

/-- **A move comes to mappings that are foretold**, if an attempt reads what was analysed. -/
theorem move (ha : Analysis.ofProject settings (Workshop.folderOf project) t = .ok a)
    (hfound : Discovery.sources settings (Workshop.folderOf project) t = .ok found)
    (h : IsForetold a found project r w) {m : Move}
    (hsame : (ofService settings parser service).SeesSame project t (.move m) (.moving r) w)
    (hstep : (ofService settings parser service).step m r w = some (r', w')) :
    IsForetold a found project r' w' := by
  have hplayed : ∃ trial, Played (ofService settings parser service) .free m trial r w r' w' :=
    played_of_step settings parser service hstep fun _ _ _ _ _ => trivial
  obtain ⟨trial, hplayed⟩ := hplayed
  cases hplayed with
  | dispatch hdispatch =>
      obtain ⟨-, chunk, rest, hqueue, ⟨-, rfl⟩ | ⟨-, rfl⟩⟩ := dispatch_cases hdispatch
      · exact ⟨h.own, nofun, nofun, h.mappings⟩
      · have hchunks := h.queue
        rw [hqueue, List.forall_mem_cons] at hchunks
        refine ⟨h.own, fun task htask => ?_, hchunks.2, h.mappings⟩
        obtain ⟨file, hfile, rfl⟩ := List.mem_map.mp htask
        exact ⟨hchunks.1 file hfile, nofun⟩
  | converted s ht hs hattempt =>
      rcases attemptOf_cases hattempt with ⟨cause, hcause, -⟩ |
        ⟨content, code, delivered, hread, -, hdeliver, hresult⟩
      · cases hcause
      · cases delivered with
        | error cause => cases hresult
        | ok mapping =>
            cases hresult
            have hmapping := foretells_deliver ha hfound (h.tasks _ (List.mem_of_getElem? ht)).1
              (hsame _ ht) (h.own ▸ hread) (congrArg Prod.fst hdeliver)
            refine h.setStanding ht (fun other hother => ?_) ?_
            · cases hother
              exact hmapping
            · rw [mappingsOf_of_mappings (mappings_of_deliver hdeliver)]
              exact h.mappings
  | missed s ht hs hattempt =>
      refine h.setStanding ht (fun m hm => absurd hm (afterFailure_ne_converted _ _ _ _ m)) ?_
      rw [mappingsOf_of_mappings (afterFailure_mappings _ _ _ _)]
      rcases attemptOf_cases hattempt with ⟨cause, -, rfl⟩ | ⟨content, code, delivered, -, -, hdeliver, -⟩
      · exact h.mappings
      · rw [mappingsOf_of_mappings (mappings_of_deliver hdeliver)]
        exact h.mappings
  | settle hsettle =>
      rcases settleFile_cases hsettle with ⟨file, m, ht, rfl, rfl⟩ | ⟨file, cause, ht, rfl, rfl⟩
      · refine h.setStanding ht nofun fun other hother => ?_
        rw [mappingsOf_settle, h.own, mappingsOf_addMapping] at hother
        rcases List.mem_append.mp hother with hold | hnew
        · exact h.mappings other hold
        · obtain rfl := List.mem_singleton.mp hnew
          exact (h.tasks _ (List.mem_of_getElem? ht)).2 other rfl
      · refine h.setStanding ht nofun ?_
        rw [mappingsOf_settle]
        exact h.mappings

end IsForetold

/-- What an analysis has said that holds at a stage of a run. -/
def KeepsTo (a : Analysis) (found : List (List String)) (project : String) :
    Stage → Workshop σ → Prop
  | .found _ files, _ => ∀ file ∈ files, file ∈ found
  | .moving r, w => IsForetold a found project r w
  | stage, w => stage.IsConverting → ∀ m ∈ w.mappingsOf project, a.Foretells m

namespace KeepsTo

variable {stage stage' : Stage}

theorem congr (h : KeepsTo a found project stage w)
    (hmappings : w'.mappingsOf project = w.mappingsOf project) :
    KeepsTo a found project stage w' := by
  cases stage with
  | found output files => exact h
  | moving r => exact ⟨h.own, h.tasks, h.queue, hmappings ▸ h.mappings⟩
  | begun | housed | laid | closing | failing | ended | failed | lost =>
      exact fun hstage m hm => h hstage m (hmappings ▸ hm)

/-- The files that a run begins with are those that were analysed, if it finds the same ones. -/
theorem found_of_needSources {c : Converter σ} {files : List (List String)}
    (hfound : Discovery.sources c.settings (Workshop.folderOf project) t = .ok found)
    (hsame : Discovery.sources c.settings (Workshop.folderOf project) w.tree =
      Discovery.sources c.settings (Workshop.folderOf project) t)
    (h : c.needSources project w = .ok files) : files = found := by
  have hsources := (needSources_ok h).1
  unfold sources at hsources
  rw [hsame, hfound] at hsources
  exact (Except.ok.inj hsources).symm

/-- **Whatever step a run takes, it keeps to the analysis.** -/
theorem proceed (hfound : Discovery.sources settings (Workshop.folderOf project) t = .ok found)
    (h : KeepsTo a found project stage w)
    (hsame : (ofService settings parser service).SeesSame project t .proceed stage w)
    (hproceed : (ofService settings parser service).proceed project stage w = some (stage', w')) :
    KeepsTo a found project stage' w' := by
  cases stage with
  | begun =>
      unfold Converter.proceed at hproceed
      dsimp only at hproceed
      split at hproceed <;> cases hproceed <;> exact nofun
  | housed =>
      unfold Converter.proceed at hproceed
      dsimp only at hproceed
      split at hproceed <;> cases hproceed <;> exact nofun
  | laid output =>
      unfold Converter.proceed at hproceed
      dsimp only at hproceed
      split at hproceed
      · cases hproceed
        exact nofun
      · rename_i files hfiles
        cases hproceed
        obtain rfl := found_of_needSources hfound hsame hfiles
        exact fun file hfile => hfile
  | found output files =>
      cases hproceed
      refine ⟨rfl, nofun, fun chunk hchunk file hfile => h file ?_, ?_⟩
      · rw [← flatten_chunksOf settings.chunkSize_pos files]
        exact List.mem_flatten_of_mem hchunk hfile
      · rw [mappingsOf_forget]
        exact nofun
  | moving r =>
      obtain ⟨rfl, ⟨cause, rfl⟩ | ⟨-, ⟨-, rfl⟩ | ⟨-, rfl⟩⟩⟩ := proceed_moving_cases hproceed <;>
        exact fun _ => h.mappings
  | closing =>
      cases hproceed
      refine fun _ m hm => h trivial m ?_
      rwa [mappingsOf_of_mappings (show (w.complete project).2.mappings = w.mappings from
        Workshop.enter_mappings _)] at hm
  | failing incident =>
      cases hproceed
      exact nofun
  | ended | failed | lost => cases hproceed

/-- **A run keeps to the analysis of the files that it looks at.** -/
theorem of_revisits (ha : Analysis.ofProject settings (Workshop.folderOf project) t = .ok a)
    (hfound : Discovery.sources settings (Workshop.folderOf project) t = .ok found)
    (h : (ofService settings parser service).Revisits project t stage w) :
    KeepsTo a found project stage w := by
  induction h with
  | begun w => exact nofun
  | meanwhile h hmappings ih => exact ih.congr hmappings
  | act h hsame hact ih =>
      rename_i a stage stage' w w'
      cases a with
      | proceed => exact ih.proceed hfound hsame hact
      | stop =>
          cases hact
          exact ih.congr (mappingsOf_of_mappings (Workshop.agrees_stop project w).mappings project)
      | move m =>
          cases stage with
          | moving r =>
              obtain ⟨⟨r', w₁⟩, hstep, heq⟩ := Option.map_eq_some_iff.mp hact
              cases heq
              exact IsForetold.move ha hfound ih hsame hstep
          | _ => cases hact

end KeepsTo

/-- **An analysis foretells the roles that a run gives.**  Whatever a run comes to with the files
that were analysed: a file that has a mapping is in the list of routes, of controllers or of models
if that is the role of its mapping, and only then; and no list holds a file twice, nor do two of
them hold the same one. -/
theorem listOf_iff_role (hsound : t.top.IsSound)
    (ha : Analysis.ofProject settings (Workshop.folderOf project) t = .ok a) {stage : Stage}
    (hrun : (ofService settings parser service).Revisits project t stage w)
    (hstage : stage.IsConverting) :
    (∀ m ∈ w.mappingsOf project,
      (.text m.source ∈ a.listOf "routes" ↔ m.role = .route) ∧
      (.text m.source ∈ a.listOf "controllers" ↔ m.role = .controller) ∧
      (.text m.source ∈ a.listOf "models" ↔ m.role = .model)) ∧
    (a.listOf "routes" ++ a.listOf "controllers" ++ a.listOf "models").Nodup := by
  refine ⟨fun m hm => ?_, Analysis.nodup_lists hsound ha⟩
  obtain ⟨found, hfound, -⟩ := Analysis.exists_classified ha
  have hkeeps := KeepsTo.of_revisits ha hfound hrun
  have hforetold : a.Foretells m := by
    cases stage with
    | moving r => exact hkeeps.mappings m hm
    | closing | ended | lost => exact hkeeps trivial m hm
    | _ => exact hstage.elim
  have hlist : ∀ role, .text m.source ∈ (a.filesOf role).map Value.text ↔ m.role = role := by
    intro role
    rw [List.mem_map_of_injective fun _ _ => Value.text.inj, Analysis.mem_filesOf_iff]
    refine ⟨fun hline => Analysis.role_unique hsound ha hforetold hline, ?_⟩
    rintro rfl
    exact hforetold
  obtain ⟨hroutes, hcontrollers, hmodels⟩ := a.listOf_role
  rw [hroutes, hcontrollers, hmodels]
  exact ⟨hlist _, hlist _, hlist _⟩

end

/-! ### A small project -/

section

variable {c : Converter σ} {project : String} {t : FileTree} {stage stage' : Stage} {r : Run}
  {w w' : Workshop σ}

/-- A run that gets ready and finds the files that were analysed. -/
theorem revisits_of_prepare (h : c.prepare project w = (.ok r, w'))
    (hsame : Discovery.sources c.settings (Workshop.folderOf project) w'.tree =
      Discovery.sources c.settings (Workshop.folderOf project) t) :
    c.Revisits project t (.moving r) w' := by
  obtain ⟨-, -, -, -, -, -, -, htree, -⟩ := prepare_start h
  unfold laidOut at htree
  cases prepared_of_prepare h with
  | ready hfolder hlay hsources =>
      rename_i output files w₁
      rw [hlay] at htree
      have hhoused : c.act project .proceed (.begun, w) = some (.housed,
          w.update project { step := some (.text "creating_structure") }) := by
        simp only [act, proceed, hfolder]
      have hlaid : c.act project .proceed (.housed,
          w.update project { step := some (.text "creating_structure") }) =
            some (.laid output, w₁) := by
        simp only [act, proceed, hlay]
      have hfound : c.act project .proceed (.laid output, w₁) =
          some (.found output files, w₁) := by
        simp only [act, proceed, hsources]
      have hseen : c.SeesSame project t .proceed (.laid output) w₁ := by
        rw [htree] at hsame
        exact hsame
      have hlast : c.SeesSame project t .proceed (.found output files) w₁ := trivial
      have hfirst : c.Revisits project t .housed _ :=
        .act (a := .proceed) (.begun w) trivial hhoused
      have hsecond : c.Revisits project t (.laid output) w₁ :=
        .act (a := .proceed) hfirst trivial hlaid
      exact .act (.act hsecond hseen hfound) hlast rfl

/-- A run that goes on through some moves. -/
theorem Revisits.drive {acts : List Act} (h : c.Revisits project t stage w)
    (hdrive : c.drive project acts (stage, w) = some (stage', w'))
    (hsame : ∀ front a back stage₁ w₁, acts = front ++ a :: back →
      c.drive project front (stage, w) = some (stage₁, w₁) → c.SeesSame project t a stage₁ w₁) :
    c.Revisits project t stage' w' := by
  induction acts generalizing stage w with
  | nil =>
      cases hdrive
      exact h
  | cons a rest ih =>
      obtain ⟨⟨stage₁, w₁⟩, hact, hrest⟩ := Option.bind_eq_some_iff.mp hdrive
      refine ih (.act h (hsame [] a rest stage w rfl rfl) hact) hrest ?_
      intro front b back stage₂ w₂ heq hfront
      refine hsame (a :: front) b back stage₂ w₂ (by rw [heq]; rfl) ?_
      show (c.act project a (stage, w)).bind _ = _
      rw [hact]
      exact hfront

end

/-- There is an analysis of the small project. -/
theorem exists_ofProject_small : ∃ a,
    Analysis.ofProject Settings.small ["demo"] (.small ["routes.php"] []) = .ok a := by
  have hskipped : Settings.small.skipped = .ok ["converted"] := rfl
  obtain ⟨found, hfound⟩ : ∃ found,
      Discovery.sources Settings.small ["demo"] (.small ["routes.php"] []) = .ok found := ⟨_, rfl⟩
  obtain ⟨-, hlinks, -⟩ := orderly_one "routes.php" (by decide) ⟨by decide, by decide, by decide⟩
    (by decide)
  have hshort : ¬ (FileTree.small ["routes.php"] []).IsTooLong ["demo", "composer.json"] := by
    rintro (hsize | hmeets)
    · exact absurd hsize (by decide)
    · obtain ⟨-, hname | hmeets⟩ := Entry.meetsLongName_cons_iff.mp hmeets
      · exact absurd hname (by decide)
      · obtain ⟨-, hname | hmeets⟩ := Entry.meetsLongName_cons_iff.mp hmeets
        · exact absurd hname (by decide)
        · exact Entry.not_meetsLongName_nil hmeets
  have hentry := (FileTree.entry?_of_hasNoLink hlinks (by decide) (by decide)).1 hshort
  obtain ⟨needed, hneeded⟩ : ∃ needed,
      Analysis.dependenciesOf (.small ["routes.php"] []) ["demo"] = .ok needed := by
    unfold Analysis.dependenciesOf FileTree.leadsToFile
    dsimp only [List.cons_append, List.nil_append]
    rw [hentry]
    exact ⟨_, rfl⟩
  unfold Analysis.ofProject
  rw [hskipped, hfound, hneeded]
  exact ⟨_, rfl⟩

/-- The only file of the small project is listed as a route. -/
theorem mem_filesOf_small {a : Analysis}
    (ha : Analysis.ofProject Settings.small ["demo"] (.small ["routes.php"] []) = .ok a) :
    "routes.php" ∈ a.filesOf .route := by
  obtain ⟨found, hfound, hlines⟩ := Analysis.exists_classified ha
  have hsources : (smallWith false fun _ s => (.ok "", s)).sources "demo"
      (.small ["routes.php"] []) = .ok [["routes.php"]] :=
    sources_small rfl (List.pairwise_singleton _ "routes.php") (by decide)
  have hread : sourceText (.small ["routes.php"] []) (Workshop.folderOf "demo" ++ ["routes.php"]) =
      .ok "" := sourceText_small (leadsTo_small rfl (fun _ h => by cases h) (by decide) (by decide))
  obtain ⟨text, htext, hempty⟩ := exists_textOf rfl hread
  have hfolder : Workshop.folderOf "demo" = ["demo"] := by decide
  have hmem : ["routes.php"] ∈ found := by
    unfold sources at hsources
    rw [hfolder] at hsources
    change (Discovery.sources Settings.small ["demo"] (.small ["routes.php"] [])).mapError _ = _
      at hsources
    rw [hfound] at hsources
    exact Except.ok.inj hsources ▸ List.mem_cons_self
  rw [Analysis.mem_filesOf_iff, hlines, List.mem_filterMap]
  refine ⟨["routes.php"], hmem, ?_⟩
  rw [hfolder] at htext
  rw [Analysis.lineOf?, htext, Option.map_some, ← Role.classify_withoutMarks, ← hempty]
  decide

/-- The only file of the small project is converted. -/
theorem exists_revisits_small : ∃ (stage : Stage) (w : Workshop (List String)) (m : Mapping),
    (smallWith true scripted).Revisits "demo" (.small ["routes.php"] []) stage w ∧
      stage.IsConverting ∧ m ∈ w.mappingsOf "demo" ∧ m.source = "routes.php" := by
  obtain ⟨w₁, w, hbegin, hprepare, htree⟩ := exists_prepareWith_begun [] true scripted ["1"]
    (List.pairwise_singleton _ "routes.php") (by decide) (List.cons_ne_nil _ _)
  rw [show chunksOf 1 (["routes.php"].map fun n => [n]) = [[["routes.php"]]] from
    chunksOf_one _] at hprepare
  obtain ⟨files, -, -, -, -, -, -, -, -, hclaims, hrecord⟩ :=
    prepare_ok (tree_and_record_of_begin hbegin).2 hprepare
  have hread : sourceText (.small ["routes.php"] []) (Workshop.folderOf "demo" ++ ["routes.php"]) =
      .ok "" := sourceText_small (leadsTo_small rfl (fun _ h => by cases h) (by decide) (by decide))
  -- the reply is written to the folder of routes, where nothing is in its way
  obtain ⟨outcome, hconvert, hresult, -⟩ := exists_convert_scripted (w := w) "" "routes.php"
    ((service_of_prepare hprepare).trans (congrArg (·.2.service) hbegin).symm)
    (extract_reply "1" (by decide)).1 (by decide)
  have hleads : w.tree.LeadsTo ["demo", "converted"] ["demo", "converted"] (.skeleton []) :=
    htree ▸ leadsTo_small rfl (fun _ h => by cases h) (by decide) (by decide)
  have hlaid := isLaidOut_of_prepare hprepare hleads (hasNoLink_skeleton nofun)
  have hgiven : given ⟨"demo", ["demo", "converted"], [], [[["routes.php"]]]⟩
      (.ofFile (Path.join ["routes.php"]) "") w = "routes/routes.ts" := by
    unfold given Workshop.claimsOf
    rw [hclaims]
    decide
  have htarget : (Mapping.ofFile "routes.php" "").target = "routes/routes.ts" := by decide
  have hwrite := hlaid.writeFile_eq (htarget ▸ isTarget_ofFile "routes.php" "" :
    IsTarget "routes/routes.ts") "1"
  have hfree : (FileTree.small ["routes.php"] []).refusal?
      (["demo", "converted"] ++ Path.parts "routes/routes.ts")
      (["demo", "converted"] ++ Path.parts "routes/routes.ts") = none := by decide
  rw [htree, hfree, ← hgiven, ← htree] at hwrite
  obtain ⟨m, w', hsource, -, hmoves, -, -, hmappings, -⟩ := exists_drive_of_writeFile
    (r := ⟨"demo", ["demo", "converted"], [], [[["routes.php"]]]⟩) "demo" (by simp) rfl hrecord
    (htree ▸ hread) hconvert hresult hwrite
  have hready : (smallWith true scripted).Revisits "demo" (.small ["routes.php"] [])
      (.moving ⟨"demo", ["demo", "converted"], [], [[["routes.php"]]]⟩) w :=
    revisits_of_prepare hprepare (by rw [htree])
  refine ⟨_, w', m, hready.drive hmoves.drive ?_, trivial, ?_, hsource⟩
  · intro front act back stage₁ w₂ heq hfront
    rcases front with _ | ⟨first, _ | ⟨second, _ | ⟨third, rest⟩⟩⟩
    · cases heq
      cases hfront
      trivial
    · cases heq
      obtain ⟨⟨stage, w₃⟩, hdispatch, hrest⟩ := Option.bind_eq_some_iff.mp hfront
      obtain ⟨⟨r, w₄⟩, hstep, hmoved⟩ := Option.map_eq_some_iff.mp hdispatch
      obtain ⟨r', -, hkept⟩ := Option.map_eq_some_iff.mp hstep
      cases hkept
      cases hmoved
      cases hrest
      exact fun task _ => by rw [htree]
    · cases heq
      cases stage₁ <;> trivial
    · cases rest <;> cases heq
  · rw [hmappings]
    exact List.mem_append_right _ List.mem_cons_self

/-- A file whose name says that it holds routes is converted as such, as the analysis has said. -/
theorem listOf_iff_role_routes : ∃ (a : Analysis) (stage : Stage) (w : Workshop (List String))
    (m : Mapping), (FileTree.small ["routes.php"] []).top.IsSound ∧
      Analysis.ofProject { Settings.small with useAi := true } (Workshop.folderOf "demo")
        (.small ["routes.php"] []) = .ok a ∧
      (smallWith true scripted).Revisits "demo" (.small ["routes.php"] []) stage w ∧
      stage.IsConverting ∧ m ∈ w.mappingsOf "demo" ∧ m.source = "routes.php" ∧ m.role = .route ∧
      .text m.source ∈ a.listOf "routes" ∧ .text m.source ∉ a.listOf "models" := by
  obtain ⟨hsound, -, -⟩ := orderly_one "routes.php" (by decide) ⟨by decide, by decide, by decide⟩
    (by decide)
  obtain ⟨a, ha⟩ := exists_ofProject_small
  obtain ⟨stage, w, m, hrun, hstage, hm, hsource⟩ := exists_revisits_small
  have hfolder : Workshop.folderOf "demo" = ["demo"] := by decide
  have ha' : Analysis.ofProject { Settings.small with useAi := true } (Workshop.folderOf "demo")
      (.small ["routes.php"] []) = .ok a := hfolder ▸ ha
  have hrun' : (ofService { Settings.small with useAi := true } parseSource scripted).Revisits
      "demo" (.small ["routes.php"] []) stage w := hrun
  obtain ⟨hlists, -⟩ := listOf_iff_role hsound ha' hrun' hstage
  obtain ⟨hroutes, -, hmodels⟩ := hlists m hm
  have hlisted : .text m.source ∈ a.listOf "routes" := by
    rw [hsource, a.listOf_role.1]
    exact List.mem_map_of_mem (mem_filesOf_small ha)
  have hrole := hroutes.mp hlisted
  exact ⟨a, stage, w, m, hsound, ha', hrun, hstage, hm, hsource, hrole, hlisted,
    fun hmodel => by simp [hrole] at hmodels; exact hmodels hmodel⟩

end Converter

end PhpMigration
