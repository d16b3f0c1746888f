/-
What is shown of a converted project, and what lies in its folder.

After a run that has come to its end, every mapping of the report leads to the text that was written
for its file.  It is also listed, unless the name of its file has nothing in it that is kept in camel
case: then the path ends in a name that is all suffix, and such a name counts as one without a suffix
(`Path.suffix_append_targetSuffix`).  Whatever is listed can be read by the path that it is listed
with, if that leads below the folder of the project, which it does unless the name of the output leads
back out of it.  Nothing else can part the three (`Converter.Completes.agrees_iff`).
-/
import PhpMigration.Proofs.Project.Listing
import PhpMigration.Proofs.Project.Scaffold
import PhpMigration.Proofs.Project.Sound

namespace PhpMigration

variable {σ : Type}

/-! ### What stays in the course of a run -/

section

variable {good : String → Prop} {P : FileTree → Prop} {c : Converter σ} {m : Move}
  {moves : List Move} {trial : Option Trial} {trials : List Trial} {r r' : Run}
  {w w₁ w' : Workshop σ} {project : String}

theorem Attempted.stays {file : List String} {result : Except Incident (Mapping × String)}
    (h : Attempted r file w result w') (hstays : FileTree.StaysWhenPut good P)
    (houtput : ∀ name ∈ r.output, good name) (hparts : ∀ path, ∀ name ∈ Path.parts path, good name)
    (hw : P w.tree) : P w'.tree := by
  have hdeliver : ∀ m code (s : σ),
      P (Converter.deliver r m code { w with service := s }).2.tree := by
    intro m code s
    rw [Converter.deliver_tree]
    exact hstays.writeFile hw (fun name hname =>
      (List.mem_append.mp hname).elim (houtput name) (hparts _ name)) code
  cases h with
  | unread cause => exact hw
  | unconverted cause s => exact hw
  | unwritten cause content part s => exact hdeliver _ part s
  | delivered content code s h =>
      have hall := hdeliver (.ofFile (Path.join file) content) code s
      rwa [h] at hall

theorem Moved.stays (h : Moved c m trial r w r' w') (hstays : FileTree.StaysWhenPut good P)
    (houtput : ∀ name ∈ r.output, good name) (hparts : ∀ path, ∀ name ∈ Path.parts path, good name)
    (hw : P w.tree) : P w'.tree := by
  cases h with
  | dispatch h => exact hw
  | converted ht h => exact h.stays hstays houtput hparts hw
  | missed ht h =>
      rw [Converter.afterFailure_tree]
      exact h.stays hstays houtput hparts hw
  | settle h => rwa [Converter.settleFile_tree h]

theorem Course.stays (h : Course c r w moves trials r' w') (hstays : FileTree.StaysWhenPut good P)
    (houtput : ∀ name ∈ r.output, good name) (hparts : ∀ path, ∀ name ∈ Path.parts path, good name)
    (hw : P w.tree) : r'.output = r.output ∧ P w'.tree := by
  induction h with
  | start => exact ⟨rfl, hw⟩
  | next h hmove ih =>
      obtain ⟨hsame, hkept⟩ := ih
      exact ⟨hmove.output.trans hsame, hmove.stays hstays (hsame ▸ houtput) hparts hkept⟩

theorem Converter.stays_of_prepare (hprepare : c.prepare project w₁ = (.ok r, w))
    (hstays : FileTree.StaysWhenPut good P)
    (hparts : ∀ path, ∀ name ∈ Path.parts path, good name) (hw : P w₁.tree) :
    P w.tree ∧ ∀ name ∈ r.output, good name := by
  obtain ⟨files, -, -, -, -, -, houtput, htree, -⟩ := prepare_start hprepare
  refine ⟨?_, mem_outputFolder houtput hparts⟩
  rw [htree]
  rcases laidOut_tree c project w₁ with hsame | ⟨output, houtput, hlaid⟩
  · rwa [hsame]
  · rw [hlaid]
    exact hstays.lay hw (mem_outputFolder houtput hparts) hparts project

end

/-! ### What a run leaves -/

namespace Converter

/-- A run of a project that has come to its end, however it was begun and in whatever order its moves
were made: the attempts at its files, and what it leaves. -/
inductive Completes (c : Converter σ) (project : String) (w₀ : Workshop σ) :
    List Trial → Workshop σ → Prop
  | over {count : Option Nat} {w₁ w w' : Workshop σ} {r r' : Run} {moves : List Move}
      {trials : List Trial} (hbegin : beginRecord project (announcement count) w₀ = (.ok (), w₁))
      (hprepare : c.prepare project w₁ = (.ok r, w)) (hcourse : Course c r w moves trials r' w')
      (hover : r'.IsOver) : Completes c project w₀ trials (conclude project w').2

/-- What a run leaves on a tree of names without links. -/
structure Concludes (c : Converter σ) (project : String) (output : List String)
    (files : List (List String)) (trials : List Trial) (w : Workshop σ) : Prop where
  outputFolder : c.outputFolder project = .ok output
  sound : w.tree.top.IsSound
  plain : w.tree.top.HasNoLink
  names : w.tree.top.HasNames
  folders : ∀ name ∈ Skeleton.folders, w.tree.isFolder (output ++ [name]) = true
  accounted : IsAccountedFor c project output files trials (w.record project) w
  asked : ∀ t ∈ trials, ∀ m code, t.result = .ok (m, code) → IsAskedFor (Path.join t.file) m.target

variable {c : Converter σ} {project : String} {w₀ w' : Workshop σ} {trials : List Trial}

theorem Completes.concludes (h : c.Completes project w₀ trials w') (hsound : w₀.tree.top.IsSound)
    (hlinks : w₀.tree.top.HasNoLink) (hnames : w₀.tree.top.HasNames) :
    ∃ output files, c.Concludes project output files trials w' := by
  obtain @⟨count, w₁, w, w', r, r', moves, trials, hbegin, hprepare, hcourse, hover⟩ := h
  obtain ⟨htree, hfresh⟩ := tree_and_record_of_announced hbegin
  rw [← htree] at hsound hlinks hnames
  have hproper : ∀ path, ∀ name ∈ Path.parts path, name ≠ "" ∧ name ≠ "." := fun path name hname =>
    of_decide_eq_true (List.mem_filter.mp hname).2
  -- what stays is kept by the skeleton, and then by every move
  obtain ⟨hready, houtput⟩ := stays_of_prepare hprepare hasNames_stays hproper ⟨hlinks, hnames⟩
  obtain ⟨-, hplain, hnames⟩ := hcourse.stays hasNames_stays houtput hproper hready
  obtain ⟨hsoundReady, hisName⟩ := stays_of_prepare hprepare isSound_stays
    (fun _ _ => Path.isName_of_mem_parts) hsound
  obtain ⟨-, hsoundEnd⟩ := hcourse.stays isSound_stays hisName
    (fun _ _ => Path.isName_of_mem_parts) hsoundReady
  obtain ⟨report, t, hlay⟩ := exists_lay_of_prepare hprepare
  have hfolders : ∀ name ∈ Skeleton.folders, w.tree.isFolder (r.output ++ [name]) = true :=
    fun name hname => Skeleton.isFolder_of_lay hlay name hname
  have hlaid : ∃ place e, w.tree.LeadsTo r.output place e ∧ e.HasNoLink := by
    obtain ⟨place, entries, hleads⟩ := FileTree.isFolder_iff.mp (hfolders "utils" (by decide))
    obtain ⟨there, entries', hthere⟩ := FileTree.exists_leadsTo_of_append hleads
    refine ⟨there, _, hthere, fun below target hlink => hready.1 (there ++ below) target ?_⟩
    rw [Entry.at?_append, (FileTree.leadsTo_iff.mp hthere).2.2]
    exact hlink
  obtain ⟨files, -, -, hproject, houtputFolder, hfolder, hshows, hbalanced⟩ :=
    balanced_of_prepare hsound hfresh hprepare hlaid
  have hordinary := hcourse.isOrdinary hover.not_isAbandoned
  obtain ⟨-, -, failures, stands, hshows', -, hbalanced'⟩ :=
    hcourse.balanced hordinary hshows (hproject ▸ hbalanced)
  rw [hproject] at hbalanced'
  have haccounted := hbalanced'.isAccountedFor (hshows'.isSettled hover)
    (needFolder_grown hfolder hcourse.grown) houtputFolder
  obtain ⟨files', -, -, -, -, -, -, -, -, hclaims, -⟩ := prepare_start hprepare
  have hstart : (w.claimsOf r.project).AreAskedFor := by
    unfold Workshop.claimsOf
    rw [hproject, hclaims]
    exact fun _ _ hmem => by cases hmem
  refine ⟨r.output, stands.map Task.file, houtputFolder, ?_, ?_, ?_, ?_, ?_, ?_⟩
  · rwa [conclude_tree]
  · rwa [conclude_tree]
  · rwa [conclude_tree]
  · rw [conclude_tree]
    exact fun name hname => hcourse.grown.isFolder (hfolders name hname)
  · rwa [haccounted.entered]
  · exact (hcourse.areAskedFor hstart).2.2

end Converter

/-! ### The names of what is converted -/

namespace Text

theorem upperChar_ne_nil (c : Char) : upperChar c ≠ [] := by
  unfold upperChar
  split
  · exact List.cons_ne_nil _ _
  · split
    · rename_i codes hlookup
      have hall : ∀ entry ∈ upperExpansions, entry.2 ≠ [] := by decide
      obtain ⟨front, back, hentry, -⟩ := List.lookup_eq_some_iff.mp hlookup
      exact mt List.map_eq_nil_iff.mp (hall (c.toNat, codes) (by rw [hentry]; simp))
    · exact List.cons_ne_nil _ _

theorem lowerChar_ne_nil (c : Char) : lowerChar c ≠ [] := by
  unfold lowerChar
  split
  · exact List.cons_ne_nil _ _
  · split <;> exact List.cons_ne_nil _ _

theorem lowerAfter_ne_nil {before cs : List Char} (h : cs ≠ []) : lowerAfter before cs ≠ [] := by
  obtain ⟨c, rest, rfl⟩ := List.exists_cons_of_ne_nil h
  rw [lowerAfter]
  refine List.append_ne_nil_of_left_ne_nil ?_ _
  split
  · split <;> exact List.cons_ne_nil _ _
  · exact lowerChar_ne_nil c

end Text

/-- A character that has no place in a name in camel case. -/
def IsDropped (c : Char) : Prop := c = '-' ∨ c = '_' ∨ Text.isBlank c = true

theorem isDropped_of_camelFrom {cs : List Char} {pending : Bool} (h : camelFrom pending cs = []) :
    ∀ c ∈ cs, IsDropped c := by
  induction cs generalizing pending with
  | nil => exact fun c hc => by cases hc
  | cons c rest ih =>
      rw [camelFrom] at h
      by_cases hc : (c = '-' || c = '_' || Text.isBlank c) = true
      · rw [if_pos hc] at h
        refine List.forall_mem_cons.mpr ⟨?_, ih h⟩
        simpa [IsDropped, or_assoc] using hc
      · rw [if_neg hc] at h
        cases pending with
        | false => cases h
        | true =>
            rw [if_pos rfl] at h
            have hupper := (List.append_eq_nil_iff.mp h).1
            unfold Text.upper at hupper
            exact absurd (by simpa using hupper) (Text.upperChar_ne_nil c)

/-- A name that a role leaves nothing of has nothing in it that is kept. -/
theorem Role.isDropped_of_rename {role : Role} {stem : String} (h : role.rename stem = "") :
    ∀ c ∈ stem.toList, IsDropped c := by
  have hchars := congrArg String.toList h
  unfold Role.rename at hchars
  by_cases hroute : role = .route
  · rw [if_pos hroute] at hchars
    unfold kebabCase Text.lower at hchars
    rw [String.toList_ofList, String.toList_ofList] at hchars
    cases hstem : stem.toList with
    | nil => exact fun c hc => by cases hc
    | cons c rest =>
        have hdashed : dashed (c :: rest) ≠ [] := by
          cases rest with
          | nil => exact List.cons_ne_nil _ _
          | cons d more =>
              rw [dashed]
              split <;> exact List.cons_ne_nil _ _
        rw [hstem] at hchars
        exact absurd hchars (Text.lowerAfter_ne_nil hdashed)
  · rw [if_neg hroute] at hchars
    unfold camelCase at hchars
    rw [String.toList_ofList] at hchars
    exact isDropped_of_camelFrom hchars

/-- The name of a converted file is its suffix only if nothing is before it, and then it counts as a
name without a suffix. -/
theorem Path.suffix_append_targetSuffix {stem : String} (h : Path.IsName stem) :
    Path.suffix (stem ++ targetSuffix) = if stem = "" then "" else targetSuffix := by
  have hname : Path.IsName (stem ++ targetSuffix) := Path.isName_append h (by decide)
  have hlength : 3 ≤ (stem ++ targetSuffix).length := by
    rw [String.length_append]
    exact Nat.le_add_left 3 stem.length
  have hself : Path.name (stem ++ targetSuffix) = stem ++ targetSuffix := by
    unfold Path.name
    rw [Path.parts_of_isName hname]
    · rfl
    · constructor <;>
      · intro heq
        rw [heq] at hlength
        exact absurd hlength (by decide)
  have hback : (stem ++ targetSuffix).toList.reverse = 's' :: 't' :: '.' :: stem.toList.reverse := by
    simp [targetSuffix]
  unfold Path.suffix Path.cut
  rw [hself, hback]
  by_cases hempty : stem = ""
  · subst hempty
    rfl
  · rw [if_neg hempty]
    have hchars : stem.toList ≠ [] := fun hnil => hempty (String.toList_inj.mp hnil)
    simp [targetSuffix, hchars]

/-- A file asks for a path in a folder for a role. -/
theorem IsAskedFor.isTarget {file path : String} (h : IsAskedFor file path) : IsTarget path := by
  obtain ⟨content, hpath | ⟨n, hpath⟩⟩ := h
  · rw [hpath]
    exact isTarget_ofFile file content
  · obtain ⟨role, hrole, stem, hstem, hname⟩ := isTarget_ofFile file content
    refine ⟨role, hrole, stem ++ toString n, ?_, Path.isName_append hname (Claims.isName_toString n)⟩
    rw [hpath, hstem, Claims.numbered_append]
    simp only [String.append_assoc]

/-- The folder and the name of a target. -/
theorem IsTarget.exists_name {path : String} (h : IsTarget path) : ∃ folder stem,
    folder ∈ Skeleton.folders ∧ Path.IsName stem ∧ path = folder ++ "/" ++ (stem ++ targetSuffix) ∧
      Path.parts path = [folder, stem ++ targetSuffix] ∧ Path.name path = stem ++ targetSuffix := by
  obtain ⟨role, hrole, stem, hpath, hname⟩ := h
  have hparts : Path.parts path = [role.folder, stem ++ targetSuffix] := by
    rw [hpath, IsOutputPath.parts_eq role hname]
  refine ⟨role.folder, stem, ?_, hname, by rw [hpath, String.append_assoc], hparts, ?_⟩
  · revert hrole
    cases role <;> decide
  · unfold Path.name
    rw [hparts]
    rfl

/-- A file that asks for a path whose name is all suffix has a name in which nothing is kept. -/
theorem IsAskedFor.isDropped {file path : String} (h : IsAskedFor file path)
    (hname : Path.name path = targetSuffix) : ∀ c ∈ (Path.stem file).toList, IsDropped c := by
  obtain ⟨folder, stem, -, hstem, hpath, hparts, heq⟩ := h.isTarget.exists_name
  have hempty : stem = "" := by
    rw [heq] at hname
    exact String.append_eq_right_iff.mp hname
  obtain ⟨content, htarget⟩ := h
  have hrename := Role.isName_rename (Role.classify content file) (Path.isName_stem file)
  have hfile : (Mapping.ofFile file content).target = (Role.classify content file).folder ++ "/" ++
      (Role.classify content file).rename (Path.stem file) ++ targetSuffix := rfl
  rcases htarget with htarget | ⟨n, htarget⟩
  · rw [htarget, hfile, IsOutputPath.parts_eq _ hrename, hempty] at hparts
    have hsame := (List.cons_eq_cons.mp (List.cons_eq_cons.mp hparts).2).1
    exact Role.isDropped_of_rename ((String.append_left_inj targetSuffix).mp hsame)
  · -- a number would be left before the suffix
    have hnumbered := Path.isName_append hrename (Claims.isName_toString n)
    rw [htarget, hfile, Claims.numbered_append, @String.append_assoc (_ ++ "/"),
      IsOutputPath.parts_eq _ hnumbered, hempty] at hparts
    have hsame := (List.cons_eq_cons.mp (List.cons_eq_cons.mp hparts).2).1
    have hchars := congrArg String.toList ((String.append_left_inj targetSuffix).mp hsame)
    rw [String.toList_append, Text.toList_toString] at hchars
    exact absurd (List.append_eq_nil_iff.mp hchars).2 Nat.toDigits_ne_nil

/-! ### What is shown -/

/-- The report shows the mappings of the project. -/
theorem Report.perm_mappings {c : Converter σ} {project : String} {w : Workshop σ} {report : Report}
    (h : ofProject c project w = .ok report) : report.mappings.Perm (w.mappingsOf project) := by
  unfold ofProject at h
  cases hfolder : Converter.needFolder project w with
  | error cause => rw [hfolder] at h; cases h
  | ok u =>
      cases houtput : c.outputFolder project with
      | error cause => rw [hfolder, houtput] at h; cases h
      | ok output =>
          rw [hfolder, houtput] at h
          simp only [bind, Except.bind] at h
          split at h
          · cases h
          · cases h
            exact List.mergeSort_perm _ _

theorem Text.Utf8.decodeLenient_encode (s : String) : decodeLenient (encode s) = s := by
  have hdecode := decode_encode s
  unfold decode at hdecode
  unfold decodeLenient
  cases hread : String.fromUTF8? (encode s) with
  | none => rw [hread] at hdecode; cases hdecode
  | some s' =>
      rw [hread] at hdecode
      exact Except.ok.inj hdecode

namespace Review

/-- What is shown of a converted project agrees with what lies in its folder: the report, the list of
the converted files, and the texts that are read. -/
structure Agrees (project outputName : String) (report : Report) (shown : List Value)
    (trials : List Trial) (w : Workshop σ) : Prop where
  /-- Every mapping of the report is listed under the path that it leads to. -/
  listed : ∀ m ∈ report.mappings,
    .object [("name", .text m.target), ("path", .text (outputName ++ "/" ++ m.target))] ∈ shown
  /-- Whatever is listed can be read by its path. -/
  readable : ∀ e ∈ shown, ∃ path text, e.member? "path" = some (.text path) ∧
    read project path w = .ok text
  /-- What is read for a mapping is what was written at the last attempt at its file. -/
  text : ∀ m ∈ report.mappings, ∃ file code, Path.join file = m.source ∧
    (resultsOf trials file).getLast? = some (.ok (m, code)) ∧
    read project (outputName ++ "/" ++ m.target) w = .ok (Text.withLineFeeds code)

/-- Everything that is listed lies strictly below the folder of the project. -/
def StaysInside (t : FileTree) (project : String) (shown : List Value) : Prop :=
  ∀ e ∈ shown, ∀ path, e.member? "path" = some (.text path) → LeadsInside t project path

theorem member?_entry (outputName : String) (path : List String) :
    (entry outputName path).member? "path" = some (.text (outputName ++ "/" ++ Path.join path)) := rfl

theorem isAbsolute_append (outputName rest : String) :
    Path.isAbsolute (outputName ++ "/" ++ rest) = Path.isAbsolute (outputName ++ "/") := by
  unfold Path.isAbsolute
  rw [String.toList_append, String.toList_append]
  cases outputName.toList <;> rfl

end Review

namespace Converter

namespace Concludes

variable {c : Converter σ} {project outputName : String} {output : List String}
  {files : List (List String)} {trials : List Trial} {w : Workshop σ}

/-- The files that are listed. -/
def listing (w : Workshop σ) (output : List String) : List (List String) :=
  Skeleton.folders.flatMap (Review.codeIn w.tree output)

theorem output_eq (h : c.Concludes project output files trials w)
    (hname : c.settings.outputName = .ok outputName) :
    output = Workshop.folderOf project ++ Path.parts outputName := by
  have houtput := h.outputFolder
  unfold Converter.outputFolder at houtput
  rw [hname] at houtput
  cases houtput
  rfl

theorem entries_eq (h : c.Concludes project output files trials w)
    (hname : c.settings.outputName = .ok outputName) :
    Review.entries c project w = .ok ((listing w output).map (Review.entry outputName)) := by
  obtain ⟨place, entries, hleads⟩ := FileTree.isFolder_iff.mp (h.folders "utils" (by decide))
  obtain ⟨there, entries', hthere⟩ := FileTree.exists_leadsTo_of_append hleads
  unfold Review.entries Review.convertedFiles
  rw [h.outputFolder, hname]
  simp only [bind, Except.bind, hthere.leadsToFolder_eq]
  rfl

/-- What is listed is a file, and the path that it is listed with leads there from the folder of the
project. -/
theorem of_mem_listing (h : c.Concludes project output files trials w)
    (hname : c.settings.outputName = .ok outputName) {path : List String}
    (hpath : path ∈ listing w output) :
    path ≠ [] ∧ (∀ name ∈ path, Path.IsName name ∧ Path.IsProper name) ∧ ∃ place content,
      w.tree.LeadsTo (Workshop.folderOf project ++
        Path.parts (outputName ++ "/" ++ Path.join path)) place (.file content) := by
  obtain ⟨folder, hfolder, hmem⟩ := List.mem_flatMap.mp hpath
  have hfolder' : Path.IsName folder ∧ Path.IsProper folder := by
    have hall : ∀ folder ∈ Skeleton.folders, Path.IsName folder ∧ folder ≠ "" ∧ folder ≠ "." ∧
        folder ≠ ".." := by decide
    exact hall folder hfolder
  obtain ⟨hnames, place, content, hleads⟩ :=
    Review.leadsTo_of_mem_codeIn h.sound h.plain h.names hfolder' hmem
  obtain ⟨⟨below, -, rfl⟩, -⟩ := Review.mem_codeIn_iff.mp hmem
  refine ⟨List.cons_ne_nil _ _, hnames, place, content, ?_⟩
  rwa [Path.parts_entry outputName hnames, ← List.append_assoc, ← h.output_eq hname]

/-- A mapping goes with the last attempt at its file, and its path leads to what was written then. -/
theorem of_mem_mappings (h : c.Concludes project output files trials w) {m : Mapping}
    (hm : m ∈ w.mappingsOf project) : ∃ file code, Path.join file = m.source ∧
      (resultsOf trials file).getLast? = some (.ok (m, code)) ∧ IsAskedFor m.source m.target ∧
      ∃ place, w.tree.LeadsTo (output ++ Path.parts m.target) place
        (.file (Text.Utf8.encode code)) := by
  obtain ⟨failures, -, howned, -, hfares⟩ := h.accounted.fares
  obtain ⟨file, hfile, hsource⟩ := List.mem_map.mp (howned m hm)
  have hone := hfares file hfile
  have hmem : m ∈ (w.mappingsOf project).filter fun m => m.source = Path.join file :=
    List.mem_filter.mpr ⟨hm, decide_eq_true hsource.symm⟩
  generalize (w.mappingsOf project).filter (fun m => m.source = Path.join file) = mappings
    at hone hmem
  generalize failures.filter (fun f => f.file = Path.join file) = failures at hone
  generalize hresults : resultsOf trials file = results at hone
  cases hone with
  | reported hcauses => cases hmem
  | @entered causes m' code hcauses hholds =>
      obtain rfl := List.mem_singleton.mp hmem
      have hlast : (resultsOf trials file).getLast? = some (.ok (m, code)) := by
        rw [hresults, List.getLast?_append]
        rfl
      refine ⟨file, code, hsource, hlast, ?_, hholds.written⟩
      obtain ⟨t, ht, hresult⟩ := List.mem_map.mp (List.mem_of_getLast? hlast)
      obtain ⟨hmemt, hsame⟩ := List.mem_filter.mp ht
      have hasked := h.asked t hmemt m code hresult
      rwa [of_decide_eq_true hsame, hsource] at hasked

/-- A file whose last attempt has succeeded goes with its mapping. -/
theorem mem_mappings (h : c.Concludes project output files trials w) {file : List String}
    (hfile : file ∈ files) {m : Mapping} {code : String}
    (hlast : (resultsOf trials file).getLast? = some (.ok (m, code))) : m ∈ w.mappingsOf project := by
  obtain ⟨failures, -, -, -, hfares⟩ := h.accounted.fares
  have hone := hfares file hfile
  generalize hmappings : (w.mappingsOf project).filter (fun m => m.source = Path.join file) = mappings
    at hone
  generalize failures.filter (fun f => f.file = Path.join file) = failures at hone
  generalize resultsOf trials file = results at hone hlast
  cases hone with
  | entered hcauses hholds =>
      rw [List.getLast?_append] at hlast
      cases hlast
      exact List.mem_of_mem_filter (hmappings ▸ List.mem_singleton.mpr rfl)
  | reported hcauses =>
      rw [List.map_append, List.getLast?_append] at hlast
      cases hlast

/-- A mapping is listed unless its name is all suffix. -/
theorem parts_mem_listing_iff (h : c.Concludes project output files trials w) {m : Mapping}
    (hm : m ∈ w.mappingsOf project) :
    Path.parts m.target ∈ listing w output ↔ Path.name m.target ≠ targetSuffix := by
  obtain ⟨file, code, -, -, hasked, place, hleads⟩ := h.of_mem_mappings hm
  obtain ⟨folder, stem, hfolder, hstem, -, hparts, hname⟩ := hasked.isTarget.exists_name
  have hsuffix := Path.suffix_append_targetSuffix hstem
  have hempty : stem ++ targetSuffix = targetSuffix ↔ stem = "" := String.append_eq_right_iff
  rw [hname, hparts, Ne, hempty]
  constructor
  · intro hmem hnil
    obtain ⟨other, -, hcode⟩ := List.mem_flatMap.mp hmem
    obtain ⟨-, hcontains, -⟩ := Review.mem_codeIn_iff.mp hcode
    rw [show [folder, stem ++ targetSuffix].getLastD "" = stem ++ targetSuffix from rfl, hsuffix,
      if_pos hnil] at hcontains
    exact absurd hcontains (by decide)
  · intro hne
    rw [if_neg hne] at hsuffix
    rw [hparts] at hleads
    refine List.mem_flatMap.mpr ⟨folder, hfolder, ?_⟩
    refine Review.mem_codeIn_of_leadsTo h.sound h.plain (h.folders folder hfolder) ?_
      (by rw [hsuffix]; decide) hleads
    intro hdots
    have hlength := congrArg String.length hdots
    rw [String.length_append] at hlength
    exact absurd (hlength ▸ Nat.le_add_left 3 stem.length) (by decide)

/-- What is listed is read if it lies below the folder of the project, and refused if not. -/
theorem read_of_mem_listing (h : c.Concludes project output files trials w)
    (hproject : Path.isAbsolute project = false) (hname : c.settings.outputName = .ok outputName)
    (hrelative : Path.isAbsolute (outputName ++ "/") = false) {path : List String}
    (hpath : path ∈ listing w output) :
    (∃ text, Review.read project (outputName ++ "/" ++ Path.join path) w = .ok text) ↔
      Review.LeadsInside w.tree project (outputName ++ "/" ++ Path.join path) := by
  obtain ⟨-, -, place, content, hleads⟩ := h.of_mem_listing hname hpath
  obtain ⟨hinside, houtside⟩ := Review.read_of_leadsTo h.plain hproject
    ((Review.isAbsolute_append _ _).trans hrelative) hleads
  refine ⟨?_, fun hin => ⟨_, hinside hin⟩⟩
  rintro ⟨text, htext⟩
  by_contra hout
  rw [houtside hout] at htext
  cases htext

/-- The path of a mapping is the one that it is listed with. -/
theorem target_eq_join (h : c.Concludes project output files trials w) {m : Mapping}
    (hm : m ∈ w.mappingsOf project) : Path.join (Path.parts m.target) = m.target := by
  obtain ⟨file, code, -, -, hasked, -⟩ := h.of_mem_mappings hm
  obtain ⟨folder, stem, -, -, hpath, hparts, -⟩ := hasked.isTarget.exists_name
  rw [hparts, hpath]
  exact Path.join_cons_cons folder (stem ++ targetSuffix) []

/-- **Report, list and disk agree just when no mapping has a name that is all suffix and everything
that is listed lies below the folder of the project.** -/
theorem agrees_report_iff (h : c.Concludes project output files trials w)
    (hproject : Path.isAbsolute project = false) (hname : c.settings.outputName = .ok outputName)
    (hrelative : Path.isAbsolute (outputName ++ "/") = false) {report : Report}
    (hreport : Report.ofProject c project w = .ok report) :
    Review.Agrees project outputName report ((listing w output).map (Review.entry outputName))
        trials w ↔
      (∀ m ∈ report.mappings, Path.name m.target ≠ targetSuffix) ∧
        Review.StaysInside w.tree project ((listing w output).map (Review.entry outputName)) := by
  have hmappings := fun m (hm : m ∈ report.mappings) => (Report.perm_mappings hreport).subset hm
  constructor
  · intro hagrees
    constructor
    · intro m hm
      refine (h.parts_mem_listing_iff (hmappings m hm)).mp ?_
      obtain ⟨path, hpath, hentry⟩ := List.mem_map.mp (hagrees.listed m hm)
      obtain ⟨-, hproper, -⟩ := h.of_mem_listing hname hpath
      have htarget : Path.join path = m.target := by
        unfold Review.entry at hentry
        injection hentry with hmembers
        injection hmembers with hfirst
        injection hfirst with _ htext
        injection htext
      rw [← htarget, Path.parts_join hproper]
      exact hpath
    · intro e he path hmember
      obtain ⟨names, hlisted, rfl⟩ := List.mem_map.mp he
      obtain ⟨shown, text, hshown, hread⟩ := hagrees.readable _ he
      rw [Review.member?_entry] at hmember hshown
      obtain rfl : _ = path := Value.text.inj (Option.some.inj hmember)
      obtain rfl : _ = shown := Value.text.inj (Option.some.inj hshown)
      exact (h.read_of_mem_listing hproject hname hrelative hlisted).mp ⟨text, hread⟩
  · rintro ⟨hsuffix, hinside⟩
    have hlisted : ∀ m ∈ report.mappings, Path.parts m.target ∈ listing w output :=
      fun m hm => (h.parts_mem_listing_iff (hmappings m hm)).mpr (hsuffix m hm)
    have hentry : ∀ m ∈ report.mappings, Review.entry outputName (Path.parts m.target) =
        .object [("name", .text m.target), ("path", .text (outputName ++ "/" ++ m.target))] := by
      intro m hm
      unfold Review.entry
      rw [h.target_eq_join (hmappings m hm)]
    refine ⟨fun m hm => hentry m hm ▸ List.mem_map_of_mem (hlisted m hm), fun e he => ?_,
      fun m hm => ?_⟩
    · obtain ⟨names, hnames, rfl⟩ := List.mem_map.mp he
      obtain ⟨text, hread⟩ := (h.read_of_mem_listing hproject hname hrelative hnames).mpr
        (hinside _ he _ (Review.member?_entry outputName names))
      exact ⟨_, text, Review.member?_entry outputName names, hread⟩
    · obtain ⟨file, code, hsource, hlast, -, place, hleads⟩ := h.of_mem_mappings (hmappings m hm)
      have hin := hinside _ (List.mem_map_of_mem (hlisted m hm)) _ (Review.member?_entry _ _)
      rw [h.target_eq_join (hmappings m hm)] at hin
      rw [h.output_eq hname, List.append_assoc, ← Path.parts_append] at hleads
      have hread := (Review.read_of_leadsTo h.plain hproject
        ((Review.isAbsolute_append _ _).trans hrelative) hleads).1 hin
      rw [Text.Utf8.decodeLenient_encode] at hread
      exact ⟨file, code, hsource, hlast, hread⟩

/-- Nothing that is listed lies outside unless the name of the output leads back. -/
theorem staysInside (h : c.Concludes project output files trials w)
    (hname : c.settings.outputName = .ok outputName) (hdots : ".." ∉ Path.parts outputName) :
    Review.StaysInside w.tree project ((listing w output).map (Review.entry outputName)) := by
  intro e he path hmember
  obtain ⟨names, hlisted, rfl⟩ := List.mem_map.mp he
  rw [Review.member?_entry] at hmember
  obtain rfl : _ = path := Value.text.inj (Option.some.inj hmember)
  obtain ⟨hne, hproper, -⟩ := h.of_mem_listing hname hlisted
  refine Review.leadsInside_of_not_mem ?_ ?_
  · rw [Path.parts_entry outputName hproper]
    exact List.append_ne_nil_of_right_ne_nil _ hne
  · rw [Path.parts_entry outputName hproper, List.mem_append, not_or]
    exact ⟨hdots, fun hmem => (hproper _ hmem).2.2.2 rfl⟩

end Concludes

/-! ### Whole runs -/

/-- What the converter does is such a run, if it comes to its end. -/
theorem completes_of_convertBegun {settings : Settings} {parser : SourceParser}
    {service : Service σ} {project : String} {count : Option Nat} {w₀ w₁ w' : Workshop σ}
    {record : Record} (hbegin : beginRecord project (announcement count) w₀ = (.ok (), w₁))
    (h : (ofService settings parser service).convertBegun project w₁ = (.ok record, w')) :
    ∃ trials, (ofService settings parser service).Completes project w₀ trials w' := by
  unfold convertBegun at h
  cases hprepare : (ofService settings parser service).prepare project w₁ with
  | mk ready w =>
      rw [hprepare] at h
      cases ready with
      | error incident => cases h
      | ok r =>
          dsimp only at h
          cases hlost : ((ofService settings parser service).finish r w).1.tasks.findSome?
              Task.abandonment? with
          | some cause => rw [hlost] at h; cases h
          | none =>
              rw [hlost] at h
              cases h
              obtain ⟨moves, trials, hcourse, hstuck⟩ :=
                course_inTurn settings parser service (weight settings.maxAttempts r) r w
              have hover := isOver_of_stuck (List.findSome?_eq_none_iff.mp hlost)
                (hstuck (Nat.le_refl _))
              exact ⟨trials, .over hbegin hprepare hcourse hover⟩

/-- **After a run that has come to its end, report, list and disk agree just when no mapping has a
name that is all suffix and everything that is listed lies below the folder of the project.**  A name
is all suffix only for a file in whose own name nothing is kept, and nothing lies outside unless the
name of the output leads back. -/
theorem Completes.agrees_iff {c : Converter σ} {project outputName : String}
    {trials : List Trial} {w₀ w' : Workshop σ} (h : c.Completes project w₀ trials w')
    (hsound : w₀.tree.top.IsSound) (hlinks : w₀.tree.top.HasNoLink)
    (hnames : w₀.tree.top.HasNames) (hproject : Path.isAbsolute project = false)
    (hname : c.settings.outputName = .ok outputName)
    (hrelative : Path.isAbsolute (outputName ++ "/") = false) :
    (w'.record project).status = .completed ∧ ∃ report shown,
      Report.ofProject c project w' = .ok report ∧ Review.entries c project w' = .ok shown ∧
      (Review.Agrees project outputName report shown trials w' ↔
        (∀ m ∈ report.mappings, Path.name m.target ≠ targetSuffix) ∧
          Review.StaysInside w'.tree project shown) ∧
      (∀ m ∈ report.mappings, Path.name m.target = targetSuffix →
        ∀ c ∈ (Path.stem m.source).toList, IsDropped c) ∧
      (".." ∉ Path.parts outputName → Review.StaysInside w'.tree project shown) := by
  obtain ⟨output, files, hconcludes⟩ := h.concludes hsound hlinks hnames
  obtain ⟨report, hreport, -⟩ := hconcludes.accounted.report
  refine ⟨hconcludes.accounted.status, report, _, hreport, hconcludes.entries_eq hname,
    hconcludes.agrees_report_iff hproject hname hrelative hreport, ?_,
    hconcludes.staysInside hname⟩
  intro m hm hall
  obtain ⟨file, code, -, -, hasked, -⟩ :=
    hconcludes.of_mem_mappings ((Report.perm_mappings hreport).subset hm)
  exact hasked.isDropped hall

/-! ### A project with one file -/

section

variable (name path : String)

/-- The tree of a project with one file is a tree of names without links. -/
theorem orderly_one (hname : Path.IsName name) (hproper : Path.IsProper name)
    (hne : name ≠ "converted") : (FileTree.small [name] []).top.IsSound ∧
      (FileTree.small [name] []).top.HasNoLink ∧ (FileTree.small [name] []).top.HasNames := by
  have hskeleton : (Entry.skeleton []).IsSound ∧ (Entry.skeleton []).HasNames := by
    constructor
    · simp only [Entry.skeleton, Entry.IsSound, EachSound, List.map, Table.names]
      decide
    · have hfile : (Entry.file ByteArray.empty).HasNames := Entry.IsBare.hasNames trivial
      have hempty : (Entry.folder []).HasNames := Entry.IsBare.hasNames rfl
      have hdatabase : (Entry.folder [("database.ts", .file ByteArray.empty)]).HasNames :=
        Entry.hasNames_folder (by simp [Path.IsProper, hfile])
      exact Entry.hasNames_folder (by simp [Path.IsProper, hfile, hempty, hdatabase])
  refine ⟨?_, ?_, ?_⟩
  · simp only [FileTree.small, Entry.IsSound, EachSound, List.map, Table.names]
    simp [hskeleton.1, hname, Ne.symm hne, show Path.IsName "demo" by decide,
      show Path.IsName "converted" by decide]
  · have hfile := Entry.hasNoLink_file ByteArray.empty
    refine Entry.hasNoLink_folder fun entry hentry => ?_
    obtain rfl := List.mem_singleton.mp hentry
    refine Entry.hasNoLink_folder ?_
    simpa [hasNoLink_skeleton] using hfile
  · have hfile : (Entry.file ByteArray.empty).HasNames := Entry.IsBare.hasNames trivial
    have hinner : (Entry.folder [("converted", Entry.skeleton []),
        (name, .file ByteArray.empty)]).HasNames := by
      refine Entry.hasNames_folder ?_
      simpa [hskeleton.2, hfile] using ⟨⟨by decide, by decide, by decide⟩, hproper⟩
    refine Entry.hasNames_folder ?_
    simpa [hinner] using ⟨by decide, by decide, by decide⟩

/-- The one file is converted and written. -/
theorem exists_completes_one (hsuffix : Discovery.hasSuffix [".php"] name = true)
    (htarget : (Mapping.ofFile name "").target = path)
    (hfree : (FileTree.small [name] []).refusal? (["demo", "converted"] ++ Path.parts path)
      (["demo", "converted"] ++ Path.parts path) = none) :
    ∃ m w', m.target = path ∧ small.Completes "demo" (.small [name] [])
      [⟨[name], .ok (m, "1")⟩] w' := by
  obtain ⟨w₁, w, hbegin, hprepare, htree⟩ := exists_prepare_begun [] (List.pairwise_singleton _ _)
    (by simpa using hsuffix) (List.cons_ne_nil name [])
  rw [show chunksOf 1 ([name].map fun n => [n]) = [[[name]]] from
    chunksOf_one _] at hprepare
  obtain ⟨files, -, -, -, -, -, -, -, -, hclaims, hrecord⟩ :=
    prepare_ok (tree_and_record_of_begin hbegin).2 hprepare
  have hleads : w.tree.LeadsTo ["demo", "converted"] ["demo", "converted"] (.skeleton []) :=
    htree ▸ leadsTo_small rfl (fun _ h => by cases h) (by decide) (by decide)
  have hlaid := isLaidOut_of_prepare hprepare hleads (hasNoLink_skeleton nofun)
  have hgiven : given ⟨"demo", ["demo", "converted"], [], [[[name]]]⟩
      (.ofFile (Path.join [name]) "") w = path := by
    unfold given Workshop.claimsOf
    rw [hclaims]
    exact htarget
  have hwrite := hlaid.writeFile_eq (htarget ▸ isTarget_ofFile name "" : IsTarget path) "1"
  rw [htree, hfree] at hwrite
  obtain ⟨moves, m, w', hm, hcourse, -⟩ := exists_course_of_writeFile small [name] []
    (r := ⟨"demo", ["demo", "converted"], [], [[[name]]]⟩) (by simp) rfl hrecord "1"
    (hgiven.symm ▸ htree ▸ hwrite)
  have hbegun : beginRecord "demo" (announcement none) (.small [name] []) = (.ok (), w₁) := hbegin
  exact ⟨m, _, hm.trans hgiven, .over hbegun hprepare hcourse ⟨by simp [Task.isSettled], rfl⟩⟩

variable {name}

/-- The attempt at the one file that there is. -/
theorem of_getLast?_one {m m' : Mapping} {code code' : String} {file : List String}
    (h : (resultsOf [⟨[name], .ok (m, code)⟩] file).getLast? = some (.ok (m', code'))) :
    file = [name] ∧ m' = m := by
  unfold resultsOf at h
  by_cases hfile : [name] = file
  · subst hfile
    simp at h
    exact ⟨rfl, h.1.symm⟩
  · simp [hfile] at h

end

/-- A file that keeps its name is listed, and read as it was written. -/
theorem agrees_plain : ∃ m w' report shown,
    small.Completes "demo" (.small ["a.php"] []) [⟨["a.php"], .ok (m, "1")⟩] w' ∧
      (w'.record "demo").status = .completed ∧ Report.ofProject small "demo" w' = .ok report ∧
      Review.entries small "demo" w' = .ok shown ∧
      Review.Agrees "demo" "converted" report shown [⟨["a.php"], .ok (m, "1")⟩] w' := by
  obtain ⟨m, w', htarget, hcompletes⟩ :=
    exists_completes_one "a.php" "utils/a.ts" (by decide) (by decide) (by decide)
  obtain ⟨hsound, hlinks, hnames⟩ :=
    orderly_one "a.php" (by decide) ⟨by decide, by decide, by decide⟩ (by decide)
  obtain ⟨hstatus, report, shown, hreport, hshown, hagrees, -, hinside⟩ :=
    hcompletes.agrees_iff hsound hlinks hnames (by decide)
      (show small.settings.outputName = .ok "converted" from rfl) (by decide)
  refine ⟨m, w', report, shown, hcompletes, hstatus, hreport, hshown,
    hagrees.mpr ⟨fun m' hm' => ?_, hinside (by decide)⟩⟩
  obtain ⟨output, files, hconcludes⟩ := hcompletes.concludes hsound hlinks hnames
  obtain ⟨file, code, -, hlast, -⟩ :=
    hconcludes.of_mem_mappings ((Report.perm_mappings hreport).subset hm')
  rw [(of_getLast?_one hlast).2, htarget]
  decide

/-- **A file whose name is an underscore is reported but not listed.** -/
theorem not_agrees_underscore : ∃ m w' report shown,
    (FileTree.small ["_.php"] []).top.HasNoLink ∧
      small.Completes "demo" (.small ["_.php"] []) [⟨["_.php"], .ok (m, "1")⟩] w' ∧
      (w'.record "demo").status = .completed ∧ Report.ofProject small "demo" w' = .ok report ∧
      Review.entries small "demo" w' = .ok shown ∧ m ∈ report.mappings ∧ m.target = "utils/.ts" ∧
      ¬ Review.Agrees "demo" "converted" report shown [⟨["_.php"], .ok (m, "1")⟩] w' := by
  obtain ⟨m, w', htarget, hcompletes⟩ :=
    exists_completes_one "_.php" "utils/.ts" (by decide) (by decide) (by decide)
  obtain ⟨hsound, hlinks, hnames⟩ :=
    orderly_one "_.php" (by decide) ⟨by decide, by decide, by decide⟩ (by decide)
  obtain ⟨output, files, hconcludes⟩ := hcompletes.concludes hsound hlinks hnames
  obtain ⟨report, hreport, -⟩ := hconcludes.accounted.report
  have hfile := hconcludes.accounted.tried _ (List.mem_singleton.mpr rfl)
  have hlast : (resultsOf [⟨["_.php"], .ok (m, "1")⟩] ["_.php"]).getLast? = some (.ok (m, "1")) := by
    simp [resultsOf]
  have hmem := (Report.perm_mappings hreport).symm.subset (hconcludes.mem_mappings hfile hlast)
  refine ⟨m, w', report, _, hlinks, hcompletes, hconcludes.accounted.status, hreport,
    hconcludes.entries_eq rfl, hmem, htarget, fun hagrees => ?_⟩
  have hname := ((hconcludes.agrees_report_iff (by decide) rfl (by decide) hreport).mp hagrees).1 m hmem
  rw [htarget] at hname
  exact hname (by decide)

end Converter

end PhpMigration
