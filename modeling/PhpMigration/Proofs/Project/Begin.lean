/-
What a conversion begins with.

A start is accepted if no record is there or the one that is has come to an end, and it puts a
fresh record in its place (`beginRecord_cases`).  After that the skeleton is laid and the files are
found; if that succeeds, the record counts exactly the files in the chunks, of which there is at
least one, and none of them is settled (`prepare_ok`).  If it does not succeed, the record is still
fresh, and is then ended as failed.  It always succeeds for a project that has sources and whose
skeleton stands (`prepare_of_stands`).
-/
import PhpMigration.Proofs.Project.Moves
import PhpMigration.Proofs.Project.Skeleton

namespace PhpMigration

variable {σ : Type}

/-! ### Chunks -/

theorem flatten_chunksOf {α : Type} {size : Nat} (h : 0 < size) (files : List α) :
    (chunksOf size files).flatten = files := by
  fun_induction chunksOf size files with
  | case1 files hempty =>
      rcases files with _ | ⟨file, rest⟩
      · rfl
      · simp at hempty
        omega
  | case2 files hne ih => rw [List.flatten_cons, ih, List.take_append_drop]

theorem chunksOf_cons {α : Type} {size : Nat} (h : 0 < size) (file : α) (rest : List α) :
    chunksOf size (file :: rest) =
      (file :: rest).take size :: chunksOf size ((file :: rest).drop size) := by
  rw [chunksOf, if_neg (by simp; omega)]

theorem chunksOf_nil {α : Type} (size : Nat) : chunksOf size ([] : List α) = [] := by
  rw [chunksOf, if_pos (by simp)]

/-- As many files as fit into a chunk make one. -/
theorem chunksOf_of_length_le {α : Type} {size : Nat} {files : List α} (hne : files ≠ [])
    (h : files.length ≤ size) : chunksOf size files = [files] := by
  obtain ⟨file, rest, rfl⟩ := List.exists_cons_of_ne_nil hne
  have hsize : 0 < size := Nat.lt_of_lt_of_le (by simp) h
  rw [chunksOf_cons hsize, List.take_of_length_le h, List.drop_of_length_le h, chunksOf_nil]

/-- In chunks of one, every file has its own. -/
theorem chunksOf_one {α : Type} (files : List α) :
    chunksOf 1 files = files.map fun file => [file] := by
  induction files with
  | nil => exact chunksOf_nil 1
  | cons file rest ih => exact (chunksOf_cons Nat.one_pos file rest).trans (congrArg _ ih)

/-! ### The fresh record -/

/-- What a start may announce: the number of files, if it has counted them. -/
def announcement (count : Option Nat) : Change := { total := count.map fun n => .int n }

theorem percent_zero (total : Nat) : percent 0 total = 0 := by
  unfold percent
  by_cases h : total = 0
  · rw [if_pos h]
  · rw [if_neg h, Nat.zero_mul, Nat.zero_div]
    rfl

theorem ofChange_announcement (count : Option Nat) :
    ∃ r, Record.ofChange (announcement count) = .ok r ∧ r.IsUnderWay 0 (count.getD 0) [] := by
  cases count with
  | none => exact ⟨{}, rfl, rfl, rfl, rfl, rfl, rfl⟩
  | some n =>
      refine ⟨{ total := .int n }, rfl, rfl, ?_, rfl, rfl, rfl⟩
      rw [percent_zero]

namespace Converter

variable {project : String} {count : Option Nat} {w w' : Workshop σ}

/-- A start is refused and changes nothing, or it puts a fresh record in place of one that has come
to an end. -/
theorem beginRecord_cases (project : String) (count : Option Nat) (w : Workshop σ) :
    (∃ incident, beginRecord project (announcement count) w = (.error incident, w)) ∨
      ∃ r, beginRecord project (announcement count) w =
          (.ok (), { w with ledger := Table.set project r w.ledger }) ∧
        r.IsUnderWay 0 (count.getD 0) [] := by
  obtain ⟨r, hr, hfresh⟩ := ofChange_announcement count
  unfold beginRecord Workshop.create Ledger.create
  cases hfree : w.ledger.isFree project with
  | error misfit => exact .inl ⟨_, rfl⟩
  | ok free =>
      cases free with
      | false => exact .inl ⟨_, rfl⟩
      | true =>
          refine .inr ⟨r, ?_, hfresh⟩
          simp only [hr]
          rfl

/-- A change of the step, and of the total while no file is settled, keeps a record under way. -/
theorem update_of_isUnderWay {total : Nat} {c : Change}
    (h : (w.record project).IsUnderWay 0 total []) (hstatus : c.status = none)
    (hprogress : c.progress = none) (hcompleted : c.completed = none) (hfailed : c.failed = none)
    (hstrange : c.isStrange = false) {newTotal : Nat}
    (htotal : c.total.getD (.int total) = .int newTotal) :
    ((w.update project c).record project).IsUnderWay 0 newTotal [] := by
  unfold Workshop.update
  rw [Workshop.update_record h.status hprogress hstrange]
  unfold Record.changed
  refine ⟨?_, ?_, ?_, ?_, ?_⟩
  · rw [hstatus]
    exact h.status
  · show (w.record project).progress = _
    rw [h.progress, percent_zero, percent_zero]
  · rw [hcompleted]
    exact h.completed
  · show c.total.getD (w.record project).total = _
    rw [h.total]
    exact htotal
  · rw [hfailed]
    exact h.failed

theorem laySkeleton_ledger (c : Converter σ) (project : String) (w : Workshop σ) :
    (c.laySkeleton project w).2.ledger = w.ledger := by
  unfold laySkeleton
  split
  · rfl
  · split <;> rfl

/-- The project, as it is when its skeleton has been laid and the first entries are made. -/
def laidOut (c : Converter σ) (project : String) (w : Workshop σ) : Workshop σ :=
  (c.laySkeleton project (w.update project { step := some (.text "creating_structure") })).2

theorem laidOut_of_isUnderWay (c : Converter σ) {total : Nat}
    (h : (w.record project).IsUnderWay 0 total []) :
    ((c.laidOut project w).record project).IsUnderWay 0 total [] := by
  unfold laidOut Workshop.record
  rw [laySkeleton_ledger]
  exact update_of_isUnderWay h rfl rfl rfl rfl rfl rfl

theorem needSources_ok {c : Converter σ} {files : List (List String)}
    (h : c.needSources project w = .ok files) : c.sources project w = .ok files ∧ files ≠ [] := by
  unfold needSources at h
  cases hs : c.sources project w with
  | error incident => rw [hs] at h; cases h
  | ok found =>
      rw [hs] at h
      by_cases hempty : found.isEmpty = true
      · simp [hempty, bind, Except.bind, throw, throwThe, MonadExceptOf.throw] at h
      · simp only [hempty, bind, Except.bind] at h
        cases h
        exact ⟨rfl, fun hnil => hempty (List.isEmpty_iff.mpr hnil)⟩

theorem laySkeleton_ok {c : Converter σ} {output : List String}
    (h : c.laySkeleton project w = (.ok output, w')) : c.outputFolder project = .ok output := by
  unfold laySkeleton at h
  split at h
  · cases h
  · rename_i found hfound
    split at h
    · cases h
    · cases h
      exact hfound

/-- How getting ready ends: at the first of its steps that fails, or with all of them. -/
inductive Prepared (c : Converter σ) (project : String) (w : Workshop σ) :
    Except Incident Run → Workshop σ → Prop
  | homeless {incident : Incident} (hfolder : needFolder project w = .error incident) :
      Prepared c project w (.error incident) w
  | unlaid {incident : Incident} {w' : Workshop σ} (hfolder : needFolder project w = .ok ())
      (hlay : c.laySkeleton project (w.update project { step := some (.text "creating_structure") }) =
        (.error incident, w')) : Prepared c project w (.error incident) w'
  | unfound {output : List String} {incident : Incident} {w' : Workshop σ}
      (hfolder : needFolder project w = .ok ())
      (hlay : c.laySkeleton project (w.update project { step := some (.text "creating_structure") }) =
        (.ok output, w'))
      (hsources : c.needSources project w' = .error incident) :
      Prepared c project w (.error incident) w'
  | ready {output : List String} {files : List (List String)} {w₁ : Workshop σ}
      (hfolder : needFolder project w = .ok ())
      (hlay : c.laySkeleton project (w.update project { step := some (.text "creating_structure") }) =
        (.ok output, w₁))
      (hsources : c.needSources project w₁ = .ok files) :
      Prepared c project w (.ok ⟨project, output, [], chunksOf c.settings.chunkSize files⟩)
        ((w₁.forget project).update project
          { total := some (.int files.length), step := some (.text "converting") })

theorem prepared_of_prepare {c : Converter σ} {result : Except Incident Run}
    (h : c.prepare project w = (result, w')) : Prepared c project w result w' := by
  unfold prepare at h
  cases hfolder : needFolder project w with
  | error incident =>
      rw [hfolder] at h
      cases h
      exact .homeless hfolder
  | ok u =>
      rw [hfolder] at h
      dsimp only at h
      split at h
      · rename_i hlay
        cases h
        exact .unlaid hfolder hlay
      · rename_i output w₁ hlay
        cases hsources : c.needSources project w₁ with
        | error incident =>
            rw [hsources] at h
            cases h
            exact .unfound hfolder hlay hsources
        | ok files =>
            rw [hsources] at h
            cases h
            exact .ready hfolder hlay hsources

/-- A conversion that is ready to make its moves has found at least one file, and has no mapping and
no claim; whatever its record is, the number of the files is entered. -/
theorem prepare_start {c : Converter σ} {run : Run} (hp : c.prepare project w = (.ok run, w')) :
    ∃ files, c.sources project (c.laidOut project w) = .ok files ∧ files ≠ [] ∧
      run.project = project ∧ run.tasks = [] ∧
      run.queue = chunksOf c.settings.chunkSize files ∧
      c.outputFolder project = .ok run.output ∧
      w'.tree = (c.laidOut project w).tree ∧ w'.mappingsOf project = [] ∧
      (Table.find? w'.claims project).getD [] = [] ∧
      w' = ((c.laidOut project w).forget project).update project
        { total := some (.int files.length), step := some (.text "converting") } := by
  cases prepared_of_prepare hp with
  | ready hfolder hlay hsources =>
      rename_i output files w₁
      obtain rfl : c.laidOut project w = w₁ := congrArg Prod.snd hlay
      obtain ⟨hfiles, hne⟩ := needSources_ok hsources
      refine ⟨files, hfiles, hne, rfl, rfl, rfl, laySkeleton_ok hlay, ?_, ?_, ?_, rfl⟩
      · unfold Workshop.update
        rw [Workshop.enter_tree]
        rfl
      · unfold Workshop.mappingsOf Workshop.update
        rw [Workshop.enter_mappings]
        unfold Workshop.forget
        rw [Table.find?_set, if_pos rfl]
        rfl
      · unfold Workshop.update
        rw [Workshop.enter_claims]
        unfold Workshop.forget
        rw [Table.find?_set, if_pos rfl]
        rfl

/-- **What a conversion that is ready to make its moves has found**: at least one file, cut into
chunks, no mapping and no claim, and a record that counts the files. -/
theorem prepare_ok {c : Converter σ} {run : Run} {total : Nat}
    (h : (w.record project).IsUnderWay 0 total [])
    (hp : c.prepare project w = (.ok run, w')) :
    ∃ files, c.sources project (c.laidOut project w) = .ok files ∧ files ≠ [] ∧
      run.project = project ∧ run.tasks = [] ∧
      run.queue = chunksOf c.settings.chunkSize files ∧
      c.outputFolder project = .ok run.output ∧
      w'.tree = (c.laidOut project w).tree ∧ w'.mappingsOf project = [] ∧
      (Table.find? w'.claims project).getD [] = [] ∧
      (w'.record project).IsUnderWay 0 files.length [] := by
  obtain ⟨files, hfiles, hne, hproject, htasks, hqueue, houtput, htree, hmappings, hclaims, hw'⟩ :=
    prepare_start hp
  have hforget : (((c.laidOut project w).forget project).record project).IsUnderWay 0 total [] :=
    laidOut_of_isUnderWay c h
  have hrecord : (w'.record project).IsUnderWay 0 files.length [] := by
    rw [hw']
    exact update_of_isUnderWay hforget rfl rfl rfl rfl rfl rfl
  exact ⟨files, hfiles, hne, hproject, htasks, hqueue, houtput, htree, hmappings, hclaims, hrecord⟩

/-- A conversion that does not get ready leaves the record as fresh as it was. -/
theorem prepare_error {c : Converter σ} {incident : Incident} {total : Nat}
    (h : (w.record project).IsUnderWay 0 total [])
    (hp : c.prepare project w = (.error incident, w')) :
    (w'.record project).IsUnderWay 0 total [] := by
  have hlaid := laidOut_of_isUnderWay c h
  unfold laidOut at hlaid
  cases prepared_of_prepare hp with
  | homeless hfolder => exact h
  | unlaid hfolder hlay => rwa [hlay] at hlaid
  | unfound hfolder hlay hsources => rwa [hlay] at hlaid

/-- The sources that are found depend on nothing but the files. -/
theorem sources_of_tree {c : Converter σ} (h : w.tree = w'.tree) :
    c.sources project w = c.sources project w' := by
  unfold sources
  rw [h]

theorem needFolder_of_tree (h : w.tree = w'.tree) :
    needFolder project w = needFolder project w' := by
  unfold needFolder Workshop.hasFolder noFolder Workshop.shownFolder
  rw [h]

/-- A skeleton is laid alike where the files are the same. -/
theorem laySkeleton_of_tree {c : Converter σ} (h : w.tree = w'.tree) :
    (c.laySkeleton project w).1 = (c.laySkeleton project w').1 ∧
      (c.laySkeleton project w).2.tree = (c.laySkeleton project w').2.tree := by
  unfold laySkeleton
  cases c.outputFolder project with
  | error cause => exact ⟨rfl, h⟩
  | ok output =>
      dsimp only
      rw [h]
      cases Skeleton.lay output project w'.tree with
      | mk result tree => cases result <;> exact ⟨rfl, rfl⟩

theorem needFolder_eq_ok_iff : needFolder project w = .ok () ↔
    w.tree.leadsToFolder (Workshop.folderOf project) = .ok true := by
  unfold needFolder Workshop.hasFolder
  cases hleads : w.tree.leadsToFolder (Workshop.folderOf project) with
  | error fault => exact ⟨(fun h => by cases h), (fun h => by cases h)⟩
  | ok there =>
      cases there with
      | true => exact ⟨fun _ => rfl, fun _ => rfl⟩
      | false => exact ⟨(fun h => by cases h), (fun h => by cases h)⟩

/-- The folder of a project stays where files are only added. -/
theorem needFolder_grown (h : needFolder project w = .ok ()) (hgrown : w.tree.Grown w'.tree) :
    needFolder project w' = .ok () := by
  rw [needFolder_eq_ok_iff, FileTree.leadsToFolder_eq_ok_true_iff] at h ⊢
  obtain ⟨place, entries, hleads⟩ := h
  exact ⟨place, hgrown.leadsTo_folder hleads⟩

/-- A project that has sources and whose skeleton stands is ready, and its files are left as they
are. -/
theorem prepare_of_stands {c : Converter σ} {output : List String} {files : List (List String)}
    (hfolder : needFolder project w = .ok ()) (houtput : c.outputFolder project = .ok output)
    (hstands : Skeleton.Stands output project w.tree)
    (hsources : c.sources project w = .ok files) (hne : files ≠ []) :
    ∃ w', c.prepare project w =
        (.ok ⟨project, output, [], chunksOf c.settings.chunkSize files⟩, w') ∧
      w'.tree = w.tree := by
  obtain ⟨w₁, hw₁⟩ : ∃ w₁, w₁ = w.update project { step := some (.text "creating_structure") } :=
    ⟨_, rfl⟩
  have htree : w₁.tree = w.tree := by
    rw [hw₁]
    exact Workshop.enter_tree _
  have hlaid : c.laySkeleton project w₁ = (.ok output, w₁) := by
    unfold laySkeleton
    rw [houtput]
    dsimp only
    rw [htree, Skeleton.lay_of_stands hstands]
    dsimp only
    rw [← htree]
  have hfound : c.needSources project w₁ = .ok files := by
    unfold needSources
    rw [sources_of_tree htree, hsources]
    show (if files.isEmpty = true then _ else _) = _
    rw [if_neg (mt List.isEmpty_iff.mp hne)]
    rfl
  unfold prepare
  rw [hfolder]
  dsimp only
  rw [← hw₁, hlaid]
  dsimp only
  rw [hfound]
  refine ⟨_, rfl, ?_⟩
  unfold Workshop.update
  rw [Workshop.enter_tree]
  exact htree

end Converter

/-! ### A small project

One file, beside a skeleton that stands. -/

/-- One file at a time and two attempts at each. -/
def Settings.small : Settings :=
  { useAi := false
    chunkSize := 1
    maxAttempts := 2
    baseDelay := .ofInt 1
    uploadFolder := "uploads"
    outputName := .ok "converted"
    suffixes := .ok [".php"]
    skipped := .ok ["converted"]
    chunkSize_pos := Nat.zero_lt_one
    maxAttempts_pos := Nat.zero_lt_two }

/-- A skeleton whose files are empty, with some more entries among its utilities. -/
def Entry.skeleton (utilities : List (String × Entry)) : Entry :=
  let empty := Entry.file ByteArray.empty
  .folder [("controllers", .folder []), ("models", .folder []), ("routes", .folder []),
    ("middlewares", .folder []), ("config", .folder [("database.ts", empty)]),
    ("utils", .folder utilities), ("types", .folder [("database.ts", empty)]),
    ("services", .folder []), ("index.ts", empty), ("package.json", empty),
    ("tsconfig.json", empty), ("README.md", empty), (".env.example", empty)]

/-- A tree with one project, some sources beside its skeleton. -/
def FileTree.small (sources : List String) (utilities : List (String × Entry)) : FileTree :=
  ⟨"uploads", .folder [("demo", .folder
    (("converted", .skeleton utilities) ::
      sources.map fun name => (name, .file ByteArray.empty)))]⟩

/-- The converter of the small project, which asks nobody. -/
def Converter.small : Converter Unit := .ofService .small parseSource fun _ s => (.ok "", s)

/-- The workshop with a tree and nothing else. -/
def Workshop.small (sources : List String) (utilities : List (String × Entry)) : Workshop Unit :=
  { tree := .small sources utilities, service := () }

/-- A way through the folders of a small project is the way that its path leads. -/
theorem leadsTo_small {sources path : List String} {utilities : List (String × Entry)} {e : Entry}
    (he : (FileTree.small sources utilities).top.at? path = some e)
    (hlink : ∀ target, e ≠ .link target)
    (hnames : ∀ name ∈ path, name ≠ ".." ∧ name.toList.contains '\x00' = false ∧
      ¬ maxNameBytes < name.utf8ByteSize)
    (hsize : ¬ maxPathBytes < (Path.join ("uploads" :: path)).utf8ByteSize) :
    (FileTree.small sources utilities).LeadsTo path path e :=
  FileTree.leadsTo_of_names he hlink hnames hsize

theorem stands_small (sources : List String) (utilities : List (String × Entry))
    (project : String) :
    Skeleton.Stands ["demo", "converted"] project (FileTree.small sources utilities) := by
  refine ⟨?_, ?_⟩
  · intro name hname
    have hfolder : ∃ entries, (FileTree.small sources utilities).LeadsTo
        (["demo", "converted"] ++ [name]) (["demo", "converted"] ++ [name]) (.folder entries) := by
      simp only [Skeleton.folders, List.mem_cons, List.not_mem_nil, or_false] at hname
      rcases hname with rfl | rfl | rfl | rfl | rfl | rfl | rfl | rfl <;>
        exact ⟨_, leadsTo_small rfl (fun _ h => by cases h) (by decide)
          (by decide)⟩
    obtain ⟨entries, hentries⟩ := hfolder
    exact hentries.isFolder_eq
  · intro name hname
    have hfile : (FileTree.small sources utilities).LeadsTo
        (["demo", "converted"] ++ Path.parts name) (["demo", "converted"] ++ Path.parts name)
        (.file ByteArray.empty) := by
      rw [show (Boilerplate.files project).names = ["index.ts", "package.json",
        "tsconfig.json", "README.md", ".env.example", "config/database.ts",
        "types/database.ts"] from rfl] at hname
      simp only [List.mem_cons, List.not_mem_nil, or_false] at hname
      rcases hname with rfl | rfl | rfl | rfl | rfl | rfl | rfl <;>
        exact leadsTo_small (by rfl) (fun _ h => by cases h) (by decide)
          (by decide)
    unfold FileTree.leadsToEntry
    rw [hfile.entry?_eq]
    rfl

/-- What entries give that are files or count as files. -/
theorem foundIn_files {leadsToFolder : List String → Bool} {entries : List (String × Entry)}
    (h : ∀ entry ∈ entries, (∃ content, entry.2 = .file content) ∨
      ∃ target, entry.2 = .link target ∧ leadsToFolder [entry.1] = false) :
    Discovery.foundIn ["converted"] leadsToFolder [] entries =
      (Table.names entries).map fun n => ⟨n, false, [[n]]⟩ := by
  induction entries with
  | nil => exact Discovery.foundIn.eq_1 ..
  | cons entry rest ih =>
      obtain ⟨hentry, hrest⟩ := List.forall_mem_cons.mp h
      obtain ⟨name, e⟩ := entry
      rcases hentry with ⟨content, rfl⟩ | ⟨target, rfl, hnot⟩
      · rw [Discovery.foundIn, ih hrest]
        rfl
      · rw [Discovery.foundIn, List.nil_append, hnot, ih hrest]
        rfl

/-- The files beside a skeleton are found in the order of their names. -/
theorem files_beside_skeleton {t : FileTree} {utilities entries : List (String × Entry)}
    (hdemo : t.LeadsTo ["demo"] ["demo"] (.folder (("converted", .skeleton utilities) :: entries)))
    (hfiles : ∀ entry ∈ entries, (∃ content, entry.2 = .file content) ∨
      ∃ target, entry.2 = .link target ∧ t.isFolder ["demo", entry.1] = false)
    (hsorted : (Table.names entries).Pairwise fun a b => a ≤ b) :
    Discovery.files ["converted"] ["demo"] t = (Table.names entries).map fun n => [n] := by
  obtain ⟨k, hspot⟩ := hdemo
  unfold Discovery.files
  rw [hspot]
  show Discovery.filesBelow _ _ _ (Entry.folder _) = _
  rw [Discovery.filesBelow, Entry.skeleton, Discovery.foundIn, if_pos (by decide),
    foundIn_files hfiles]
  unfold Discovery.inOrder
  rw [List.mergeSort_of_pairwise (by simpa [List.pairwise_map] using hsorted)]
  dsimp only
  rw [List.filter_eq_self.mpr (by simp), List.filter_eq_nil_iff.mpr (by simp), List.flatMap_nil,
    List.append_nil, List.flatMap_map]
  exact List.map_eq_flatMap.symm

namespace Converter

/-- The converter of the small project, which may ask a service. -/
def smallWith (useAi : Bool) (service : Service σ) : Converter σ :=
  .ofService { Settings.small with useAi } parseSource service

variable {names : List String} {utilities : List (String × Entry)} {useAi : Bool}
  {service : Service σ} {w : Workshop σ}

/-- The sources beside a skeleton. -/
theorem sources_beside_skeleton {entries : List (String × Entry)}
    (hdemo : w.tree.LeadsTo ["demo"] ["demo"]
      (.folder (("converted", .skeleton utilities) :: entries)))
    (hfiles : ∀ entry ∈ entries, (∃ content, entry.2 = .file content) ∨
      ∃ target, entry.2 = .link target ∧ w.tree.isFolder ["demo", entry.1] = false)
    (hsorted : (Table.names entries).Pairwise fun a b => a ≤ b)
    (hsuffix : ∀ name ∈ Table.names entries, Discovery.hasSuffix [".php"] name = true) :
    (smallWith useAi service).sources "demo" w = .ok ((Table.names entries).map fun n => [n]) := by
  unfold Converter.sources
  rw [show Workshop.folderOf "demo" = ["demo"] by decide]
  show (Except.ok ((Discovery.files ["converted"] ["demo"] w.tree).filter
    fun path => Discovery.hasSuffix [".php"] (path.getLastD ""))).mapError _ = _
  rw [files_beside_skeleton hdemo hfiles hsorted, List.filter_eq_self.mpr (by simpa using hsuffix)]
  rfl

theorem sources_small (htree : w.tree = .small names utilities)
    (hsorted : names.Pairwise fun a b => a ≤ b)
    (hsuffix : ∀ name ∈ names, Discovery.hasSuffix [".php"] name = true) :
    (smallWith useAi service).sources "demo" w = .ok (names.map fun n => [n]) := by
  obtain ⟨entries, hentries⟩ : ∃ entries : List (String × Entry),
      entries = names.map fun name => (name, .file ByteArray.empty) := ⟨_, rfl⟩
  have hnames : Table.names entries = names := by
    rw [hentries, Table.names, List.map_map]
    exact List.map_id names
  have hdemo : w.tree.LeadsTo ["demo"] ["demo"]
      (.folder (("converted", .skeleton utilities) :: entries)) := by
    rw [htree, hentries]
    exact leadsTo_small rfl (fun _ h => by cases h) (by decide) (by decide)
  rw [← hnames] at hsorted hsuffix ⊢
  refine sources_beside_skeleton hdemo (fun entry hentry => .inl ?_) hsorted hsuffix
  rw [hentries] at hentry
  obtain ⟨name, -, rfl⟩ := List.mem_map.mp hentry
  exact ⟨_, rfl⟩

theorem needFolder_small (htree : w.tree = .small names utilities) :
    needFolder "demo" w = .ok () := by
  have hleads : ∃ entries, w.tree.LeadsTo ["demo"] ["demo"] (.folder entries) :=
    ⟨_, htree ▸ leadsTo_small rfl (fun _ h => by cases h) (by decide) (by decide)⟩
  obtain ⟨entries, hleads⟩ := hleads
  rw [needFolder_eq_ok_iff, show Workshop.folderOf "demo" = ["demo"] by decide,
    hleads.leadsToFolder_eq]
  rfl

/-- A small project that has grown is ready for its conversion if it has sources. -/
theorem prepare_of_grown {t : FileTree} {files : List (List String)}
    (hgrown : (FileTree.small names utilities).Grown t) (htree : w.tree = t)
    (hsources : (smallWith useAi service).sources "demo" w = .ok files) (hne : files ≠ []) :
    ∃ w', (smallWith useAi service).prepare "demo" w =
        (.ok ⟨"demo", ["demo", "converted"], [], chunksOf 1 files⟩, w') ∧ w'.tree = t := by
  have hfolder : needFolder "demo" w = .ok () :=
    needFolder_grown (w := { w with tree := .small names utilities }) (needFolder_small rfl)
      (htree ▸ hgrown)
  obtain ⟨w', hprepare, hsame⟩ := prepare_of_stands hfolder rfl
    (htree ▸ (stands_small names utilities "demo").grown hgrown) hsources hne
  exact ⟨w', hprepare, hsame.trans htree⟩

/-- A small project with sources is ready for its conversion. -/
theorem prepare_small (htree : w.tree = .small names utilities)
    (hsorted : names.Pairwise fun a b => a ≤ b)
    (hsuffix : ∀ name ∈ names, Discovery.hasSuffix [".php"] name = true) (hne : names ≠ []) :
    ∃ w', (smallWith useAi service).prepare "demo" w =
        (.ok ⟨"demo", ["demo", "converted"], [], chunksOf 1 (names.map fun n => [n])⟩, w') ∧
      w'.tree = .small names utilities :=
  prepare_of_grown (.refl _) htree (sources_small htree hsorted hsuffix) (by simpa using hne)

end Converter

end PhpMigration
