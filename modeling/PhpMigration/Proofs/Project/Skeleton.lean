/-
Laying a skeleton.

Laying a skeleton only adds to what is there (`built_lay`), whether it comes to its end or not.
Where all its folders and files are already, it succeeds, keeps every file and changes nothing
(`lay_of_stands`).
-/
import PhpMigration.Project.Skeleton
import PhpMigration.Proofs.Project.FileTree

namespace PhpMigration

theorem FileTree.makeFolder_of_isFolder {t : FileTree} {path : List String}
    (h : t.isFolder path = true) : t.makeFolder path = .ok t := by
  unfold isFolder at h
  unfold makeFolder
  cases hspot : t.spot path with
  | found place e links =>
      rw [hspot] at h
      dsimp only at h ⊢
      rw [if_pos h]
      rfl
  | free place => simp [hspot] at h
  | problem problem => simp [hspot] at h

theorem FileTree.makeFolders_of_isFolder {t : FileTree} {path : List String}
    (h : t.isFolder path = true) : t.makeFolders path = (.ok (), t) := by
  rw [makeFolders, makeFolder_of_isFolder h]

namespace Skeleton

open FileTree

/-! ### One step -/

/-- In a folder that is there, the file is all that is written. -/
theorem writeFile_of_isFolder {path : List String} {t : FileTree}
    (h : t.isFolder path.dropLast = true) (content : String) :
    writeFile path content t = match t.write path (Text.Utf8.encode content) with
      | .ok t' => (.ok (), t')
      | .error fault => (.error fault, t) := by
  have hmade := FileTree.makeFolders_of_isFolder h
  unfold writeFile
  cases hwrite : t.write path (Text.Utf8.encode content) with
  | ok t' => simp only [hmade, hwrite]
  | error fault => simp only [hmade, hwrite]

/-- A file is written when the folders above it are made; if it is not, they are all that is made. -/
theorem writeFile_cases (path : List String) (content : String) (t : FileTree) :
    (∃ fault, writeFile path content t = (.error fault, (t.makeFolders path.dropLast).2)) ∨
    ∃ t₁ t₂, t.makeFolders path.dropLast = (.ok (), t₁) ∧
      t₁.write path (Text.Utf8.encode content) = .ok t₂ ∧
      writeFile path content t = (.ok (), t₂) := by
  unfold writeFile
  cases hmade : t.makeFolders path.dropLast with
  | mk result t₁ =>
      cases result with
      | error fault => exact .inl ⟨fault, rfl⟩
      | ok u =>
          dsimp only
          cases hwrite : t₁.write path (Text.Utf8.encode content) with
          | error fault => exact .inl ⟨fault, rfl⟩
          | ok t₂ => exact .inr ⟨t₁, t₂, rfl, hwrite, rfl⟩

/-- What becomes of the first of some files: it cannot be asked for or written, it is kept, or it is
written. -/
theorem writeFiles_cons (path : List String) (files : Table String) (name content : String)
    (report : Report) (t : FileTree) :
    (∃ fault t₁, writeFiles path ((name, content) :: files) report t = (.error fault, t₁) ∧
      (t₁ = t ∨ writeFile (path ++ Path.parts name) content t = (.error fault, t₁))) ∨
    (t.leadsToEntry (path ++ Path.parts name) = .ok true ∧
      writeFiles path ((name, content) :: files) report t =
        writeFiles path files { report with kept := report.kept ++ [name] } t) ∨
    ∃ t₁, t.leadsToEntry (path ++ Path.parts name) = .ok false ∧
      writeFile (path ++ Path.parts name) content t = (.ok (), t₁) ∧
      writeFiles path ((name, content) :: files) report t =
        writeFiles path files { report with written := report.written ++ [name] } t₁ := by
  rw [writeFiles]
  cases hthere : t.leadsToEntry (path ++ Path.parts name) with
  | error fault => exact .inl ⟨fault, t, rfl, .inl rfl⟩
  | ok there =>
      cases there with
      | true => exact .inr (.inl ⟨rfl, rfl⟩)
      | false =>
          dsimp only
          cases hwrite : writeFile (path ++ Path.parts name) content t with
          | mk result t₁ =>
              cases result with
              | error fault => exact .inl ⟨fault, t₁, rfl, .inr rfl⟩
              | ok u => exact .inr (.inr ⟨t₁, rfl, rfl, rfl⟩)

theorem makeFolders_cons_ok {path rest : List String} {name : String} {t t' : FileTree}
    (h : makeFolders path (name :: rest) t = (.ok (), t')) :
    ∃ t₁, t.makeFolders (path ++ [name]) = (.ok (), t₁) ∧ makeFolders path rest t₁ = (.ok (), t') := by
  unfold makeFolders at h
  cases hmade : t.makeFolders (path ++ [name]) with
  | mk result t₁ =>
      rw [hmade] at h
      cases result with
      | error fault => cases h
      | ok u => exact ⟨t₁, rfl, h⟩

theorem lay_ok {path : List String} {projectName : String} {report : Report} {t t' : FileTree}
    (h : lay path projectName t = (.ok report, t')) :
    ∃ t₁, makeFolders path folders t = (.ok (), t₁) ∧
      writeFiles path (Boilerplate.files projectName) {} t₁ = (.ok report, t') := by
  unfold lay at h
  cases hmade : makeFolders path folders t with
  | mk result t₁ =>
      rw [hmade] at h
      cases result with
      | error fault => cases h
      | ok u => exact ⟨t₁, rfl, h⟩

/-! ### What is kept by every step -/

section

variable {P : FileTree → Prop} {path : List String} {t : FileTree}

theorem makeFolders_keeps {names : List String}
    (hstep : ∀ name ∈ names, ∀ t, P t → P (t.makeFolders (path ++ [name])).2) (h : P t) :
    P (makeFolders path names t).2 := by
  induction names generalizing t with
  | nil => exact h
  | cons name rest ih =>
      obtain ⟨hname, hrest⟩ := List.forall_mem_cons.mp hstep
      have hfirst := hname t h
      unfold makeFolders
      cases hmade : t.makeFolders (path ++ [name]) with
      | mk result t₁ =>
          rw [hmade] at hfirst
          cases result with
          | error fault => exact hfirst
          | ok u => exact ih hrest hfirst

theorem writeFiles_keeps {files : Table String} (report : Report)
    (hstep : ∀ name content t, P t → P (writeFile (path ++ Path.parts name) content t).2)
    (h : P t) : P (writeFiles path files report t).2 := by
  induction files generalizing report t with
  | nil => exact h
  | cons entry rest ih =>
      obtain ⟨name, content⟩ := entry
      have hfirst := hstep name content t h
      rcases writeFiles_cons path rest name content report t with
        ⟨fault, t₁, heq, hsame⟩ | ⟨-, heq⟩ | ⟨t₁, -, hwrite, heq⟩
      · rw [heq]
        rcases hsame with rfl | hwrite
        · exact h
        · rwa [hwrite] at hfirst
      · rw [heq]
        exact ih _ h
      · rw [heq]
        rw [hwrite] at hfirst
        exact ih _ hfirst

/-- What is kept by every folder that is made and every file that is written is kept by the whole
skeleton. -/
theorem lay_keeps {projectName : String}
    (hfolder : ∀ name ∈ folders, ∀ t, P t → P (t.makeFolders (path ++ [name])).2)
    (hfile : ∀ name content t, P t → P (writeFile (path ++ Path.parts name) content t).2)
    (h : P t) : P (lay path projectName t).2 := by
  have hfolders := makeFolders_keeps hfolder h
  unfold lay
  cases hmade : makeFolders path folders t with
  | mk result t₁ =>
      rw [hmade] at hfolders
      cases result with
      | error fault => exact hfolders
      | ok u => exact writeFiles_keeps {} hfile hfolders

end

/-! ### What is built -/

/-- A file that is written into a folder made for it: nothing but that file is written, and if it
is, the path leads to it. -/
theorem built_writeFile (path : List String) (content : String) (t : FileTree) :
    t.Built (fun place => (writeFile path content t).2.LeadsTo path place
        (.file (Text.Utf8.encode content))) (writeFile path content t).2 ∧
      ((writeFile path content t).1 = .ok () → ∃ place,
        (writeFile path content t).2.LeadsTo path place (.file (Text.Utf8.encode content))) := by
  have hfolders := FileTree.built_makeFolders t path.dropLast
  rcases writeFile_cases path content t with ⟨fault, heq⟩ | ⟨t₁, t₂, hmade, hwrite, heq⟩
  · rw [heq]
    exact ⟨hfolders.mono fun _ hno => hno.elim, fun h => by cases h⟩
  · rw [heq]
    rw [hmade] at hfolders
    obtain ⟨place, rfl, htakes, hleads⟩ := write_ok hwrite
    exact ⟨.file (hfolders.mono fun _ hno => hno.elim) hleads htakes, fun _ => ⟨place, hleads⟩⟩

theorem built_makeFolders (path names : List String) (t : FileTree) :
    t.Built (fun _ => False) (makeFolders path names t).2 :=
  makeFolders_keeps (fun _ _ t₁ hbuilt => hbuilt.trans (FileTree.built_makeFolders t₁ _)) .same

theorem built_writeFiles (path : List String) (files : Table String) (report : Report)
    (t : FileTree) : t.Built (fun _ => True) (writeFiles path files report t).2 :=
  writeFiles_keeps report (fun _ content t₁ hbuilt =>
    hbuilt.trans ((built_writeFile _ content t₁).1.mono fun _ _ => trivial)) .same

/-- Laying a skeleton only adds. -/
theorem built_lay (path : List String) (projectName : String) (t : FileTree) :
    t.Built (fun _ => True) (lay path projectName t).2 :=
  lay_keeps
    (fun _ _ t₁ hbuilt =>
      hbuilt.trans ((FileTree.built_makeFolders t₁ _).mono fun _ hno => hno.elim))
    (fun _ content t₁ hbuilt =>
      hbuilt.trans ((built_writeFile _ content t₁).1.mono fun _ _ => trivial)) .same

/-! ### A skeleton that stands -/

/-- All folders and files of a skeleton are there. -/
structure Stands (path : List String) (projectName : String) (t : FileTree) : Prop where
  folders : ∀ name ∈ folders, t.isFolder (path ++ [name]) = true
  files : ∀ name ∈ (Boilerplate.files projectName).names,
    t.leadsToEntry (path ++ Path.parts name) = .ok true

theorem Stands.grown {path : List String} {projectName : String} {t t' : FileTree}
    (h : Stands path projectName t) (hgrown : t.Grown t') : Stands path projectName t' := by
  refine ⟨fun name hname => hgrown.isFolder (h.folders name hname), fun name hname => ?_⟩
  obtain ⟨place, e, hleads⟩ := leadsToEntry_eq_ok_true_iff.mp (h.files name hname)
  obtain ⟨e', hleads', -⟩ := hgrown.leadsTo hleads
  exact leadsToEntry_eq_ok_true_iff.mpr ⟨place, e', hleads'⟩

theorem makeFolders_of_isFolder {path : List String} {t : FileTree} {names : List String}
    (h : ∀ name ∈ names, t.isFolder (path ++ [name]) = true) :
    makeFolders path names t = (.ok (), t) := by
  induction names with
  | nil => rfl
  | cons name rest ih =>
      rw [makeFolders, FileTree.makeFolders_of_isFolder (h name List.mem_cons_self)]
      exact ih fun other hother => h other (List.mem_cons_of_mem name hother)

theorem writeFiles_of_leadsToEntry {path : List String} {t : FileTree} {files : Table String}
    (h : ∀ name ∈ files.names, t.leadsToEntry (path ++ Path.parts name) = .ok true)
    (report : Report) :
    writeFiles path files report t = (.ok { report with kept := report.kept ++ files.names }, t) := by
  induction files generalizing report with
  | nil => simp [writeFiles, Table.names]
  | cons entry rest ih =>
      obtain ⟨name, content⟩ := entry
      have hname := h name List.mem_cons_self
      have hrest : ∀ other ∈ Table.names rest,
          t.leadsToEntry (path ++ Path.parts other) = .ok true :=
        fun other hother => h other (List.mem_cons_of_mem name hother)
      rw [writeFiles, hname]
      dsimp only
      rw [ih hrest, List.append_assoc]
      rfl

/-- **A skeleton that stands is left as it is.** -/
theorem lay_of_stands {path : List String} {projectName : String} {t : FileTree}
    (h : Stands path projectName t) : lay path projectName t =
      (.ok { kept := (Boilerplate.files projectName).names }, t) := by
  unfold lay
  rw [makeFolders_of_isFolder h.folders]
  exact writeFiles_of_leadsToEntry h.files {}

end Skeleton

end PhpMigration
