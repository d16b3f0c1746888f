/-
Writing into an output without links.

When a skeleton has been laid, the folders for the roles are there.  Then a converted file is put at
the place that its path names, or it is refused (`writeFile_eq`), for a reason that does not depend on
what else has been converted: the path or its last name is too long, or it is no path at all, or a
folder is in the way (`refusal?_of_grown`).  No conversion makes a folder then
(`folder_of_at?_write`), so a path that is refused once is refused ever after.

Nothing else is written.  A source reads the same as long as the way to it does not end where a file
is converted to (`readsApart_of_leadsTo`).
-/
import PhpMigration.Proofs.Project.Strategy

namespace PhpMigration

/-! ### Places after something was put there -/

namespace Entry

variable {top : Entry} {place other : List String} {content : ByteArray}

/-- A file that is there after something was put at a place was there before, unless it is at that
place. -/
theorem at?_file_of_put {new : Entry}
    (hnew : ∀ name rest content, new.at? (name :: rest) ≠ some (.file content))
    (h : (put new place top).at? other = some (.file content)) (hne : other ≠ place) :
    top.at? other = some (.file content) := by
  induction place generalizing top other with
  | nil =>
      cases other with
      | nil => exact absurd rfl hne
      | cons name rest => exact absurd h (hnew name rest content)
  | cons name rest ih =>
      cases top with
      | file content => exact h
      | link target => exact h
      | folder entries =>
          cases other with
          | nil => cases h
          | cons n other =>
              rw [put, at?, Table.find?_set] at h
              rw [at?]
              by_cases hn : n = name
              · subst hn
                rw [if_pos rfl] at h
                have hinner := ih h fun heq => hne (by rw [heq])
                cases hfind : Table.find? entries n with
                | some inner =>
                    rw [hfind] at hinner
                    exact hinner
                | none =>
                    rw [hfind] at hinner
                    cases other <;> cases hinner
              · rwa [if_neg hn] at h

/-- A folder that is there after a file was put into a folder was there before. -/
theorem folder_of_at?_put {front : List String} {name : String}
    {entries entries' : List (String × Entry)} (hfront : top.at? front = some (.folder entries))
    (h : (put (.file content) (front ++ [name]) top).at? other = some (.folder entries')) :
    ∃ entries'', top.at? other = some (.folder entries'') := by
  induction front generalizing top other with
  | nil =>
      obtain rfl : top = _ := Option.some.inj hfront
      cases other with
      | nil => exact ⟨entries, rfl⟩
      | cons n other =>
          rw [List.nil_append, put, at?, Table.find?_set] at h
          rw [at?]
          by_cases hn : n = name
          · rw [if_pos hn] at h
            cases other <;> cases h
          · rw [if_neg hn] at h
            exact ⟨entries', h⟩
  | cons n front ih =>
      cases top with
      | file content => cases hfront
      | link target => cases hfront
      | folder inner =>
          cases other with
          | nil => exact ⟨inner, rfl⟩
          | cons n' other =>
              rw [List.cons_append, put, at?, Table.find?_set] at h
              rw [at?]
              by_cases hn : n' = n
              · subst hn
                rw [at?] at hfront
                obtain ⟨next, hnext, hrest⟩ := Option.bind_eq_some_iff.mp hfront
                rw [if_pos rfl, hnext] at h
                rw [hnext]
                exact ih hrest h
              · rw [if_neg hn] at h
                exact ⟨entries', h⟩

end Entry

namespace FileTree

variable {t t' : FileTree} {path place output : List String} {e : Entry} {content : ByteArray}

/-- A file that was not written was there before. -/
theorem Built.at?_file_of {written : List String → Prop} (h : t.Built written t')
    (hfile : t'.top.at? place = some (.file content)) (hplace : ¬ written place) :
    t.top.at? place = some (.file content) := by
  induction h with
  | same => exact hfile
  | folder h htakes ih =>
      refine ih (Entry.at?_file_of_put (fun _ _ _ hbelow => by cases hbelow) hfile ?_)
      rintro rfl
      rw [FileTree.put, Entry.at?_put_self htakes.1] at hfile
      cases hfile
  | file h hwritten htakes ih =>
      refine ih (Entry.at?_file_of_put (fun _ _ _ hbelow => by cases hbelow) hfile ?_)
      rintro rfl
      exact hplace hwritten

/-- Writing a file makes no folder. -/
theorem folder_of_at?_write (h : t.write path content = .ok t')
    {entries : List (String × Entry)} (hfolder : t'.top.at? place = some (.folder entries)) :
    ∃ entries', t.top.at? place = some (.folder entries') := by
  cases wrote_of_write h with
  | new hfree =>
      obtain ⟨-, front, name, inner, k, rfl, -, hfront, -⟩ := ends_of_free hfree
      exact Entry.folder_of_at?_put hfront hfolder
  | found hfound =>
      rename_i there old k
      have hold : t.top.at? there = some (.file old) :=
        (leadsTo_iff.mp (show t.LeadsTo path there (.file old) from ⟨k, hfound⟩)).2.2
      rcases List.eq_nil_or_concat there with rfl | ⟨front, name, rfl⟩
      · cases place <;> cases hfolder
      · rw [List.concat_eq_append] at hold hfolder
        obtain ⟨inner, hfront⟩ := Entry.folder_of_at? hold
        exact Entry.folder_of_at?_put hfront hfolder

/-! ### What is refused -/

/-- Why a file cannot be written at a place in a folder that is there. -/
def refusal? (t : FileTree) (path place : List String) : Option StorageProblem :=
  if path.any fun name => name.toList.contains '\x00' then some .unnameable
  else if maxPathBytes < (t.shown path).utf8ByteSize then some .tooLong
  else if maxNameBytes < (path.getLastD "").utf8ByteSize then some .tooLong
  else if (t.top.at? place).any Entry.isFolder then some .isFolder
  else none

/-- **A file in a folder below an output without links is put at the place that its path names, or
refused.** -/
theorem write_of_hasNoLink (hleads : t.LeadsTo output place e) (hlinks : e.HasNoLink)
    {folder name : String} (hfolder : t.isFolder (output ++ [folder]) = true)
    (hdots : ".." ≠ folder) (hdots' : name ≠ "..") (content : ByteArray) :
    t.write (output ++ [folder, name]) content =
      match t.refusal? (output ++ [folder, name]) (place ++ [folder, name]) with
      | some problem => .error (t.fault problem (output ++ [folder, name]))
      | none => .ok (t.put (place ++ [folder, name]) (.file content)) := by
  obtain ⟨there, entries, hinner⟩ := isFolder_iff.mp hfolder
  obtain rfl := hleads.place_of_hasNoLink hlinks (by simpa using hdots) hinner
  obtain ⟨-, ⟨k, hwalks⟩, hat⟩ := leadsTo_iff.mp hinner
  have hpath : output ++ [folder, name] = output ++ [folder] ++ [name] := by simp
  have hplace : place ++ [folder, name] = place ++ [folder] ++ [name] := by simp
  have hnolink : ∀ target, Table.find? entries name ≠ some (.link target) := by
    intro target hlink
    refine hlinks [folder, name] target ?_
    rw [← hlink, ← Entry.at?_snoc hat, ← hplace, Entry.at?_append, (leadsTo_iff.mp hleads).2.2]
    rfl
  unfold write refusal?
  by_cases hnull : ((output ++ [folder, name]).any fun n => n.toList.contains '\x00') = true
  · rw [if_pos hnull]
    unfold spot
    rw [if_pos hnull]
    rfl
  rw [if_neg hnull]
  by_cases hlong : maxPathBytes < (t.shown (output ++ [folder, name])).utf8ByteSize
  · rw [if_pos hlong]
    unfold spot
    rw [if_neg hnull, if_pos hlong]
    rfl
  rw [if_neg hlong, spot_of_isNameable ⟨Bool.eq_false_iff.mpr hnull, hlong⟩]
  have hlast : (output ++ [folder, name]).getLastD "" = name := by
    rw [hpath, List.getLastD_concat]
  have hwalk : t.top.walk maxLinks [] (output ++ [folder, name]) =
      t.top.walk k (place ++ [folder]) [name] := by
    rw [hpath]
    exact (hwalks.append [name]).walk_eq
  rw [hlast, hwalk]
  by_cases hsize : maxNameBytes < name.utf8ByteSize
  · rw [if_pos hsize, Entry.walk_long hat hdots' hsize]
    rfl
  · rw [if_neg hsize, Entry.walk_name hat hdots' hsize, hplace, Entry.at?_snoc hat]
    cases hfind : Table.find? entries name with
    | none => rfl
    | some inner =>
        have hthere : t.top.at? (place ++ [folder] ++ [name]) = some inner := by
          rw [Entry.at?_snoc hat, hfind]
        cases inner with
        | link target => exact absurd hfind (hnolink target)
        | file old =>
            rw [Entry.walk_nil hthere]
            rfl
        | folder inner =>
            rw [Entry.walk_nil hthere]
            rfl

/-- What is refused is refused in all trees that grow out of the tree, as long as no folder is
made. -/
theorem refusal?_of_grown (hgrown : t.Grown t')
    (hfolders : ∀ place entries, t'.top.at? place = some (.folder entries) →
      ∃ entries', t.top.at? place = some (.folder entries')) (path place : List String) :
    t'.refusal? path place = t.refusal? path place := by
  have hshown : t'.shown path = t.shown path := by
    unfold shown
    rw [hgrown.name]
  have hfolder : (t'.top.at? place).any Entry.isFolder = (t.top.at? place).any Entry.isFolder := by
    cases hat : t.top.at? place with
    | some e =>
        obtain ⟨e', he', halike⟩ := hgrown.top place e hat
        rw [he']
        cases e with
        | link target =>
            obtain rfl : e' = _ := halike
            rfl
        | file content =>
            obtain ⟨content', rfl⟩ := halike
            rfl
        | folder entries =>
            obtain ⟨entries', rfl⟩ := halike
            rfl
    | none =>
        cases hat' : t'.top.at? place with
        | none => rfl
        | some e' =>
            cases e' with
            | link target => rfl
            | file content => rfl
            | folder entries =>
                obtain ⟨entries', hentries⟩ := hfolders place entries hat'
                rw [hat] at hentries
                cases hentries
  unfold refusal?
  rw [hshown, hfolder]

/-! ### An output that is laid out -/

/-- The output lies at a place, holds no link, and has the folders for the roles. -/
structure IsLaidOut (t : FileTree) (output place : List String) : Prop where
  plain : ∃ e, t.LeadsTo output place e ∧ e.HasNoLink
  folders : ∀ role ∈ Role.priority, t.isFolder (output ++ [role.folder]) = true

end FileTree

/-- A path in a folder for a role that a file can be given. -/
def IsTarget (path : String) : Prop :=
  ∃ role ∈ Role.priority, ∃ stem, path = role.folder ++ "/" ++ stem ++ targetSuffix ∧
    Path.IsName stem

theorem isTarget_ofFile (fileName content : String) :
    IsTarget (Mapping.ofFile fileName content).target := by
  have hmem := Mapping.role_ofFile_mem_priority fileName content
  unfold Mapping.ofFile Role.outputPath at *
  dsimp only at *
  exact ⟨_, hmem, _, rfl, Role.isName_rename _ (Path.isName_stem fileName)⟩

namespace FileTree.IsLaidOut

variable {t : FileTree} {output place : List String} {path : String}

/-- The folder of a target is there. -/
theorem isFolder_dropLast (h : t.IsLaidOut output place) (hpath : IsTarget path) :
    t.isFolder (output ++ Path.parts path).dropLast = true := by
  obtain ⟨role, hrole, stem, hpath, hstem⟩ := hpath
  rw [hpath, IsOutputPath.parts_eq role hstem, show output ++ [role.folder, stem ++ targetSuffix] =
    output ++ [role.folder] ++ [stem ++ targetSuffix] by simp, List.dropLast_concat]
  exact h.folders role hrole

/-- **A converted file is put at the place that its path names, or refused.** -/
theorem writeFile_eq (h : t.IsLaidOut output place) (hpath : IsTarget path) (code : String) :
    Skeleton.writeFile (output ++ Path.parts path) code t =
      match t.refusal? (output ++ Path.parts path) (place ++ Path.parts path) with
      | some problem => (.error (t.fault problem (output ++ Path.parts path)), t)
      | none => (.ok (), t.put (place ++ Path.parts path) (.file (Text.Utf8.encode code))) := by
  have hfolder := h.isFolder_dropLast hpath
  obtain ⟨role, hrole, stem, hpath, hstem⟩ := hpath
  obtain ⟨e, hleads, hlinks⟩ := h.plain
  have hname : stem ++ targetSuffix ≠ ".." := by
    intro heq
    have hlength := congrArg String.length heq
    rw [String.length_append] at hlength
    exact absurd (hlength ▸ Nat.le_add_left 3 stem.length) (by decide)
  have hwrite := FileTree.write_of_hasNoLink hleads hlinks (h.folders role hrole)
    (by cases role <;> decide) hname (Text.Utf8.encode code)
  rw [Skeleton.writeFile_of_isFolder hfolder, hpath, IsOutputPath.parts_eq role hstem, hwrite]
  cases t.refusal? (output ++ [role.folder, stem ++ targetSuffix])
    (place ++ [role.folder, stem ++ targetSuffix]) <;> rfl

theorem built {t' : FileTree} {written : List String → Prop} (h : t.IsLaidOut output place)
    (hbuilt : t.Built written t') : t'.IsLaidOut output place := by
  obtain ⟨e, hleads, hlinks⟩ := h.plain
  exact ⟨hbuilt.leadsTo_hasNoLink hleads hlinks,
    fun role hrole => hbuilt.grown.isFolder (h.folders role hrole)⟩

/-- No other file is written. -/
theorem built_writeFile (h : t.IsLaidOut output place) (hpath : IsTarget path) (code : String) :
    t.Built (· = place ++ Path.parts path)
      (Skeleton.writeFile (output ++ Path.parts path) code t).2 := by
  have hbuilt := (Skeleton.built_writeFile (output ++ Path.parts path) code t).1
  refine hbuilt.mono fun other hleads => ?_
  obtain ⟨e, hfolder, hlinks⟩ := (h.built hbuilt).plain
  obtain ⟨role, hrole, stem, hstem⟩ := hpath
  exact hfolder.place_of_hasNoLink hlinks (IsOutputPath.dots_not_mem_parts ⟨role, stem, hstem⟩) hleads

/-- No folder is made. -/
theorem folder_of_writeFile (h : t.IsLaidOut output place) (hpath : IsTarget path) (code : String)
    {other : List String} {entries : List (String × Entry)}
    (hfolder : (Skeleton.writeFile (output ++ Path.parts path) code t).2.top.at? other =
      some (.folder entries)) : ∃ entries', t.top.at? other = some (.folder entries') := by
  rw [Skeleton.writeFile_of_isFolder (h.isFolder_dropLast hpath)] at hfolder
  cases hwrite : t.write (output ++ Path.parts path) (Text.Utf8.encode code) with
  | error fault =>
      rw [hwrite] at hfolder
      exact ⟨entries, hfolder⟩
  | ok t' =>
      rw [hwrite] at hfolder
      exact FileTree.folder_of_at?_write hwrite hfolder

end FileTree.IsLaidOut

/-! ### What a skeleton lays out -/

theorem FileTree.isFolder_of_makeFolder {t t' : FileTree} {path : List String}
    (h : t.makeFolder path = .ok t') : t'.isFolder path = true := by
  cases made_of_makeFolder h with
  | there hfolder => exact hfolder
  | new hfree =>
      exact (leadsTo_put_of_free hfree (fun _ hlink => by cases hlink)
        (takes_of_free _ hfree)).isFolder_eq

/-- A folder that could be made is there. -/
theorem FileTree.isFolder_of_makeFolders {t t' : FileTree} {path : List String}
    (h : t.makeFolders path = (.ok (), t')) : t'.isFolder path = true := by
  rcases makeFolders_ok h with hmade | ⟨fault, t₁, -, -, -, hmade⟩
  · exact isFolder_of_makeFolder hmade
  · exact isFolder_of_makeFolder hmade

theorem Skeleton.isFolder_of_makeFolders {t t' : FileTree} {path names : List String}
    (h : makeFolders path names t = (.ok (), t')) :
    ∀ name ∈ names, t'.isFolder (path ++ [name]) = true := by
  induction names generalizing t with
  | nil => simp
  | cons name rest ih =>
      obtain ⟨t₁, hmade, hrest⟩ := makeFolders_cons_ok h
      have hgrown := (built_makeFolders path rest t₁).grown
      rw [hrest] at hgrown
      refine List.forall_mem_cons.mpr ⟨?_, ih hrest⟩
      exact hgrown.isFolder (FileTree.isFolder_of_makeFolders hmade)

/-- When a skeleton has been laid its folders are there. -/
theorem Skeleton.isFolder_of_lay {t t' : FileTree} {path : List String} {projectName : String}
    {report : Report} (h : lay path projectName t = (.ok report, t')) :
    ∀ name ∈ folders, t'.isFolder (path ++ [name]) = true := by
  obtain ⟨t₁, hmade, hwrite⟩ := lay_ok h
  have hgrown := (built_writeFiles path (Boilerplate.files projectName) {} t₁).grown
  rw [hwrite] at hgrown
  exact fun name hname => hgrown.isFolder (isFolder_of_makeFolders hmade name hname)

section

variable {σ : Type}

/-- What is ready to make its moves has its skeleton laid. -/
theorem Converter.exists_lay_of_prepare {c : Converter σ} {project : String} {w₁ w : Workshop σ}
    {r : Run} (h : c.prepare project w₁ = (.ok r, w)) :
    ∃ report t, Skeleton.lay r.output project t = (.ok report, w.tree) := by
  cases prepared_of_prepare h with
  | ready hfolder hlay hsources =>
      unfold laySkeleton at hlay
      split at hlay
      · cases hlay
      · split at hlay
        · cases hlay
        · rename_i report t hreport
          cases hlay
          refine ⟨report, _, hreport.trans ?_⟩
          unfold Workshop.update
          rw [Workshop.enter_tree]
          rfl

/-- What is ready to make its moves has its output laid out. -/
theorem Converter.isLaidOut_of_prepare {c : Converter σ} {project : String} {w₁ w : Workshop σ}
    {r : Run} (h : c.prepare project w₁ = (.ok r, w)) {place : List String} {e : Entry}
    (hleads : w.tree.LeadsTo r.output place e) (hlinks : e.HasNoLink) :
    w.tree.IsLaidOut r.output place := by
  refine ⟨⟨e, hleads, hlinks⟩, fun role hrole => ?_⟩
  have hmem : role.folder ∈ Skeleton.folders := by
    revert hrole
    cases role <;> decide
  obtain ⟨report, t, hlay⟩ := exists_lay_of_prepare h
  exact Skeleton.isFolder_of_lay hlay _ hmem

end

/-! ### What is apart from the output -/

/-- A path reads the same, whatever becomes of the files at some places. -/
def FileTree.ReadsApart (t : FileTree) (path : List String) (written : List String → Prop) : Prop :=
  ∀ t' : FileTree, t.Grown t' → (∀ other content, ¬ written other →
    (t'.top.at? other = some (.file content) ↔ t.top.at? other = some (.file content))) →
    t'.read path = t.read path

/-- A file that is at none of the places reads the same. -/
theorem FileTree.readsApart_of_leadsTo {t : FileTree} {path there : List String}
    {written : List String → Prop} {content : ByteArray} (h : t.LeadsTo path there (.file content))
    (hapart : ¬ written there) : t.ReadsApart path written := by
  intro t' hgrown hfiles
  obtain ⟨e', hleads', -⟩ := hgrown.leadsTo h
  have hsame := (hfiles there content hapart).mpr (leadsTo_iff.mp h).2.2
  rw [(leadsTo_iff.mp hleads').2.2] at hsame
  cases hsame
  rw [h.read_eq, hleads'.read_eq]

end PhpMigration
