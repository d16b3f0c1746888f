/-
The files of a sound tree are found once each.

In a sound tree the names in a folder are all different and none of them holds a slash
(`Entry.IsSound`).  So the files that are found below a folder are all different, and as they are
made of such names, so are the texts of their paths (`Path.join_injective`), by which records,
mappings and claims tell them apart.
-/
import Mathlib.Data.List.Nodup
import PhpMigration.Project.Discovery
import PhpMigration.Proofs.Project.Sound

namespace PhpMigration

namespace Discovery

/-! ### What is found -/

/-- The files of an entry are different, and are reached through it by names. -/
structure Found.IsBelow (path : List String) (f : Found) : Prop where
  name : Path.IsName f.name
  nodup : f.files.Nodup
  below : ∀ file ∈ f.files, ∃ rest, file = path ++ f.name :: rest ∧ ∀ n ∈ rest, Path.IsName n

/-- The order of the entries does not matter for what is found. -/
theorem inOrder_perm (found : List Found) : (inOrder found).Perm (found.flatMap Found.files) := by
  unfold inOrder
  dsimp only
  obtain ⟨sorted, hsorted⟩ : ∃ sorted, sorted = found.mergeSort fun a b =>
    decide (a.name ≤ b.name) := ⟨_, rfl⟩
  rw [← hsorted, ← List.flatMap_append]
  refine List.Perm.flatMap_right _ ?_
  have hsplit : (sorted.filter (fun f => !f.isFolder) ++ sorted.filter Found.isFolder).Perm
      sorted := by
    have hparts := List.filter_append_perm (fun f : Found => !f.isFolder) sorted
    simpa using hparts
  refine hsplit.trans ?_
  rw [hsorted]
  exact List.mergeSort_perm _ _

theorem inOrder_below {path : List String} {found : List Found}
    (hnames : (found.map Found.name).Nodup) (h : ∀ f ∈ found, f.IsBelow path) :
    (inOrder found).Nodup ∧ ∀ file ∈ inOrder found, ∃ name rest, file = path ++ name :: rest ∧
      ∀ n ∈ name :: rest, Path.IsName n := by
  refine ⟨?_, ?_⟩
  · rw [(inOrder_perm found).nodup_iff]
    induction found with
    | nil => exact List.nodup_nil
    | cons f more ih =>
        have hf := h f List.mem_cons_self
        obtain ⟨hfresh, hmore⟩ := List.nodup_cons.mp hnames
        rw [List.flatMap_cons]
        refine List.nodup_append.mpr
          ⟨hf.nodup, ih hmore fun g hg => h g (List.mem_cons_of_mem _ hg), ?_⟩
        rintro a ha b hb rfl
        obtain ⟨g, hg, hb⟩ := List.mem_flatMap.mp hb
        -- the file would begin with the names of two different entries
        obtain ⟨rest, rfl, -⟩ := hf.below a ha
        obtain ⟨rest', heq, -⟩ := (h g (List.mem_cons_of_mem _ hg)).below _ hb
        have hname := (List.cons_eq_cons.mp (List.append_cancel_left heq)).1
        exact hfresh (hname ▸ List.mem_map_of_mem hg)
  · intro file hfile
    obtain ⟨f, hf, hfile⟩ := List.mem_flatMap.mp ((inOrder_perm found).subset hfile)
    obtain ⟨rest, rfl, hrest⟩ := (h f hf).below file hfile
    refine ⟨f.name, rest, rfl, ?_⟩
    intro n hn
    rcases List.mem_cons.mp hn with rfl | hn
    · exact (h f hf).name
    · exact hrest n hn

variable (excluded : List String) (leadsToFolder : List String → Bool)

theorem foundIn_below (path : List String) {entries : List (String × Entry)}
    (hnames : (Table.names entries).Nodup) (h : EachSound entries) :
    ((foundIn excluded leadsToFolder path entries).map Found.name).Sublist (Table.names entries) ∧
      ∀ f ∈ foundIn excluded leadsToFolder path entries, f.IsBelow path := by
  have hfile : ∀ {path : List String} {name : String}, Path.IsName name →
      Found.IsBelow path ⟨name, false, [path ++ [name]]⟩ := by
    intro path name hname
    exact ⟨hname, by simp, fun file hfile => ⟨[], List.mem_singleton.mp hfile, by simp⟩⟩
  fun_induction foundIn excluded leadsToFolder path entries with
  | case1 path => simp
  | case2 path name inner rest more hexcluded ih =>
      rw [EachSound] at h
      obtain ⟨hsub, hall⟩ := ih (List.nodup_cons.mp hnames).2 h.2.2
      exact ⟨hsub.cons _, hall⟩
  | case3 path name inner rest more hexcluded ih ihinner =>
      rw [EachSound, Entry.IsSound] at h
      obtain ⟨hname, ⟨hnodup, hinner⟩, hrest⟩ := h
      obtain ⟨hsub, hall⟩ := ih (List.nodup_cons.mp hnames).2 hrest
      obtain ⟨hsub', hall'⟩ := ihinner hnodup hinner
      obtain ⟨hfiles, hbelow⟩ := inOrder_below (hnodup.sublist hsub') hall'
      refine ⟨hsub.cons_cons _, List.forall_mem_cons.mpr ⟨⟨hname, hfiles, ?_⟩, hall⟩⟩
      intro file hfile
      obtain ⟨n, rest', rfl, hrest'⟩ := hbelow file hfile
      exact ⟨n :: rest', by rw [List.append_assoc]; rfl, hrest'⟩
  | case4 path name content rest ih =>
      rw [EachSound] at h
      obtain ⟨hsub, hall⟩ := ih (List.nodup_cons.mp hnames).2 h.2.2
      exact ⟨hsub.cons_cons _, List.forall_mem_cons.mpr ⟨hfile h.1, hall⟩⟩
  | case5 path name target rest more hleads ih =>
      rw [EachSound] at h
      obtain ⟨hsub, hall⟩ := ih (List.nodup_cons.mp hnames).2 h.2.2
      exact ⟨hsub.cons _, hall⟩
  | case6 path name target rest more hleads ih =>
      rw [EachSound] at h
      obtain ⟨hsub, hall⟩ := ih (List.nodup_cons.mp hnames).2 h.2.2
      exact ⟨hsub.cons_cons _, List.forall_mem_cons.mpr ⟨hfile h.1, hall⟩⟩

/-- The files below a folder of a sound tree. -/
theorem files_below (folder : List String) {t : FileTree} (h : t.top.IsSound) :
    (files excluded folder t).Nodup ∧
      ∀ file ∈ files excluded folder t, file ≠ [] ∧ ∀ n ∈ file, Path.IsName n := by
  unfold files
  split
  · rename_i place e links hspot
    have hleads : t.LeadsTo folder place e := ⟨links, hspot⟩
    have hsound := (h.at? (FileTree.leadsTo_iff.mp hleads).2.2).1
    cases e with
    | file content => simp [filesBelow]
    | link target => simp [filesBelow]
    | folder entries =>
        rw [Entry.IsSound] at hsound
        obtain ⟨hsub, hall⟩ := foundIn_below excluded (fun path => t.isFolder (folder ++ path))
          [] hsound.1 hsound.2
        obtain ⟨hnodup, hbelow⟩ := inOrder_below (hsound.1.sublist hsub) hall
        rw [filesBelow]
        refine ⟨hnodup, ?_⟩
        intro file hfile
        obtain ⟨name, rest, rfl, hrest⟩ := hbelow file hfile
        exact ⟨List.cons_ne_nil _ _, hrest⟩
  · simp

/-- **The sources of a project are different, also by the texts of their paths.** -/
theorem nodup_sources {s : Settings} {folder : List String} {t : FileTree}
    {found : List (List String)} (h : t.top.IsSound) (hs : sources s folder t = .ok found) :
    (found.map Path.join).Nodup := by
  unfold sources at hs
  cases hsuffixes : s.suffixes with
  | error fault => rw [hsuffixes] at hs; cases hs
  | ok suffixes =>
      cases hskipped : s.skipped with
      | error fault => rw [hsuffixes, hskipped] at hs; cases hs
      | ok skipped =>
          rw [hsuffixes, hskipped] at hs
          cases hs
          obtain ⟨hnodup, hnames⟩ := files_below skipped folder h
          refine List.Nodup.map_on ?_ (hnodup.filter _)
          intro file hfile file' hfile' heq
          obtain ⟨hne, hname⟩ := hnames file (List.mem_of_mem_filter hfile)
          obtain ⟨hne', hname'⟩ := hnames file' (List.mem_of_mem_filter hfile')
          exact Path.join_injective hne hne' hname hname' heq

end Discovery

end PhpMigration
