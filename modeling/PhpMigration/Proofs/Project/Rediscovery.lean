/-
Files that are found again.

The files below a folder are found in an order of their paths that does not depend on the order of
the entries (`Discovery.pairwise_files`), and which they are can be said without looking for them
(`Discovery.mem_files_iff`).  So the list is known by its members.

Hence it stays the same while files are written that are no sources: no folder and no link is new
then, so that every folder is led to that was led to before, and what else is new is passed over
for its suffix (`FileTree.Filled.sources_eq`).
-/
import PhpMigration.Proofs.Project.Discovery
import PhpMigration.Proofs.Project.Output

namespace PhpMigration

namespace Discovery

/-! ### The order of what is found -/

/-- In each folder the files come before what is in other folders, and all in the order of the
names. -/
def Before : List String → List String → Prop
  | [a], [b] => a < b
  | [_], _ :: _ :: _ => True
  | a :: x :: xs, b :: y :: ys => a < b ∨ a = b ∧ Before (x :: xs) (y :: ys)
  | _, _ => False

theorem Before.asymm {file file' : List String} (h : Before file file') : ¬ Before file' file := by
  fun_induction Before file file' with
  | case1 a b => exact String.lt_asymm h
  | case2 a b y ys => exact not_false
  | case3 a x xs b y ys ih =>
      intro h'
      rcases h with hlt | ⟨rfl, hrest⟩
      · rcases h' with hlt' | ⟨rfl, -⟩
        · exact String.lt_asymm hlt hlt'
        · exact String.lt_irrefl _ hlt
      · rcases h' with hlt' | ⟨-, hrest'⟩
        · exact String.lt_irrefl _ hlt'
        · exact ih hrest hrest'
  | case4 file file' => exact h.elim

theorem before_append (path : List String) {file file' : List String} (hne : file ≠ [])
    (hne' : file' ≠ []) : Before (path ++ file) (path ++ file') ↔ Before file file' := by
  induction path with
  | nil => exact Iff.rfl
  | cons name rest ih =>
      obtain ⟨a, as, ha⟩ := List.exists_cons_of_ne_nil (List.append_ne_nil_of_right_ne_nil rest hne)
      obtain ⟨b, bs, hb⟩ := List.exists_cons_of_ne_nil (List.append_ne_nil_of_right_ne_nil rest hne')
      rw [← ih, List.cons_append, List.cons_append, ha, hb, Before]
      exact ⟨fun h => h.elim (fun hlt => absurd hlt (String.lt_irrefl _)) And.right,
        fun h => .inr ⟨rfl, h⟩⟩

/-- The files of an entry are in order, and the entry itself is one of them if it is no folder. -/
structure Found.IsOrdered (path : List String) (f : Found) : Prop where
  files : f.files.Pairwise Before
  form : ∀ file ∈ f.files, ∃ rest, file = path ++ f.name :: rest ∧ (f.isFolder = true ↔ rest ≠ [])

/-- What has different names is strictly ordered by them when it is sorted. -/
theorem pairwise_name_lt {found : List Found} (hnames : (found.map Found.name).Nodup) :
    (found.mergeSort fun a b => decide (a.name ≤ b.name)).Pairwise fun f g => f.name < g.name := by
  have hle : (found.mergeSort fun a b => decide (a.name ≤ b.name)).Pairwise
      fun f g => f.name ≤ g.name := by
    refine (List.pairwise_mergeSort ?_ ?_ found).imp of_decide_eq_true
    · intro a b c hab hbc
      exact decide_eq_true (String.le_trans (of_decide_eq_true hab) (of_decide_eq_true hbc))
    · intro a b
      simpa using String.le_total a.name b.name
  have hne : (found.mergeSort fun a b => decide (a.name ≤ b.name)).Pairwise
      fun f g => f.name ≠ g.name :=
    List.pairwise_map.mp (((List.mergeSort_perm _ _).map Found.name).nodup_iff.mpr hnames)
  refine (hle.and hne).imp fun {f g} hboth => ?_
  by_contra hnot
  exact hboth.2 (String.le_antisymm hboth.1 (String.not_lt.mp hnot))

theorem inOrder_ordered {path : List String} {found : List Found}
    (hnames : (found.map Found.name).Nodup) (h : ∀ f ∈ found, f.IsOrdered path) :
    (inOrder found).Pairwise Before := by
  obtain ⟨sorted, hsorted⟩ : ∃ sorted, sorted = found.mergeSort fun a b =>
    decide (a.name ≤ b.name) := ⟨_, rfl⟩
  have hperm : sorted.Perm found := hsorted ▸ List.mergeSort_perm _ _
  have hall : ∀ f ∈ sorted, f.IsOrdered path := fun f hf => h f (hperm.subset hf)
  have hlt : sorted.Pairwise fun f g => f.name < g.name := hsorted ▸ pairwise_name_lt hnames
  have hsame : ∀ kind : Bool,
      ((sorted.filter fun f => f.isFolder = kind).flatMap Found.files).Pairwise Before := by
    intro kind
    refine List.pairwise_flatMap.mpr ⟨fun f hf => (hall f (List.mem_of_mem_filter hf)).files, ?_⟩
    refine (hlt.filter _).imp_of_mem ?_
    intro f g hf hg hnames file hfile file' hfile'
    obtain ⟨hf, hkind⟩ := List.mem_filter.mp hf
    obtain ⟨hg, hkind'⟩ := List.mem_filter.mp hg
    obtain ⟨rest, rfl, hrest⟩ := (hall f hf).form file hfile
    obtain ⟨rest', rfl, hrest'⟩ := (hall g hg).form file' hfile'
    rw [of_decide_eq_true hkind] at hrest
    rw [of_decide_eq_true hkind'] at hrest'
    rw [before_append path (List.cons_ne_nil _ _) (List.cons_ne_nil _ _)]
    cases rest with
    | nil =>
        cases rest' with
        | nil => exact hnames
        | cons n rest' => exact absurd rfl (hrest.mp (hrest'.mpr (List.cons_ne_nil _ _)))
    | cons n rest =>
        cases rest' with
        | nil => exact absurd rfl (hrest'.mp (hrest.mpr (List.cons_ne_nil _ _)))
        | cons n' rest' => exact .inl hnames
  unfold inOrder
  dsimp only
  rw [← hsorted]
  refine List.pairwise_append.mpr ⟨?_, ?_, ?_⟩
  · simpa using hsame false
  · simpa using hsame true
  · intro file hfile file' hfile'
    obtain ⟨f, hf, hfile⟩ := List.mem_flatMap.mp hfile
    obtain ⟨g, hg, hfile'⟩ := List.mem_flatMap.mp hfile'
    obtain ⟨hf, hkind⟩ := List.mem_filter.mp hf
    obtain ⟨hg, hkind'⟩ := List.mem_filter.mp hg
    obtain ⟨rest, rfl, hrest⟩ := (hall f hf).form file hfile
    obtain ⟨rest', rfl, hrest'⟩ := (hall g hg).form file' hfile'
    rw [before_append path (List.cons_ne_nil _ _) (List.cons_ne_nil _ _)]
    have hnil : rest = [] := by
      by_contra hne
      rw [hrest.mpr hne] at hkind
      cases hkind
    obtain ⟨n, more, rfl⟩ := List.exists_cons_of_ne_nil (hrest'.mp hkind')
    rw [hnil]
    trivial

section

variable (excluded : List String) (leadsToFolder : List String → Bool)

theorem foundIn_ordered (path : List String) {entries : List (String × Entry)}
    (hnames : (Table.names entries).Nodup) (h : EachSound entries) :
    ∀ f ∈ foundIn excluded leadsToFolder path entries, f.IsOrdered path := by
  have hfile : ∀ {path : List String} {name : String},
      Found.IsOrdered path ⟨name, false, [path ++ [name]]⟩ := by
    intro path name
    exact ⟨List.pairwise_singleton _ _, fun file hfile => ⟨[], List.mem_singleton.mp hfile, by simp⟩⟩
  fun_induction foundIn excluded leadsToFolder path entries with
  | case1 path => simp
  | case2 path name inner rest more hexcluded ih =>
      rw [EachSound] at h
      exact ih (List.nodup_cons.mp hnames).2 h.2.2
  | case3 path name inner rest more hexcluded ih ihinner =>
      rw [EachSound, Entry.IsSound] at h
      obtain ⟨-, ⟨hnodup, hinner⟩, hrest⟩ := h
      obtain ⟨hsub, hbelow⟩ := foundIn_below excluded leadsToFolder (path ++ [name]) hnodup hinner
      refine List.forall_mem_cons.mpr ⟨⟨inOrder_ordered (hnodup.sublist hsub)
        (ihinner hnodup hinner), fun file hfile => ?_⟩, ih (List.nodup_cons.mp hnames).2 hrest⟩
      obtain ⟨n, more, rfl, -⟩ := (inOrder_below (hnodup.sublist hsub) hbelow).2 file hfile
      exact ⟨n :: more, List.append_assoc _ _ _, by simp⟩
  | case4 path name content rest ih =>
      rw [EachSound] at h
      exact List.forall_mem_cons.mpr ⟨hfile, ih (List.nodup_cons.mp hnames).2 h.2.2⟩
  | case5 path name target rest more hleads ih =>
      rw [EachSound] at h
      exact ih (List.nodup_cons.mp hnames).2 h.2.2
  | case6 path name target rest more hleads ih =>
      rw [EachSound] at h
      exact List.forall_mem_cons.mpr ⟨hfile, ih (List.nodup_cons.mp hnames).2 h.2.2⟩

/-- **Files are found in one order of their paths.** -/
theorem pairwise_filesBelow {e : Entry} (h : e.IsSound) :
    (filesBelow excluded leadsToFolder [] e).Pairwise Before := by
  cases e with
  | file content => exact List.Pairwise.nil
  | link target => exact List.Pairwise.nil
  | folder entries =>
      rw [Entry.IsSound] at h
      rw [filesBelow]
      exact inOrder_ordered
        (h.1.sublist (foundIn_below excluded leadsToFolder [] h.1 h.2).1)
        (foundIn_ordered excluded leadsToFolder [] h.1 h.2)

/-! ### Which files are found -/

/-- The entry counts as a file. -/
def IsLeaf (leadsToFolder : List String → Bool) (file : List String) : Entry → Prop
  | .file _ => True
  | .folder _ => False
  | .link _ => leadsToFolder file = false

/-- The file is at the end of a way through folders that are not passed over. -/
def Reaches (path : List String) (entries : List (String × Entry)) (file : List String) : Prop :=
  ∃ name rest e, file = path ++ name :: rest ∧
    (∀ n ∈ (name :: rest).dropLast, excluded.contains n = false) ∧
    (Entry.folder entries).at? (name :: rest) = some e ∧ IsLeaf leadsToFolder file e

variable {excluded leadsToFolder} {path file : List String} {name : String} {e : Entry}
  {entries : List (String × Entry)}

theorem not_reaches_nil : ¬ Reaches excluded leadsToFolder path [] file := by
  rintro ⟨name, rest, e, -, -, hat, -⟩
  cases hat

/-- The file is an entry with a name, or lies below it. -/
def ReachesAt (excluded : List String) (leadsToFolder : List String → Bool) (path : List String)
    (name : String) (e : Entry) (file : List String) : Prop :=
  ∃ rest e', file = path ++ name :: rest ∧
    (∀ n ∈ (name :: rest).dropLast, excluded.contains n = false) ∧
    e.at? rest = some e' ∧ IsLeaf leadsToFolder file e'

/-- What is reached is reached by the first entry or by the others. -/
theorem reaches_cons_iff (hname : name ∉ Table.names entries) :
    Reaches excluded leadsToFolder path ((name, e) :: entries) file ↔
      ReachesAt excluded leadsToFolder path name e file ∨
      Reaches excluded leadsToFolder path entries file := by
  have hat : ∀ n rest, (Entry.folder ((name, e) :: entries)).at? (n :: rest) =
      if n = name then e.at? rest else (Entry.folder entries).at? (n :: rest) := by
    intro n rest
    rw [Entry.at?, Entry.at?, Table.find?_cons]
    split <;> rfl
  constructor
  · rintro ⟨n, rest, e', hfile, hnames, he', hleaf⟩
    rw [hat] at he'
    by_cases hn : n = name
    · subst hn
      rw [if_pos rfl] at he'
      exact .inl ⟨rest, e', hfile, hnames, he', hleaf⟩
    · rw [if_neg hn] at he'
      exact .inr ⟨n, rest, e', hfile, hnames, he', hleaf⟩
  · rintro (⟨rest, e', hfile, hnames, he', hleaf⟩ | ⟨n, rest, e', hfile, hnames, he', hleaf⟩)
    · exact ⟨name, rest, e', hfile, hnames, by rwa [hat, if_pos rfl], hleaf⟩
    · refine ⟨n, rest, e', hfile, hnames, ?_, hleaf⟩
      rw [hat, if_neg]
      · exact he'
      rintro rfl
      obtain ⟨inner, hinner, -⟩ := Option.bind_eq_some_iff.mp he'
      exact hname (List.mem_map_of_mem (Table.mem_of_find? hinner))

/-- An entry with nothing below it is reached as itself. -/
theorem reachesAt_leaf_iff (hbelow : ∀ n rest, e.at? (n :: rest) = none) :
    ReachesAt excluded leadsToFolder path name e file ↔
      file = path ++ [name] ∧ IsLeaf leadsToFolder file e := by
  constructor
  · rintro ⟨rest, e', hfile, -, he', hleaf⟩
    cases rest with
    | nil =>
        rw [Entry.at?] at he'
        cases he'
        exact ⟨hfile, hleaf⟩
    | cons n rest =>
        rw [hbelow] at he'
        cases he'
  · rintro ⟨hfile, hleaf⟩
    exact ⟨[], e, hfile, by simp, by rw [Entry.at?], hleaf⟩

/-- What is reached at a folder is reached from its entries, unless the folder is passed over. -/
theorem reachesAt_folder_iff : ReachesAt excluded leadsToFolder path name (.folder entries) file ↔
    excluded.contains name = false ∧ Reaches excluded leadsToFolder (path ++ [name]) entries file := by
  constructor
  · rintro ⟨below, e', hfile, hskipped, he', hleaf⟩
    cases below with
    | nil =>
        rw [Entry.at?] at he'
        cases he'
        exact hleaf.elim
    | cons n below =>
        exact ⟨hskipped name (by simp), n, below, e', hfile.trans (List.append_cons ..),
          fun m hm => hskipped m (List.mem_cons_of_mem _ hm), he', hleaf⟩
  · rintro ⟨hname, n, below, e', hfile, hskipped, he', hleaf⟩
    refine ⟨n :: below, e', hfile.trans (List.append_cons ..).symm, fun m hm => ?_, he', hleaf⟩
    rcases List.mem_cons.mp hm with rfl | hm
    · exact hname
    · exact hskipped m hm

/-- What is found in the entries is what they reach, entry by entry. -/
theorem mem_foundIn_iff (hnames : (Table.names entries).Nodup) (h : EachSound entries) :
    file ∈ (foundIn excluded leadsToFolder path entries).flatMap Found.files ↔
      Reaches excluded leadsToFolder path entries file := by
  fun_induction foundIn excluded leadsToFolder path entries with
  | case1 path =>
      exact ⟨fun hfile => (by cases hfile), fun h => absurd h not_reaches_nil⟩
  | case2 path name inner rest more hexcluded ih =>
      obtain ⟨hname, hnodup⟩ := List.nodup_cons.mp hnames
      rw [EachSound] at h
      rw [ih hnodup h.2.2, reaches_cons_iff hname, reachesAt_folder_iff]
      exact ⟨.inr, fun hreaches => hreaches.resolve_left fun hfirst =>
        Bool.false_ne_true (hfirst.1.symm.trans hexcluded)⟩
  | case3 path name inner rest more hexcluded ih ihinner =>
      obtain ⟨hname, hnodup⟩ := List.nodup_cons.mp hnames
      rw [EachSound, Entry.IsSound] at h
      obtain ⟨-, ⟨hnodup', hinner⟩, hsound⟩ := h
      rw [reaches_cons_iff hname, ← ih hnodup hsound, reachesAt_folder_iff,
        ← ihinner hnodup' hinner, List.flatMap_cons, List.mem_append, (inOrder_perm _).mem_iff]
      exact or_congr (and_iff_right (Bool.eq_false_iff.mpr hexcluded)).symm Iff.rfl
  | case4 path name content rest ih =>
      obtain ⟨hname, hnodup⟩ := List.nodup_cons.mp hnames
      rw [EachSound] at h
      rw [reaches_cons_iff hname, ← ih hnodup h.2.2, reachesAt_leaf_iff fun _ _ => rfl,
        List.flatMap_cons, List.mem_append, List.mem_singleton]
      exact or_congr (and_iff_left trivial).symm Iff.rfl
  | case5 path name target rest more hleads ih =>
      obtain ⟨hname, hnodup⟩ := List.nodup_cons.mp hnames
      rw [EachSound] at h
      rw [reaches_cons_iff hname, ← ih hnodup h.2.2, reachesAt_leaf_iff fun _ _ => rfl]
      refine ⟨.inr, fun hreaches => hreaches.resolve_left ?_⟩
      rintro ⟨rfl, hnot⟩
      exact Bool.false_ne_true (hnot.symm.trans hleads)
  | case6 path name target rest more hleads ih =>
      obtain ⟨hname, hnodup⟩ := List.nodup_cons.mp hnames
      rw [EachSound] at h
      rw [reaches_cons_iff hname, ← ih hnodup h.2.2, reachesAt_leaf_iff fun _ _ => rfl,
        List.flatMap_cons, List.mem_append, List.mem_singleton]
      refine or_congr ⟨fun hfile => ⟨hfile, ?_⟩, And.left⟩ Iff.rfl
      rw [hfile]
      exact Bool.eq_false_iff.mpr hleads

/-- **The files that are found are those at the end of ways through folders that are not passed
over.** -/
theorem mem_filesBelow_iff (h : (Entry.folder entries).IsSound) :
    file ∈ filesBelow excluded leadsToFolder [] (.folder entries) ↔
      Reaches excluded leadsToFolder [] entries file := by
  rw [Entry.IsSound] at h
  rw [filesBelow, (inOrder_perm _).mem_iff]
  exact mem_foundIn_iff h.1 h.2

end

variable {excluded folder : List String} {t : FileTree}

theorem pairwise_files (h : t.top.IsSound) : (files excluded folder t).Pairwise Before := by
  unfold files
  split
  · rename_i place e links hspot
    exact pairwise_filesBelow _ _ (h.at? (FileTree.leadsTo_iff.mp ⟨links, hspot⟩).2.2).1
  · exact List.Pairwise.nil

theorem mem_files_iff {file : List String} (h : t.top.IsSound) :
    file ∈ files excluded folder t ↔ ∃ place entries, t.LeadsTo folder place (.folder entries) ∧
      Reaches excluded (fun path => t.isFolder (folder ++ path)) [] entries file := by
  constructor
  · intro hfile
    unfold files at hfile
    split at hfile
    · rename_i place e links hspot
      have hleads : t.LeadsTo folder place e := ⟨links, hspot⟩
      cases e with
      | file content => cases hfile
      | link target => cases hfile
      | folder entries =>
          exact ⟨place, entries, hleads, (mem_filesBelow_iff
            (h.at? (FileTree.leadsTo_iff.mp hleads).2.2).1).mp hfile⟩
    · cases hfile
  · rintro ⟨place, entries, ⟨links, hspot⟩, hreaches⟩
    unfold files
    rw [hspot]
    exact (mem_filesBelow_iff (h.at? (FileTree.leadsTo_iff.mp ⟨links, hspot⟩).2.2).1).mpr hreaches

end Discovery

/-! ### Trees in which only files are new -/

/-- Files have been written at some places, and no folder has been made. -/
structure FileTree.Filled (written : List String → Prop) (t t' : FileTree) : Prop where
  built : t.Built written t'
  folders : ∀ place entries, t'.top.at? place = some (.folder entries) →
    ∃ entries', t.top.at? place = some (.folder entries')

/-- A walk to a folder begins in one. -/
theorem Entry.Walks.exists_folder {top : Entry} {links k : Nat} {done todo place left : List String}
    {entries : List (String × Entry)} (h : top.Walks links done todo k place left)
    (hplace : top.at? place = some (.folder entries)) :
    ∃ entries, top.at? done = some (.folder entries) := by
  cases h with
  | here => exact ⟨_, hplace⟩
  | back hfolder hne h => exact ⟨_, hfolder⟩
  | follow hfolder hname hsize hfind h => exact ⟨_, hfolder⟩
  | on hfolder hname hsize hfind hlink h => exact ⟨_, hfolder⟩

namespace FileTree.Filled

variable {written other : List String → Prop} {t t' t'' : FileTree} {path place : List String}

theorem refl (t : FileTree) : t.Filled written t := ⟨.same, fun _ entries h => ⟨entries, h⟩⟩

theorem trans (h : t.Filled written t') (h' : t'.Filled written t'') : t.Filled written t'' := by
  refine ⟨h.built.trans h'.built, fun place entries hfolder => ?_⟩
  obtain ⟨entries', hentries⟩ := h'.folders place entries hfolder
  exact h.folders place entries' hentries

theorem mono (h : t.Filled written t') (himp : ∀ place, written place → other place) :
    t.Filled other t' := ⟨h.built.mono himp, h.folders⟩

/-- A walk that ends in a folder could be made before. -/
theorem walks {links k : Nat} {done todo left : List String} {entries : List (String × Entry)}
    (h : t.Filled written t') (hwalks : t'.top.Walks links done todo k place left)
    (hplace : t'.top.at? place = some (.folder entries)) :
    t.top.Walks links done todo k place left := by
  induction hwalks with
  | here => exact .here
  | back hfolder hne hwalks ih =>
      obtain ⟨_, hbefore⟩ := h.folders _ _ hfolder
      exact .back hbefore hne (ih hplace)
  | follow hfolder hname hsize hfind hwalks ih =>
      obtain ⟨_, hbefore⟩ := h.folders _ _ hfolder
      have hlink := h.built.at?_link ((Entry.at?_snoc hfolder _).trans hfind)
      rw [Entry.at?_snoc hbefore] at hlink
      exact .follow hbefore hname hsize hlink (ih hplace)
  | on hfolder hname hsize hfind hlink hwalks ih =>
      obtain ⟨_, hbefore⟩ := h.folders _ _ hfolder
      obtain ⟨_, hnext⟩ := hwalks.exists_folder hplace
      obtain ⟨_, hnext⟩ := h.folders _ _ hnext
      rw [Entry.at?_snoc hbefore] at hnext
      exact .on hbefore hname hsize hnext (fun _ heq => by cases heq) (ih hplace)

theorem leadsTo_folder {entries : List (String × Entry)} (h : t.Filled written t')
    (hleads : t'.LeadsTo path place (.folder entries)) :
    ∃ entries', t.LeadsTo path place (.folder entries') := by
  obtain ⟨hnameable, ⟨k, hwalks⟩, hat⟩ := leadsTo_iff.mp hleads
  obtain ⟨entries', hbefore⟩ := h.folders place entries hat
  refine ⟨entries', leadsTo_iff.mpr ⟨?_, ⟨k, h.walks hwalks hat⟩, hbefore⟩⟩
  unfold IsNameable shown at hnameable ⊢
  rwa [h.built.grown.name] at hnameable

/-- The same paths lead to folders. -/
theorem isFolder_eq (h : t.Filled written t') (path : List String) :
    t'.isFolder path = t.isFolder path := by
  refine Bool.eq_iff_iff.mpr ⟨fun hfolder => ?_, h.built.grown.isFolder⟩
  obtain ⟨place, entries, hleads⟩ := isFolder_iff.mp hfolder
  obtain ⟨entries', hbefore⟩ := h.leadsTo_folder hleads
  exact isFolder_iff.mpr ⟨place, entries', hbefore⟩

/-- What reads apart from the places reads the same. -/
theorem read_eq (h : t.Filled written t') (happart : t.ReadsApart path written) :
    t'.read path = t.read path :=
  happart t' h.built.grown fun _ _ hnot =>
    ⟨fun hat => h.built.at?_file_of hat hnot, fun hat => h.built.at?_file hat hnot⟩

end FileTree.Filled

/-! ### The sources of a project -/

namespace FileTree.Filled

variable {written : List String → Prop} {t t' : FileTree}

/-- What is reached in one of the trees and is not written is reached in the other. -/
theorem reaches_iff {excluded folder place file : List String}
    {entries entries' : List (String × Entry)} (h : t.Filled written t')
    (hat : t.top.at? place = some (.folder entries))
    (hat' : t'.top.at? place = some (.folder entries')) (hfile : ¬ written (place ++ file)) :
    Discovery.Reaches excluded (fun path => t'.isFolder (folder ++ path)) [] entries' file ↔
      Discovery.Reaches excluded (fun path => t.isFolder (folder ++ path)) [] entries file := by
  have hbelow : (Entry.folder entries).at? file = t.top.at? (place ++ file) := by
    rw [Entry.at?_append, hat]
    rfl
  have hbelow' : (Entry.folder entries').at? file = t'.top.at? (place ++ file) := by
    rw [Entry.at?_append, hat']
    rfl
  constructor
  · rintro ⟨name, rest, e, rfl, hskipped, he, hleaf⟩
    rw [List.nil_append] at *
    rw [hbelow'] at he
    refine ⟨name, rest, e, rfl, hskipped, hbelow.trans ?_, ?_⟩
    · cases e with
      | file content => exact h.built.at?_file_of he hfile
      | folder inner => exact hleaf.elim
      | link target => exact h.built.at?_link he
    · cases e with
      | file content => trivial
      | folder inner => exact hleaf.elim
      | link target => exact (h.isFolder_eq _).symm.trans hleaf
  · rintro ⟨name, rest, e, rfl, hskipped, he, hleaf⟩
    rw [List.nil_append] at *
    rw [hbelow] at he
    refine ⟨name, rest, e, rfl, hskipped, hbelow'.trans ?_, ?_⟩
    · cases e with
      | file content => exact h.built.at?_file he hfile
      | folder inner => exact hleaf.elim
      | link target =>
          obtain ⟨e', he', halike⟩ := h.built.grown.top _ _ he
          obtain rfl : e' = _ := halike
          exact he'
    · cases e with
      | file content => trivial
      | folder inner => exact hleaf.elim
      | link target => exact (h.isFolder_eq _).trans hleaf

/-- The same files with a suffix are below a folder if none with that suffix is written. -/
theorem mem_files_iff {suffixes excluded folder file : List String} (h : t.Filled written t')
    (hsound : t.top.IsSound) (hsound' : t'.top.IsSound)
    (hwritten : ∀ place, written place → Discovery.hasSuffix suffixes (place.getLastD "") = false)
    (hfile : Discovery.hasSuffix suffixes (file.getLastD "") = true) :
    file ∈ Discovery.files excluded folder t' ↔ file ∈ Discovery.files excluded folder t := by
  have hnot : ∀ {place name rest}, file = [] ++ name :: rest → ¬ written (place ++ file) := by
    intro place name rest hcons hplace
    have hlast : (place ++ file).getLastD "" = file.getLastD "" := by
      rw [hcons, List.getLastD_eq_getLast?, List.getLastD_eq_getLast?, List.nil_append,
        List.getLast?_append_of_ne_nil _ (List.cons_ne_nil _ _)]
    rw [← hlast, hwritten _ hplace] at hfile
    cases hfile
  rw [Discovery.mem_files_iff hsound, Discovery.mem_files_iff hsound']
  constructor
  · rintro ⟨place, entries', hleads', hreaches⟩
    obtain ⟨entries, hleads⟩ := h.leadsTo_folder hleads'
    have hcons := hreaches
    obtain ⟨name, rest, -, hcons, -⟩ := hcons
    exact ⟨place, entries, hleads, (h.reaches_iff (leadsTo_iff.mp hleads).2.2
      (leadsTo_iff.mp hleads').2.2 (hnot hcons)).mp hreaches⟩
  · rintro ⟨place, entries, hleads, hreaches⟩
    obtain ⟨e', hleads', entries', rfl⟩ := h.built.grown.leadsTo hleads
    have hcons := hreaches
    obtain ⟨name, rest, -, hcons, -⟩ := hcons
    exact ⟨place, entries', hleads', (h.reaches_iff (leadsTo_iff.mp hleads).2.2
      (leadsTo_iff.mp hleads').2.2 (hnot hcons)).mpr hreaches⟩

/-- **The same sources are found in the same order** if no file with their suffix is written. -/
theorem sources_eq {s : Settings} {suffixes : List String} (h : t.Filled written t')
    (hsound : t.top.IsSound) (hsound' : t'.top.IsSound) (hsuffixes : s.suffixes = .ok suffixes)
    (hwritten : ∀ place, written place →
      Discovery.hasSuffix suffixes (place.getLastD "") = false) (folder : List String) :
    Discovery.sources s folder t' = Discovery.sources s folder t := by
  unfold Discovery.sources
  rw [hsuffixes]
  cases s.skipped with
  | error fault => rfl
  | ok skipped =>
      refine congrArg Except.ok ?_
      have hperm : ((Discovery.files skipped folder t').filter fun path =>
          Discovery.hasSuffix suffixes (path.getLastD "")).Perm
          ((Discovery.files skipped folder t).filter fun path =>
            Discovery.hasSuffix suffixes (path.getLastD "")) := by
        refine (List.perm_ext_iff_of_nodup
          ((Discovery.files_below skipped folder hsound').1.filter _)
          ((Discovery.files_below skipped folder hsound).1.filter _)).mpr fun file => ?_
        rw [List.mem_filter, List.mem_filter]
        exact and_congr_left fun hfile => h.mem_files_iff hsound hsound' hwritten hfile
      exact hperm.eq_of_pairwise
        (fun _ _ _ _ hbefore hafter => absurd hafter hbefore.asymm)
        ((Discovery.pairwise_files hsound').filter _) ((Discovery.pairwise_files hsound).filter _)

end FileTree.Filled

end PhpMigration
