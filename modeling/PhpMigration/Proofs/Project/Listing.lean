/-
Reading what is listed.

Where there are no links, a path leads to the place that its names spell (`LeadsTo.place_eq`), and
the place can be asked for as well as the path (`LeadsTo.of_place`): it is no longer, and has no other
names.  So a file to which a path leads from the folder of a project is read, if its place is strictly
below that folder, and refused if not (`Review.read_of_leadsTo`).

What is listed is a file with a suffix of code at the end of a way through the folders of the
skeleton (`Review.mem_codeIn_iff`), and its names are found again in the path that it is listed with
(`Path.parts_entry`).
-/
import PhpMigration.Proofs.Project.Rediscovery
import PhpMigration.Proofs.Project.Review
import PhpMigration.Proofs.Text.Pieces

namespace PhpMigration

/-! ### The names of a path -/

namespace Path

theorem parts_append (front back : String) :
    parts (front ++ "/" ++ back) = parts front ++ parts back := by
  have hchars : (front ++ "/" ++ back).toList = front.toList ++ '/' :: back.toList := by simp
  rw [parts, hchars, Text.splitAt_append_cons, List.map_append, List.filter_append]
  rfl

theorem join_cons_cons (first name : String) (rest : List String) :
    join (first :: name :: rest) = first ++ "/" ++ join (name :: rest) := String.intercalate_cons_cons

/-- Names that stand for themselves are the names of their path. -/
theorem parts_join {names : List String} (h : ∀ name ∈ names, IsName name ∧ IsProper name) :
    parts (join names) = names := by
  induction names with
  | nil => decide
  | cons name rest ih =>
      obtain ⟨⟨hname, hproper⟩, hrest⟩ := List.forall_mem_cons.mp h
      cases rest with
      | nil => exact parts_of_isName hname ⟨hproper.1, hproper.2.1⟩
      | cons n more =>
          rw [join_cons_cons, parts_append, ih hrest, parts_of_isName hname ⟨hproper.1, hproper.2.1⟩]
          rfl

/-- What is listed is listed with a path that has its names. -/
theorem parts_entry (outputName : String) {names : List String}
    (h : ∀ name ∈ names, IsName name ∧ IsProper name) :
    parts (outputName ++ "/" ++ join names) = parts outputName ++ names := by
  rw [parts_append, parts_join h]

/-- A null character in a path is in one of its names. -/
theorem exists_null {path : String} (h : '\x00' ∈ path.toList) :
    ∃ name ∈ parts path, '\x00' ∈ name.toList := by
  obtain ⟨piece, hpiece, hmem⟩ := Text.exists_piece h (show '\x00' ≠ '/' by decide)
  have hname : '\x00' ∈ (String.ofList piece).toList := by rwa [String.toList_ofList]
  refine ⟨String.ofList piece, List.mem_filter.mpr ⟨List.mem_map_of_mem hpiece, ?_⟩, hname⟩
  rw [decide_eq_true_eq]
  refine ⟨fun heq => ?_, fun heq => ?_⟩ <;>
  · rw [heq] at hname
    exact absurd hname (by decide)

theorem withoutDots_sublist (done todo : List String) : (withoutDots done todo).Sublist (done ++ todo) := by
  induction todo generalizing done with
  | nil => rw [withoutDots, List.append_nil]
  | cons name rest ih =>
      rw [withoutDots]
      split
      · exact (ih _).trans
          ((List.dropLast_sublist done).append (List.sublist_cons_self name rest))
      · rw [List.append_cons done name rest]
        exact ih _

/-- The path of fewer names is no longer. -/
theorem size_join_le (first : String) {names names' : List String} (h : names.Sublist names') :
    (join (first :: names)).utf8ByteSize ≤ (join (first :: names')).utf8ByteSize := by
  have hsize : ∀ (first : String) (names : List String), (join (first :: names)).utf8ByteSize =
      first.utf8ByteSize + (names.map fun name => 1 + name.utf8ByteSize).sum := by
    intro first names
    induction names generalizing first with
    | nil => simp [join]
    | cons name rest ih =>
        rw [join_cons_cons, String.utf8ByteSize_append, String.utf8ByteSize_append, ih, List.map_cons,
          List.sum_cons]
        have hslash : "/".utf8ByteSize = 1 := by decide
        omega
  rw [hsize, hsize]
  refine Nat.add_le_add_left ?_ _
  induction h with
  | slnil => exact Nat.le_refl _
  | cons name h ih =>
      rw [List.map_cons, List.sum_cons]
      omega
  | cons_cons name h ih =>
      rw [List.map_cons, List.map_cons, List.sum_cons, List.sum_cons]
      omega

end Path

/-! ### Places without links -/

namespace Entry.Walks

variable {top : Entry} {links k : Nat} {done todo place left : List String}

/-- Without links a walk only takes away names before two dots. -/
theorem withoutDots_eq (h : Walks top links done todo k place left) (hlinks : top.HasNoLink)
    (base : List String) :
    Path.withoutDots (base ++ done) todo = Path.withoutDots (base ++ place) left := by
  induction h with
  | here => rfl
  | back hfolder hne h ih =>
      rw [← ih, Path.withoutDots, if_pos rfl, List.dropLast_append_of_ne_nil hne]
  | follow hfolder hname hsize hfind h ih =>
      exact absurd ((at?_snoc hfolder _).trans hfind) (hlinks _ _)
  | on hfolder hname hsize hfind hlink h ih =>
      rw [← ih, Path.withoutDots, if_neg hname, List.append_assoc]

/-- Without links the names of a place are names that were asked for, and none of them is too long. -/
theorem names_of_hasNoLink (h : Walks top links done todo k place left) (hlinks : top.HasNoLink) :
    ∀ name ∈ place, name ∈ done ∨
      name ∈ todo ∧ name ≠ ".." ∧ ¬ maxNameBytes < name.utf8ByteSize := by
  induction h with
  | here => exact fun name hmem => .inl hmem
  | back hfolder hne h ih =>
      intro name hmem
      rcases ih name hmem with hdone | ⟨htodo, hrest⟩
      · exact .inl ((List.dropLast_sublist _).subset hdone)
      · exact .inr ⟨List.mem_cons_of_mem _ htodo, hrest⟩
  | follow hfolder hname hsize hfind h ih =>
      exact absurd ((at?_snoc hfolder _).trans hfind) (hlinks _ _)
  | on hfolder hname hsize hfind hlink h ih =>
      intro n hmem
      rcases ih n hmem with hdone | ⟨htodo, hrest⟩
      · rcases List.mem_append.mp hdone with hdone | hdone
        · exact .inl hdone
        · obtain rfl := List.mem_singleton.mp hdone
          exact .inr ⟨List.mem_cons_self, hname, hsize⟩
      · exact .inr ⟨List.mem_cons_of_mem _ htodo, hrest⟩

/-- A walk that comes into the second of two paths is a walk along the first, and then on. -/
theorem split {front back : List String} (h : Walks top links done (front ++ back) k place left)
    (hleft : left.length ≤ back.length) :
    ∃ k' between, Walks top links done front k' between [] ∧
      Walks top k' between back k place left := by
  generalize htodo : front ++ back = todo at h
  induction h generalizing front with
  | here =>
      obtain rfl : front = [] := by
        rw [← htodo, List.length_append] at hleft
        exact List.length_eq_zero_iff.mp (by omega)
      subst htodo
      exact ⟨_, _, .here, .here⟩
  | back hfolder hne h ih =>
      cases front with
      | nil =>
          subst htodo
          exact ⟨_, _, .here, .back hfolder hne h⟩
      | cons name front =>
          obtain ⟨rfl, hrest⟩ := List.cons.inj htodo
          obtain ⟨k', between, hfront, hback⟩ := ih hleft hrest
          exact ⟨k', between, .back hfolder hne hfront, hback⟩
  | follow hfolder hname hsize hfind h ih =>
      rename_i links k rest place left target name entries
      cases front with
      | nil =>
          subst htodo
          exact ⟨_, _, .here, .follow hfolder hname hsize hfind h⟩
      | cons n front =>
          obtain ⟨rfl, rfl⟩ := List.cons.inj htodo
          obtain ⟨k', between, hfront, hback⟩ := ih hleft (List.append_assoc target front back)
          exact ⟨k', between, .follow hfolder hname hsize hfind hfront, hback⟩
  | on hfolder hname hsize hfind hlink h ih =>
      cases front with
      | nil =>
          subst htodo
          exact ⟨_, _, .here, .on hfolder hname hsize hfind hlink h⟩
      | cons n front =>
          obtain ⟨rfl, hrest⟩ := List.cons.inj htodo
          obtain ⟨k', between, hfront, hback⟩ := ih hleft hrest
          exact ⟨k', between, .on hfolder hname hsize hfind hlink hfront, hback⟩

end Entry.Walks

/-- A walk that ends in a folder has come through one. -/
theorem FileTree.exists_leadsTo_of_walks {t : FileTree} {front back place left : List String}
    {k : Nat} {entries : List (String × Entry)} (hnameable : t.IsNameable (front ++ back))
    (hwalks : t.top.Walks maxLinks [] (front ++ back) k place left)
    (hleft : left.length ≤ back.length) (hplace : t.top.at? place = some (.folder entries)) :
    ∃ k' there entries', t.LeadsTo front there (.folder entries') ∧
      t.top.Walks k' there back k place left := by
  obtain ⟨hnull, hsize⟩ := hnameable
  obtain ⟨k', there, hfront, hback⟩ := hwalks.split hleft
  obtain ⟨entries', hthere⟩ := hback.exists_folder hplace
  rw [List.any_append, Bool.or_eq_false_iff] at hnull
  have hshorter : ¬ maxPathBytes < (t.shown front).utf8ByteSize := fun hlong => hsize
    (Nat.lt_of_lt_of_le hlong (Path.size_join_le t.name (List.sublist_append_left front back)))
  exact ⟨k', there, entries', leadsTo_iff.mpr ⟨⟨hnull.1, hshorter⟩, ⟨k', hfront⟩, hthere⟩, hback⟩

/-- A folder is in a folder. -/
theorem FileTree.exists_leadsTo_of_append {t : FileTree} {front back place : List String}
    {entries : List (String × Entry)} (h : t.LeadsTo (front ++ back) place (.folder entries)) :
    ∃ there entries', t.LeadsTo front there (.folder entries') := by
  obtain ⟨hnameable, ⟨k, hwalks⟩, hat⟩ := leadsTo_iff.mp h
  obtain ⟨k', there, entries', hthere, -⟩ :=
    exists_leadsTo_of_walks hnameable hwalks (Nat.zero_le _) hat
  exact ⟨there, entries', hthere⟩

namespace FileTree.LeadsTo

variable {t : FileTree} {path place : List String} {e : Entry}

/-- Without links a path leads to the place that its names spell, seen from anywhere. -/
theorem place_eq (h : t.LeadsTo path place e) (hlinks : t.top.HasNoLink) (base : List String) :
    Path.withoutDots base path = base ++ place := by
  obtain ⟨-, ⟨k, hwalks⟩, -⟩ := leadsTo_iff.mp h
  have heq := hwalks.withoutDots_eq hlinks base
  rwa [List.append_nil, Path.withoutDots] at heq

/-- Without links the place itself can be asked for. -/
theorem of_place (h : t.LeadsTo path place e) (hlinks : t.top.HasNoLink) : t.LeadsTo place place e := by
  obtain ⟨⟨hnull, hsize⟩, ⟨k, hwalks⟩, hat⟩ := leadsTo_iff.mp h
  have hshorter : place.Sublist path := by
    have hsublist := Path.withoutDots_sublist [] path
    rwa [h.place_eq hlinks [], List.nil_append, List.nil_append] at hsublist
  refine leadsTo_of_names hat (fun target htarget => hlinks place target (htarget ▸ hat)) ?_ ?_
  · intro name hname
    rcases hwalks.names_of_hasNoLink hlinks name hname with hdone | ⟨htodo, hdots, hshort⟩
    · cases hdone
    · have hnull := List.any_eq_false.mp hnull name htodo
      exact ⟨hdots, Bool.eq_false_iff.mpr hnull, hshort⟩
  · exact fun hlong => hsize (Nat.lt_of_lt_of_le hlong (Path.size_join_le t.name hshorter))

end FileTree.LeadsTo

/-! ### Reading -/

namespace Review

variable {σ : Type} {w : Workshop σ} {t : FileTree} {project path folder : String}
  {place output : List String} {content : ByteArray}

/-- The path leads strictly below the folder of the project, by its names. -/
def LeadsInside (t : FileTree) (project path : String) : Prop :=
  ∃ below, below ≠ [] ∧
    Path.withoutDots t.location (Workshop.folderOf project ++ Path.parts path) =
      Path.withoutDots t.location (Workshop.folderOf project) ++ below

theorem leadsInside_iff : LeadsInside t project path ↔
    ((Path.withoutDots t.location (Workshop.folderOf project)).isPrefixOf
        (Path.withoutDots t.location (Workshop.folderOf project ++ Path.parts path)) &&
      decide ((Path.withoutDots t.location (Workshop.folderOf project)).length <
        (Path.withoutDots t.location (Workshop.folderOf project ++ Path.parts path)).length)) =
      true := by
  rw [Bool.and_eq_true, List.isPrefixOf_iff_prefix, decide_eq_true_eq]
  constructor
  · rintro ⟨below, hne, heq⟩
    rw [heq, List.length_append]
    exact ⟨List.prefix_append _ _, Nat.lt_add_of_pos_right (List.length_pos_iff.mpr hne)⟩
  · rintro ⟨⟨below, heq⟩, hlt⟩
    refine ⟨below, ?_, heq.symm⟩
    rintro rfl
    rw [← heq, List.append_nil] at hlt
    exact Nat.lt_irrefl _ hlt

/-- A path without two dots that has a name leads inside. -/
theorem leadsInside_of_not_mem (hne : Path.parts path ≠ []) (hdots : ".." ∉ Path.parts path) :
    LeadsInside t project path := by
  refine ⟨Path.parts path, hne, ?_⟩
  rw [Path.withoutDots_append, Path.withoutDots_of_not_mem hdots]

/-- A text whose names can be asked for has no null character. -/
theorem null_not_mem {front : List String}
    (h : ((front ++ Path.parts path).any fun name => name.toList.contains '\x00') = false) :
    '\x00' ∉ path.toList := by
  intro hnull
  obtain ⟨name, hname, hmem⟩ := Path.exists_null hnull
  exact List.any_eq_false.mp h name (List.mem_append_right _ hname) (by simpa using hmem)

/-- **A file that is there is read if its place is strictly below the folder of the project**, and
refused if not. -/
theorem read_of_leadsTo (hlinks : w.tree.top.HasNoLink) (hproject : Path.isAbsolute project = false)
    (hpath : Path.isAbsolute path = false)
    (hleads : w.tree.LeadsTo (Workshop.folderOf project ++ Path.parts path) place (.file content)) :
    (LeadsInside w.tree project path → read project path w =
        .ok (Text.withLineFeeds (Text.Utf8.decodeLenient content))) ∧
      (¬ LeadsInside w.tree project path → read project path w = .error (.outside path)) := by
  obtain ⟨hnull, -⟩ := (FileTree.leadsTo_iff.mp hleads).1
  have hnullProject : '\x00' ∉ project.toList := by
    refine @null_not_mem project [] ?_
    rw [List.any_append, Bool.or_eq_false_iff] at hnull
    exact hnull.1
  have hfrom : ∀ names, Path.withoutDots [] (w.tree.location ++ names) =
      Path.withoutDots w.tree.location names := by
    intro names
    rw [Path.withoutDots_append, Path.withoutDots_of_not_mem w.tree.dots_not_mem_location,
      List.nil_append]
  have htop : seenFrom w.tree w.tree.location project =
      .ok (Path.withoutDots w.tree.location (Workshop.folderOf project)) := by
    rw [seenFrom_of_hasNoLink hlinks hnullProject, hproject, if_neg Bool.false_ne_true]
    exact congrArg Except.ok (hfrom _)
  have hseen : seenFrom w.tree (Path.withoutDots w.tree.location (Workshop.folderOf project)) path =
      .ok (Path.withoutDots w.tree.location (Workshop.folderOf project ++ Path.parts path)) := by
    have hplain : ".." ∉ Path.withoutDots w.tree.location (Workshop.folderOf project) :=
      Path.dots_not_mem_withoutDots w.tree.dots_not_mem_location
    rw [seenFrom_of_hasNoLink hlinks (null_not_mem hnull), hpath, if_neg Bool.false_ne_true,
      Path.withoutDots_append, Path.withoutDots_of_not_mem hplain, List.nil_append,
      Path.withoutDots_append]
  have hplace : place? w project path = if
      ((Path.withoutDots w.tree.location (Workshop.folderOf project)).isPrefixOf
        (Path.withoutDots w.tree.location (Workshop.folderOf project ++ Path.parts path)) &&
      decide ((Path.withoutDots w.tree.location (Workshop.folderOf project)).length <
        (Path.withoutDots w.tree.location (Workshop.folderOf project ++ Path.parts path)).length))
      then .ok (Path.withoutDots w.tree.location (Workshop.folderOf project ++ Path.parts path))
      else .error (.outside path) := by
    unfold place?
    rw [htop]
    show (seenFrom w.tree _ path).bind _ = _
    rw [hseen]
    rfl
  constructor
  · intro hinside
    unfold read
    rw [hplace, if_pos (leadsInside_iff.mp hinside), hleads.place_eq hlinks]
    simp only [bind, Except.bind, w.tree.inside?_location_append]
    have hthere := hleads.of_place hlinks
    show textAt w.tree path place = _
    unfold textAt
    rw [hthere.leadsToFile_eq, hthere.read_eq]
    rfl
  · intro houtside
    unfold read
    rw [hplace, if_neg (mt leadsInside_iff.mpr houtside)]
    rfl

/-! ### What is listed -/

theorem mem_codeIn_iff {path : List String} : path ∈ codeIn t output folder ↔
    (∃ below ∈ Discovery.files [] (output ++ [folder]) t, path = folder :: below) ∧
      codeSuffixes.contains (Path.suffix (path.getLastD "")) = true ∧
      t.isFile (output ++ path) = true := by
  unfold codeIn
  dsimp only
  rw [List.mem_mergeSort, List.mem_filter, List.mem_map, Bool.and_eq_true]
  exact and_congr_left' ⟨fun ⟨below, hbelow, heq⟩ => ⟨below, hbelow, heq.symm⟩,
    fun ⟨below, hbelow, heq⟩ => ⟨below, hbelow, heq.symm⟩⟩

/-- What is listed is a file, and its names stand for themselves. -/
theorem leadsTo_of_mem_codeIn {path : List String} (hsound : t.top.IsSound)
    (hlinks : t.top.HasNoLink) (hnames : t.top.HasNames)
    (hfolder : Path.IsName folder ∧ Path.IsProper folder) (h : path ∈ codeIn t output folder) :
    (∀ name ∈ path, Path.IsName name ∧ Path.IsProper name) ∧
      ∃ place content, t.LeadsTo (output ++ path) place (.file content) := by
  obtain ⟨⟨below, hbelow, rfl⟩, -, hfile⟩ := mem_codeIn_iff.mp h
  constructor
  · obtain ⟨place, entries, hleads, name, rest, e, hsplit, -, hat, -⟩ :=
      (Discovery.mem_files_iff hsound).mp hbelow
    have hthere : t.top.at? (place ++ below) = some e := by
      rw [Entry.at?_append, (FileTree.leadsTo_iff.mp hleads).2.2, hsplit]
      exact hat
    refine List.forall_mem_cons.mpr ⟨hfolder, fun n hn => ?_⟩
    exact ⟨(hsound.at? hthere).2 n (List.mem_append_right _ hn),
      hnames _ e hthere n (List.mem_append_right _ hn)⟩
  · unfold FileTree.isFile at hfile
    split at hfile
    · rename_i place e k hspot
      have hleads : t.LeadsTo (output ++ folder :: below) place e := ⟨k, hspot⟩
      cases e with
      | file content => exact ⟨place, content, hleads⟩
      | folder entries => cases hfile
      | link target => exact absurd (FileTree.leadsTo_iff.mp hleads).2.2 (hlinks _ _)
    · cases hfile

/-- A file in a folder of the skeleton is listed if it has a suffix of code. -/
theorem mem_codeIn_of_leadsTo {name : String} (hsound : t.top.IsSound) (hlinks : t.top.HasNoLink)
    (hfolder : t.isFolder (output ++ [folder]) = true) (hdots : name ≠ "..")
    (hsuffix : codeSuffixes.contains (Path.suffix name) = true)
    (hleads : t.LeadsTo (output ++ [folder, name]) place (.file content)) :
    [folder, name] ∈ codeIn t output folder := by
  obtain ⟨there, entries, hinner⟩ := FileTree.isFolder_iff.mp hfolder
  have hpath : output ++ [folder, name] = output ++ [folder] ++ [name] := by simp
  have hbelow : (Entry.folder entries).HasNoLink := by
    intro below target hlink
    refine hlinks (there ++ below) target ?_
    rw [Entry.at?_append, (FileTree.leadsTo_iff.mp hinner).2.2]
    exact hlink
  have hdots' : ".." ∉ [name] := by simpa using Ne.symm hdots
  obtain rfl := hinner.place_of_hasNoLink hbelow hdots' (hpath ▸ hleads)
  have hat := (FileTree.leadsTo_iff.mp hleads).2.2
  rw [Entry.at?_append, (FileTree.leadsTo_iff.mp hinner).2.2] at hat
  refine mem_codeIn_iff.mpr ⟨⟨[name], ?_, rfl⟩, hsuffix, ?_⟩
  · exact (Discovery.mem_files_iff hsound).mpr
      ⟨there, entries, hinner, name, [], _, rfl, by simp, hat, trivial⟩
  · obtain ⟨k, hspot⟩ := hleads
    unfold FileTree.isFile
    rw [hspot]
    rfl

end Review

end PhpMigration
