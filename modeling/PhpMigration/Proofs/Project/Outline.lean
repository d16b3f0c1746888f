/-
The outline of a folder and the files that are found in it.

A search and an outline go through the same folders, each in an order of its own, and leave out the
same ones.  Where there are no links, an entry counts as a file for one if it does for the other, so
the files that are found have the paths of the files in the outline (`filesOf_nodesOf_perm`); the
names are told apart by both, as no folder holds one of them twice.

An outline is orderly: each node has the path of the node above it with its own name behind a slash,
and beside each other folders come before files, each in the order of the names
(`areOrderly_ofFolder`).
-/
import PhpMigration.Project.Outline
import PhpMigration.Proofs.Project.Begin
import PhpMigration.Proofs.Project.Rediscovery

namespace PhpMigration

/-! ### Folders without links -/

namespace Entry

/-- Names that are different and stand for themselves, and no link. -/
structure IsPlain (e : Entry) : Prop where
  sound : e.IsSound
  names : e.HasNames
  links : e.HasNoLink

variable {name : String} {e : Entry} {rest : List (String × Entry)} {path : List String}

theorem at?_cons_self : (folder ((name, e) :: rest)).at? (name :: path) = e.at? path := by
  rw [at?, Table.find?_cons, if_pos rfl, Option.bind_some]

theorem at?_cons_of_not_mem {n : String} {e' : Entry} (hname : name ∉ Table.names rest)
    (h : (folder rest).at? (n :: path) = some e') :
    (folder ((name, e) :: rest)).at? (n :: path) = some e' := by
  obtain ⟨inner, hinner, hpath⟩ := Option.bind_eq_some_iff.mp h
  have hn : n ≠ name := by
    rintro rfl
    exact hname (List.mem_map_of_mem (Table.mem_of_find? hinner))
  rw [at?, Table.find?_cons, if_neg hn, hinner]
  exact hpath

theorem IsPlain.nodup {entries : List (String × Entry)} (h : (folder entries).IsPlain) :
    (Table.names entries).Nodup := by
  have hsound := h.sound
  rw [IsSound] at hsound
  exact hsound.1

/-- What a plain folder holds is plain, and so is the folder without its first entry. -/
theorem IsPlain.cons (h : (folder ((name, e) :: rest)).IsPlain) :
    Path.IsProper name ∧ e.IsPlain ∧ (folder rest).IsPlain := by
  obtain ⟨hsound, hnames, hlinks⟩ := h
  rw [IsSound, EachSound] at hsound
  obtain ⟨hnodup, -, he, hrest⟩ := hsound
  obtain ⟨hname, hnodup⟩ := List.nodup_cons.mp hnodup
  have hproper : Path.IsProper name := hnames [name] e at?_cons_self name List.mem_cons_self
  refine ⟨hproper, ⟨he, ?_, ?_⟩, ⟨?_, ?_, ?_⟩⟩
  · intro path e' hat n hn
    exact hnames (name :: path) e' (at?_cons_self.trans hat) n (List.mem_cons_of_mem _ hn)
  · intro path target hat
    exact hlinks (name :: path) target (at?_cons_self.trans hat)
  · rw [IsSound]
    exact ⟨hnodup, hrest⟩
  · intro path e' hat
    cases path with
    | nil => simp
    | cons n more => exact hnames (n :: more) e' (at?_cons_of_not_mem hname hat)
  · intro path target hat
    cases path with
    | nil => cases hat
    | cons n more => exact hlinks (n :: more) target (at?_cons_of_not_mem hname hat)

/-- Induction over what a plain folder holds: its first entry, which is a file or again such a
folder, and the others. -/
theorem IsPlain.induction {motive : ∀ entries, (Entry.folder entries).IsPlain → Prop}
    (nil : ∀ h, motive [] h)
    (file : ∀ name content rest h, motive rest (cons h).2.2 →
      motive ((name, .file content) :: rest) h)
    (folder : ∀ name inner rest h, motive inner (cons h).2.1 → motive rest (cons h).2.2 →
      motive ((name, .folder inner) :: rest) h) :
    ∀ entries (h : (Entry.folder entries).IsPlain), motive entries h
  | [], h => nil h
  | (name, .file content) :: rest, h => file name content rest h
      (IsPlain.induction nil file folder rest h.cons.2.2)
  | (name, .folder inner) :: rest, h => folder name inner rest h
      (IsPlain.induction nil file folder inner h.cons.2.1)
      (IsPlain.induction nil file folder rest h.cons.2.2)
  | (name, .link target) :: rest, h => absurd rfl (h.cons.2.1.links [] target)
  termination_by entries => sizeOf entries

end Entry

/-! ### The nodes of an outline -/

namespace OutlineNode

/-- The path of a node. -/
def path : OutlineNode → String
  | .file _ path => path
  | .folder _ path _ => path

mutual

/-- The names and the paths of the files that a node is, or that are below it. -/
def files : OutlineNode → List (String × String)
  | .file name path => [(name, path)]
  | .folder _ _ children => filesOf children

/-- The names and the paths of the files of some nodes. -/
def filesOf : List OutlineNode → List (String × String)
  | [] => []
  | node :: rest => node.files ++ filesOf rest

end

/-- A folder comes before a file, and otherwise the smaller name before the greater one. -/
def Precedes (a b : OutlineNode) : Prop :=
  a.isFile = false ∧ b.isFile = true ∨ a.isFile = b.isFile ∧ a.name < b.name

/-- The path of a name; below a node it is the path of the node, a slash and the name. -/
def pathBelow : Option String → String → String
  | none, name => name
  | some parent, name => parent ++ "/" ++ name

mutual

/-- A node has the path of its name, and what is below it is in order and has such paths too. -/
def IsOrderly (parent : Option String) : OutlineNode → Prop
  | .file name path => path = pathBelow parent name
  | .folder name path children => path = pathBelow parent name ∧ AreOrderly (some path) children

/-- Nodes that stand beside each other are in order, and each is orderly. -/
def AreOrderly (parent : Option String) : List OutlineNode → Prop
  | [] => True
  | node :: rest =>
    node.IsOrderly parent ∧ (∀ other ∈ rest, node.Precedes other) ∧ AreOrderly parent rest

end

variable {nodes nodes' : List OutlineNode} {parent : Option String}

theorem filesOf_eq_flatMap (nodes : List OutlineNode) : filesOf nodes = nodes.flatMap files := by
  induction nodes with
  | nil => rw [filesOf, List.flatMap_nil]
  | cons node rest ih => rw [filesOf, ih, List.flatMap_cons]

theorem filesOf_perm (h : nodes.Perm nodes') : (filesOf nodes).Perm (filesOf nodes') := by
  rw [filesOf_eq_flatMap, filesOf_eq_flatMap]
  exact h.flatMap_right files

theorem areOrderly_iff : AreOrderly parent nodes ↔
    nodes.Pairwise Precedes ∧ ∀ node ∈ nodes, node.IsOrderly parent := by
  induction nodes with
  | nil => simp [AreOrderly]
  | cons node rest ih =>
      rw [AreOrderly, ih, List.pairwise_cons, List.forall_mem_cons]
      exact ⟨fun ⟨hnode, hfirst, hrest, hall⟩ => ⟨⟨hfirst, hrest⟩, hnode, hall⟩,
        fun ⟨⟨hfirst, hrest⟩, hnode, hall⟩ => ⟨hnode, hfirst, hrest, hall⟩⟩

theorem comesBefore_trans (a b c : OutlineNode) (hab : a.comesBefore b = true)
    (hbc : b.comesBefore c = true) : a.comesBefore c = true := by
  unfold comesBefore at *
  cases ha : a.isFile <;> cases hb : b.isFile <;> cases hc : c.isFile <;> simp_all
  all_goals exact String.le_trans hab hbc

theorem comesBefore_total (a b : OutlineNode) : (a.comesBefore b || b.comesBefore a) = true := by
  unfold comesBefore
  cases ha : a.isFile <;> cases hb : b.isFile <;> simp [String.le_total]

/-- Nodes of different names are in order when they have been sorted. -/
theorem pairwise_mergeSort_comesBefore (h : (nodes.map name).Nodup) :
    (nodes.mergeSort comesBefore).Pairwise Precedes := by
  have hne : (nodes.mergeSort comesBefore).Pairwise fun a b => a.name ≠ b.name :=
    List.pairwise_map.mp (((List.mergeSort_perm nodes comesBefore).map name).nodup_iff.mpr h)
  refine ((List.pairwise_mergeSort comesBefore_trans comesBefore_total nodes).and hne).imp ?_
  rintro a b ⟨hbefore, hname⟩
  rw [comesBefore] at hbefore
  by_cases hkind : a.isFile = b.isFile
  · rw [if_pos hkind] at hbefore
    refine .inr ⟨hkind, ?_⟩
    by_contra hnot
    exact hname (String.le_antisymm (of_decide_eq_true hbefore) (String.not_lt.mp hnot))
  · rw [if_neg hkind] at hbefore
    rw [hbefore] at hkind
    exact .inl ⟨Bool.eq_false_iff.mpr hkind, hbefore⟩

theorem areOrderly_mergeSort (hnames : (nodes.map name).Nodup)
    (h : ∀ node ∈ nodes, node.IsOrderly parent) :
    AreOrderly parent (nodes.mergeSort comesBefore) :=
  areOrderly_iff.mpr ⟨pairwise_mergeSort_comesBefore hnames,
    fun node hnode => h node (List.mem_mergeSort.mp hnode)⟩

end OutlineNode

namespace Outline

open OutlineNode

variable {top : Entry} {skipped : List String} {links : Nat} {entries : List (String × Entry)}

/-! ### Order -/

/-- An entry has one node or none, which goes by its name. -/
theorem nodeOf_cases (top : Entry) (skipped : List String) (links : Nat) (base name : String)
    (e : Entry) : nodeOf top skipped links base name e = [] ∨
      ∃ node : OutlineNode, nodeOf top skipped links base name e = [node] ∧ node.name = name := by
  fun_cases nodeOf top skipped links base name e with
  | case2 | case5 => exact .inl rfl
  | case1 | case3 | case4 | case6 | case7 => exact .inr ⟨_, rfl, rfl⟩

theorem names_nodesOf (top : Entry) (skipped : List String) (links : Nat) (base : String)
    (entries : List (String × Entry)) :
    ((nodesOf top skipped links base entries).map OutlineNode.name).Sublist
      (Table.names entries) := by
  induction entries with
  | nil => simp [nodesOf]
  | cons entry rest ih =>
      obtain ⟨name, e⟩ := entry
      rw [nodesOf]
      rcases nodeOf_cases top skipped links base name e with hnone | ⟨node, hone, rfl⟩
      · rw [hnone]
        exact ih.cons _
      · rw [hone]
        exact ih.cons_cons _

/-- The path that an outline begins with is empty. -/
theorem pathIn_getD {parent : Option String} (hparent : parent ≠ some "") (name : String) :
    pathIn (parent.getD "") name = pathBelow parent name := by
  cases parent with
  | none => rfl
  | some path =>
      have hpath : path.isEmpty = false := by simpa using hparent
      rw [Option.getD_some, pathIn, hpath]
      rfl

theorem pathBelow_ne {parent : Option String} {name : String} (hname : name ≠ "") :
    some (pathBelow parent name) ≠ some "" := by
  cases parent <;> simp [pathBelow, hname]

theorem isOrderly_nodesOf (h : (Entry.folder entries).IsPlain) {parent : Option String}
    (hparent : parent ≠ some "") : ∀ node ∈ nodesOf top skipped links (parent.getD "") entries,
      node.IsOrderly parent := by
  induction entries, h using Entry.IsPlain.induction generalizing parent with
  | nil h => simp [nodesOf]
  | file name content rest h ih =>
      rw [nodesOf, nodeOf, pathIn_getD hparent]
      refine List.forall_mem_cons.mpr ⟨?_, ih hparent⟩
      rw [IsOrderly]
  | folder name inner rest h ihinner ih =>
      obtain ⟨hname, hinner, -⟩ := h.cons
      rw [nodesOf, nodeOf, pathIn_getD hparent]
      split
      · exact ih hparent
      · refine List.forall_mem_cons.mpr ⟨?_, ih hparent⟩
        rw [IsOrderly]
        refine ⟨rfl, areOrderly_mergeSort ?_ (ihinner (pathBelow_ne hname.1))⟩
        exact hinner.nodup.sublist (names_nodesOf top skipped links _ inner)

/-- **An outline is in order at every level, and its nodes have the paths of their names.** -/
theorem areOrderly_ofFolder {folder place : List String} {t : FileTree}
    (hleads : t.LeadsTo folder place (.folder entries)) (h : (Entry.folder entries).IsPlain) :
    AreOrderly none (ofFolder skipped folder t) := by
  obtain ⟨links, hspot⟩ := hleads
  rw [ofFolder, hspot]
  have hroot : (none : Option String) ≠ some "" := by simp
  refine areOrderly_mergeSort ?_ (isOrderly_nodesOf h hroot)
  exact h.nodup.sublist (names_nodesOf t.top skipped links "" entries)

/-! ### Files -/

theorem join_concat {path : List String} (hpath : ∀ n ∈ path, n ≠ "") (name : String) :
    Path.join (path ++ [name]) = pathIn (Path.join path) name := by
  cases path with
  | nil => exact String.intercalate_singleton
  | cons first rest =>
      have hne : (Path.join (first :: rest)).isEmpty = false := by
        have hfirst := hpath first List.mem_cons_self
        cases rest <;> simp [Path.join, hfirst]
      rw [pathIn, hne, Path.join,
        String.intercalate_append_of_ne_nil (List.cons_ne_nil _ _) (List.cons_ne_nil _ _),
        String.intercalate_singleton]
      rfl

/-- **The files of an outline are the files that are found**, each with its name and its path. -/
theorem filesOf_nodesOf_perm (h : (Entry.folder entries).IsPlain)
    (leadsToFolder : List String → Bool) {path : List String} (hpath : ∀ n ∈ path, n ≠ "") :
    (filesOf (nodesOf top skipped links (Path.join path) entries)).Perm
      (((Discovery.foundIn skipped leadsToFolder path entries).flatMap Discovery.Found.files).map
        fun file => (file.getLastD "", Path.join file)) := by
  induction entries, h using Entry.IsPlain.induction generalizing path with
  | nil h =>
      rw [nodesOf, Discovery.foundIn, filesOf]
      exact .nil
  | file name content rest h ih =>
      rw [nodesOf, nodeOf, Discovery.foundIn, ← join_concat hpath]
      simpa [filesOf, files] using ih hpath
  | folder name inner rest h ihinner ih =>
      rw [nodesOf, nodeOf, Discovery.foundIn, ← join_concat hpath]
      dsimp only
      split
      · exact ih hpath
      · rw [List.flatMap_cons, List.map_append, List.singleton_append, filesOf, files]
        refine .append ?_ (ih hpath)
        have hpath' : ∀ n ∈ path ++ [name], n ≠ "" := List.forall_mem_append.mpr
          ⟨hpath, List.forall_mem_singleton.mpr h.cons.1.1⟩
        exact (filesOf_perm (List.mergeSort_perm _ _)).trans ((ihinner hpath').trans
          ((Discovery.inOrder_perm _).map _).symm)

/-- The file is at the end of a way through folders that are not skipped. -/
theorem mem_filesBelow_iff (h : (Entry.folder entries).IsPlain)
    (leadsToFolder : List String → Bool) (file : List String) :
    file ∈ Discovery.filesBelow skipped leadsToFolder [] (.folder entries) ↔
      (∃ content, (Entry.folder entries).at? file = some (.file content)) ∧
        ∀ name ∈ file.dropLast, name ∉ skipped := by
  rw [Discovery.mem_filesBelow_iff h.sound]
  constructor
  · rintro ⟨name, rest, e, rfl, hnames, hat, hleaf⟩
    rw [List.nil_append] at *
    refine ⟨?_, fun n hn => by simpa using hnames n hn⟩
    cases e with
    | file content => exact ⟨content, hat⟩
    | folder inner => exact hleaf.elim
    | link target => exact absurd hat (h.links _ target)
  · rintro ⟨⟨content, hat⟩, hnames⟩
    cases file with
    | nil => cases hat
    | cons name rest =>
        exact ⟨name, rest, .file content, rfl, fun n hn => by simpa using hnames n hn, hat, trivial⟩

/-- **A search and an outline see the same project.**  The files that are found below a folder
without links are those with a suffix that is asked for and no skipped folder on the way to them;
each is found once, the files of a folder before those of the folders in it and all in the order of
the names.  They are the files with such a suffix of the outline, which is in order at every level
and gives each node the path of its name. -/
theorem lists_sources {s : Settings} {extensions skipped folder place : List String} {t : FileTree}
    {entries : List (String × Entry)} (hsuffixes : s.suffixes = .ok (extensions.map Text.lower))
    (hskipped : s.skipped = .ok skipped) (hleads : t.LeadsTo folder place (.folder entries))
    (hplain : (Entry.folder entries).IsPlain) :
    ∃ found, Discovery.sources s folder t = .ok found ∧
      found.Nodup ∧ found.Pairwise Discovery.Before ∧
      (∀ file, file ∈ found ↔
        (∃ content, (Entry.folder entries).at? file = some (.file content)) ∧
          Text.lower (Path.suffix (file.getLastD "")) ∈ extensions.map Text.lower ∧
          ∀ name ∈ file.dropLast, name ∉ skipped) ∧
      (found.map Path.join).Perm (((filesOf (ofFolder skipped folder t)).filter fun node =>
        Text.lower (Path.suffix node.1) ∈ extensions.map Text.lower).map Prod.snd) ∧
      AreOrderly none (ofFolder skipped folder t) := by
  have hordered : AreOrderly none (ofFolder skipped folder t) := areOrderly_ofFolder hleads hplain
  obtain ⟨links, hspot⟩ := hleads
  obtain ⟨leads, hleads⟩ : ∃ leads, leads = fun path => t.isFolder (folder ++ path) := ⟨_, rfl⟩
  obtain ⟨below, hbelow⟩ : ∃ below, below =
      Discovery.filesBelow skipped leads [] (.folder entries) := ⟨_, rfl⟩
  have hsources : Discovery.sources s folder t =
      .ok (below.filter fun file => Discovery.hasSuffix (extensions.map Text.lower)
        (file.getLastD "")) := by
    rw [Discovery.sources, hsuffixes, hskipped, hbelow, hleads]
    simp only [Discovery.files, hspot]
    rfl
  have hpairwise : below.Pairwise Discovery.Before := by
    rw [hbelow]
    exact Discovery.pairwise_filesBelow skipped leads hplain.sound
  refine ⟨_, hsources, ?_, hpairwise.filter _, ?_, ?_, hordered⟩
  · refine (hpairwise.filter _).imp fun {a b} hab heq => ?_
    subst heq
    exact hab.asymm hab
  · intro file
    rw [List.mem_filter, hbelow, mem_filesBelow_iff hplain, Discovery.hasSuffix, List.contains_iff_mem]
    exact ⟨fun ⟨⟨hfile, hnames⟩, hsuffix⟩ => ⟨hfile, hsuffix, hnames⟩,
      fun ⟨hfile, hsuffix, hnames⟩ => ⟨⟨hfile, hnames⟩, hsuffix⟩⟩
  · have hfiles : (filesOf (ofFolder skipped folder t)).Perm
        (below.map fun file => (file.getLastD "", Path.join file)) := by
      rw [ofFolder, hspot, hbelow, Discovery.filesBelow]
      have hroot : ∀ n ∈ ([] : List String), n ≠ "" := by simp
      refine (filesOf_perm (List.mergeSort_perm _ _)).trans ?_
      exact (filesOf_nodesOf_perm hplain leads hroot).trans
        ((Discovery.inOrder_perm _).map _).symm
    refine (((hfiles.filter _).map Prod.snd).trans (.of_eq ?_)).symm
    rw [List.filter_map, List.map_map]
    refine congrArg (List.map Path.join) (List.filter_congr fun file _ => ?_)
    rw [Bool.eq_iff_iff, Discovery.hasSuffix, List.contains_iff_mem]
    exact decide_eq_true_iff

/-- A project with a folder that is skipped, a file that goes by the same name, and a file whose
suffix is in capitals. -/
def nested : List (String × Entry) :=
  [("old.php", .folder [("gone.php", .file ByteArray.empty)]),
    ("lib", .folder [("old.php", .file ByteArray.empty), ("notes.txt", .file ByteArray.empty)]),
    ("b.PHP", .file ByteArray.empty)]

theorem isPlain_nested : (Entry.folder nested).IsPlain where
  sound := by
    simp only [nested, Entry.IsSound, EachSound, Table.names, List.map]
    decide
  names := by
    have hfile : (Entry.file ByteArray.empty).HasNames := Entry.IsBare.hasNames trivial
    refine Entry.hasNames_folder ?_
    simp only [nested, List.forall_mem_cons, Path.IsProper]
    refine ⟨⟨by decide, Entry.hasNames_folder ?_⟩, ⟨by decide, Entry.hasNames_folder ?_⟩,
      ⟨by decide, hfile⟩, by simp⟩ <;> simp [hfile, Path.IsProper]
  links := by
    have hfile := Entry.hasNoLink_file ByteArray.empty
    refine Entry.hasNoLink_folder ?_
    simp only [nested, List.forall_mem_cons]
    refine ⟨Entry.hasNoLink_folder ?_, Entry.hasNoLink_folder ?_, hfile, by simp⟩ <;> simp [hfile]

theorem lists_sources_nested : ∃ found,
    (Entry.folder nested).IsPlain ∧
    Discovery.sources { Settings.small with suffixes := .ok [".php"], skipped := .ok ["old.php"] }
      ["demo"] ⟨"uploads", .folder [("demo", .folder nested)]⟩ = .ok found ∧
    found.Nodup ∧ found.Pairwise Discovery.Before ∧ ["b.PHP"] ∈ found ∧ ["lib", "old.php"] ∈ found ∧
    (found.map Path.join).Perm (((filesOf (ofFolder ["old.php"] ["demo"]
      ⟨"uploads", .folder [("demo", .folder nested)]⟩)).filter fun node =>
        Text.lower (Path.suffix node.1) ∈ [".Php"].map Text.lower).map Prod.snd) ∧
    AreOrderly none (ofFolder ["old.php"] ["demo"] ⟨"uploads", .folder [("demo", .folder nested)]⟩) := by
  have hleads : FileTree.LeadsTo ⟨"uploads", .folder [("demo", .folder nested)]⟩ ["demo"] ["demo"]
      (.folder nested) :=
    FileTree.leadsTo_of_names rfl (fun target h => by cases h) (by decide) (by decide)
  have hsuffixes : (Except.ok [".php"] : Except SettingsFault _) =
      .ok ([".Php"].map Text.lower) := by decide
  obtain ⟨found, hfound, hnodup, hordered, hmem, hfiles, hnodes⟩ :=
    lists_sources (s := { Settings.small with suffixes := .ok [".php"], skipped := .ok ["old.php"] })
      hsuffixes rfl hleads isPlain_nested
  refine ⟨found, isPlain_nested, hfound, hnodup, hordered, (hmem _).mpr ⟨⟨_, rfl⟩, ?_, ?_⟩,
    (hmem _).mpr ⟨⟨_, rfl⟩, ?_, ?_⟩, hfiles, hnodes⟩ <;> decide

end Outline

end PhpMigration
