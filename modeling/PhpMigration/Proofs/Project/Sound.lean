/-
What stays while folders are made and files are written.

All that a conversion does to a tree is to put empty folders and files where paths lead.  So a
property of trees stays if that keeps it (`FileTree.StaysWhenPut`), whatever is made and written.

In a sound tree the names in a folder are all different and none of them holds a slash
(`Entry.IsSound`).  A tree stays sound, because what is added is added under the last name of a path,
or under one that a link leads to, and those hold no slash either (`isSound_stays`).  Where there are
no links it is always the last name of a path, so that every name goes on to stand for itself
(`Entry.HasNames`, `hasNames_stays`).
-/
import PhpMigration.Proofs.Project.Skeleton

namespace PhpMigration

mutual

/-- The names in each folder are different, and neither they nor those that links lead to hold a
slash. -/
def Entry.IsSound : Entry → Prop
  | .file _ => True
  | .link target => ∀ name ∈ target, Path.IsName name
  | .folder entries => (Table.names entries).Nodup ∧ EachSound entries

/-- All of some entries have names and are sound. -/
def EachSound : List (String × Entry) → Prop
  | [] => True
  | (name, e) :: rest => Path.IsName name ∧ e.IsSound ∧ EachSound rest

end

theorem eachSound_iff {entries : List (String × Entry)} :
    EachSound entries ↔ ∀ entry ∈ entries, Path.IsName entry.1 ∧ entry.2.IsSound := by
  induction entries with
  | nil => simp [EachSound]
  | cons entry rest ih =>
      obtain ⟨name, e⟩ := entry
      rw [EachSound, ih]
      simp [and_assoc]

/-- Everything in a sound entry is sound, and is reached by names. -/
theorem Entry.IsSound.at? {e e' : Entry} {path : List String} (h : e.IsSound)
    (hat : e.at? path = some e') : e'.IsSound ∧ ∀ name ∈ path, Path.IsName name := by
  induction path generalizing e with
  | nil =>
      rw [Entry.at?] at hat
      cases hat
      exact ⟨h, by simp⟩
  | cons name rest ih =>
      cases e with
      | file content => cases hat
      | link target => cases hat
      | folder entries =>
          rw [Entry.at?] at hat
          obtain ⟨inner, hinner, hrest⟩ := Option.bind_eq_some_iff.mp hat
          rw [Entry.IsSound] at h
          obtain ⟨hname, hsound⟩ := eachSound_iff.mp h.2 _ (Table.mem_of_find? hinner)
          obtain ⟨he', hnames⟩ := ih hsound hrest
          refine ⟨he', ?_⟩
          intro n hn
          rcases List.mem_cons.mp hn with rfl | hn
          · exact hname
          · exact hnames n hn

namespace Entry

theorem isSound_folder_nil : IsSound (.folder []) := by
  rw [IsSound, EachSound]
  exact ⟨List.nodup_nil, trivial⟩

theorem IsSound.set {entries : List (String × Entry)} (h : IsSound (.folder entries))
    {name : String} (hname : Path.IsName name) {e : Entry} (he : e.IsSound) :
    IsSound (.folder (Table.set name e entries)) := by
  rw [IsSound] at h ⊢
  refine ⟨Table.nodup_names_set h.1 name e, eachSound_iff.mpr ?_⟩
  intro entry hentry
  rcases Table.mem_set hentry with rfl | hentry
  · exact ⟨hname, he⟩
  · exact eachSound_iff.mp h.2 entry hentry

theorem IsSound.put {top new : Entry} {place : List String} (h : top.IsSound) (hnew : new.IsSound)
    (hplace : ∀ name ∈ place, Path.IsName name) : (Entry.put new place top).IsSound := by
  induction place generalizing top with
  | nil => rwa [Entry.put]
  | cons name rest ih =>
      obtain ⟨hname, hrest⟩ := List.forall_mem_cons.mp hplace
      cases top with
      | file content => exact h
      | link target => exact h
      | folder entries =>
          rw [Entry.put]
          refine h.set hname (ih ?_ hrest)
          cases hfind : Table.find? entries name with
          | none => exact isSound_folder_nil
          | some inner =>
              rw [IsSound] at h
              exact (eachSound_iff.mp h.2 _ (Table.mem_of_find? hfind)).2

/-- What is left to do on a walk has been asked for, or a link leads there. -/
theorem Walks.names {top : Entry} {good : String → Prop} {links k : Nat}
    {done todo place left : List String} (h : Walks top links done todo k place left)
    (hlinks : ∀ place target, top.at? place = some (.link target) → ∀ name ∈ target, good name)
    (htodo : ∀ name ∈ todo, good name) : ∀ name ∈ left, good name := by
  induction h with
  | here => exact htodo
  | back hfolder hne h ih => exact ih (List.forall_mem_cons.mp htodo).2
  | on hfolder hname hsize hfind hlink h ih => exact ih (List.forall_mem_cons.mp htodo).2
  | follow hfolder hname hsize hfind h ih =>
      refine ih ?_
      intro name hmem
      rcases List.mem_append.mp hmem with hmem | hmem
      · exact hlinks _ _ ((at?_snoc hfolder _).trans hfind) name hmem
      · exact (List.forall_mem_cons.mp htodo).2 name hmem

/-- A file, or a folder with nothing in it. -/
def IsBare : Entry → Prop
  | .file _ => True
  | .folder entries => entries = []
  | .link _ => False

theorem IsBare.isSound {e : Entry} (h : e.IsBare) : e.IsSound := by
  cases e with
  | file content =>
      rw [IsSound]
      trivial
  | folder entries =>
      obtain rfl : entries = [] := h
      exact isSound_folder_nil
  | link target => exact h.elim

theorem IsBare.hasNoLink {e : Entry} (h : e.IsBare) : e.HasNoLink := by
  cases e with
  | file content => exact hasNoLink_file content
  | folder entries =>
      obtain rfl : entries = [] := h
      exact hasNoLink_folder_nil
  | link target => exact h.elim

end Entry

namespace FileTree

variable {t t' : FileTree} {path place : List String} {good : String → Prop}
  {P : FileTree → Prop}

/-- A free place has a name that has been asked for, or a link leads there. -/
theorem exists_of_free (hspot : t.spot path = .free place)
    (hlinks : ∀ place target, t.top.at? place = some (.link target) → ∀ name ∈ target, good name)
    (hpath : ∀ name ∈ path, good name) : ∃ front name entries, place = front ++ [name] ∧
      t.top.at? front = some (.folder entries) ∧ good name ∧ name ≠ ".." := by
  obtain ⟨-, front, name, entries, k, rfl, hwalks, hfolder, hdots, -⟩ := ends_of_free hspot
  exact ⟨front, name, entries, rfl, hfolder,
    hwalks.names hlinks hpath name (List.mem_singleton.mpr rfl), hdots⟩

/-! ### Properties that stay -/

/-- A property of trees that is kept when an empty folder or a file is put where a path of good names
leads. -/
structure StaysWhenPut (good : String → Prop) (P : FileTree → Prop) : Prop where
  free : ∀ {t : FileTree} {path place : List String} {new : Entry}, P t →
    (∀ name ∈ path, good name) → t.spot path = .free place → new.IsBare → P (t.put place new)
  found : ∀ {t : FileTree} {path place : List String} {old : ByteArray} {k : Nat}
    (content : ByteArray), P t → (∀ name ∈ path, good name) →
    t.spot path = .found place (.file old) k → P (t.put place (.file content))

namespace StaysWhenPut

theorem makeFolder (hstays : StaysWhenPut good P) (h : P t) (hpath : ∀ name ∈ path, good name)
    (hmade : t.makeFolder path = .ok t') : P t' := by
  cases FileTree.made_of_makeFolder hmade with
  | there => exact h
  | new hfree => exact hstays.free h hpath hfree rfl

theorem makeFolders (hstays : StaysWhenPut good P) (h : P t) (hpath : ∀ name ∈ path, good name) :
    P (t.makeFolders path).2 :=
  FileTree.makeFolders_keeps (fun hfront h hmade =>
    hstays.makeFolder h (fun name hname => hpath name (hfront.subset hname)) hmade) h

theorem write (hstays : StaysWhenPut good P) {content : ByteArray} (h : P t)
    (hpath : ∀ name ∈ path, good name) (hwrite : t.write path content = .ok t') : P t' := by
  cases FileTree.wrote_of_write hwrite with
  | new hfree => exact hstays.free h hpath hfree trivial
  | found hfound => exact hstays.found content h hpath hfound

theorem writeFile (hstays : StaysWhenPut good P) (h : P t) (hpath : ∀ name ∈ path, good name)
    (content : String) : P (Skeleton.writeFile path content t).2 := by
  have hfolders := hstays.makeFolders h
    (fun name hname => hpath name ((List.dropLast_sublist _).subset hname))
  rcases Skeleton.writeFile_cases path content t with ⟨fault, heq⟩ | ⟨t₁, t₂, hmade, hwrite, heq⟩
  · rw [heq]
    exact hfolders
  · rw [heq]
    rw [hmade] at hfolders
    exact hstays.write hfolders hpath hwrite

/-- A skeleton is laid by putting folders and files. -/
theorem lay (hstays : StaysWhenPut good P) (h : P t) (hpath : ∀ name ∈ path, good name)
    (hparts : ∀ path, ∀ name ∈ Path.parts path, good name) (projectName : String) :
    P (Skeleton.lay path projectName t).2 := by
  have hnames : ∀ name ∈ Skeleton.folders, good name := by
    intro name hname
    have hall : ∀ name ∈ Skeleton.folders, name ∈ Path.parts name := by decide
    exact hparts name name (hall name hname)
  refine Skeleton.lay_keeps (fun name hname t h => hstays.makeFolders h ?_)
    (fun name content t h => hstays.writeFile h ?_ content) h
  · exact List.forall_mem_append.mpr ⟨hpath, List.forall_mem_singleton.mpr (hnames name hname)⟩
  · exact List.forall_mem_append.mpr ⟨hpath, hparts name⟩

end StaysWhenPut

end FileTree

/-! ### Sound trees -/

theorem isSound_stays : FileTree.StaysWhenPut Path.IsName fun t => t.top.IsSound where
  free := by
    intro t path place new h hpath hspot hnew
    have hlinks : ∀ place target, t.top.at? place = some (.link target) →
        ∀ name ∈ target, Path.IsName name := by
      intro place target hlink
      have htarget := (h.at? hlink).1
      rwa [Entry.IsSound] at htarget
    obtain ⟨front, name, entries, rfl, hfolder, hname, -⟩ :=
      FileTree.exists_of_free hspot hlinks hpath
    refine h.put hnew.isSound fun n hn => ?_
    rcases List.mem_append.mp hn with hn | hn
    · exact (h.at? hfolder).2 n hn
    · exact List.mem_singleton.mp hn ▸ hname
  found := by
    intro t path place old k content h hpath hspot
    have hleads : t.LeadsTo path place (.file old) := ⟨k, hspot⟩
    exact h.put (Entry.IsBare.isSound trivial) (h.at? (FileTree.leadsTo_iff.mp hleads).2.2).2

namespace Skeleton

variable {t : FileTree} {path : List String}

theorem isSound_writeFile (h : t.top.IsSound) (hpath : ∀ name ∈ path, Path.IsName name)
    (content : String) : (writeFile path content t).2.top.IsSound :=
  isSound_stays.writeFile h hpath content

/-- A sound tree is sound with a skeleton in it. -/
theorem isSound_lay (h : t.top.IsSound) (hpath : ∀ name ∈ path, Path.IsName name)
    (projectName : String) : (lay path projectName t).2.top.IsSound :=
  isSound_stays.lay h hpath (fun _ _ hname => Path.isName_of_mem_parts hname) projectName

end Skeleton

/-! ### Names that stand for themselves -/

/-- A name that stands for itself in a path. -/
def Path.IsProper (name : String) : Prop := name ≠ "" ∧ name ≠ "." ∧ name ≠ ".."

namespace Entry

/-- All names below the entry stand for themselves in a path. -/
def HasNames (top : Entry) : Prop :=
  ∀ path e, top.at? path = some e → ∀ name ∈ path, Path.IsProper name

theorem IsBare.hasNames {e : Entry} (h : e.IsBare) : e.HasNames := by
  intro path inner hat
  cases path with
  | nil => simp
  | cons name rest =>
      cases e with
      | file content => cases hat
      | link target => cases hat
      | folder entries =>
          obtain rfl : entries = [] := h
          cases hat

theorem hasNames_folder {entries : List (String × Entry)}
    (h : ∀ entry ∈ entries, Path.IsProper entry.1 ∧ entry.2.HasNames) :
    HasNames (.folder entries) := by
  intro path e hat
  cases path with
  | nil => simp
  | cons name rest =>
      obtain ⟨inner, hinner, hrest⟩ := Option.bind_eq_some_iff.mp hat
      obtain ⟨hname, hnames⟩ := h _ (Table.mem_of_find? hinner)
      exact List.forall_mem_cons.mpr ⟨hname, hnames rest e hrest⟩

theorem HasNames.put {top new : Entry} {place : List String} (h : top.HasNames)
    (hnew : new.HasNames) (hplace : ∀ name ∈ place, Path.IsProper name) :
    (Entry.put new place top).HasNames := by
  induction place generalizing top with
  | nil => rwa [Entry.put]
  | cons name rest ih =>
      obtain ⟨hname, hrest⟩ := List.forall_mem_cons.mp hplace
      cases top with
      | file content => exact h
      | link target => exact h
      | folder entries =>
          rw [Entry.put]
          have hinner : ((Table.find? entries name).getD (.folder [])).HasNames := by
            cases hfind : Table.find? entries name with
            | none => exact IsBare.hasNames rfl
            | some inner =>
                intro path e hat n hn
                refine h (name :: path) e ?_ n (List.mem_cons_of_mem _ hn)
                rw [at?, hfind]
                exact hat
          intro path e hat
          cases path with
          | nil => simp
          | cons n more =>
              rw [at?, Table.find?_set] at hat
              by_cases hn : n = name
              · subst hn
                rw [if_pos rfl] at hat
                exact List.forall_mem_cons.mpr ⟨hname, ih hinner hrest more e hat⟩
              · rw [if_neg hn] at hat
                exact h (n :: more) e hat

end Entry

/-- Where there are no links, what is added is added under the last name of a path. -/
theorem hasNames_stays : FileTree.StaysWhenPut (fun name => name ≠ "" ∧ name ≠ ".")
    fun t => t.top.HasNoLink ∧ t.top.HasNames where
  free := by
    rintro t path place new ⟨hlinks, hnames⟩ hpath hspot hnew
    obtain ⟨front, name, entries, rfl, hfolder, hname, hdots⟩ :=
      FileTree.exists_of_free hspot (fun place target hlink => absurd hlink (hlinks place target)) hpath
    refine ⟨fun place target hlink => hlinks place target
      (Entry.at?_link_of_put hnew.hasNoLink hlink), hnames.put hnew.hasNames fun n hn => ?_⟩
    rcases List.mem_append.mp hn with hn | hn
    · exact hnames front _ hfolder n hn
    · exact List.mem_singleton.mp hn ▸ ⟨hname.1, hname.2, hdots⟩
  found := by
    rintro t path place old k content ⟨hlinks, hnames⟩ hpath hspot
    have hleads : t.LeadsTo path place (.file old) := ⟨k, hspot⟩
    exact ⟨fun other target hlink => hlinks other target
      (Entry.at?_link_of_put (Entry.hasNoLink_file content) hlink),
      hnames.put (Entry.IsBare.hasNames trivial) (hnames place _ (FileTree.leadsTo_iff.mp hleads).2.2)⟩

end PhpMigration
