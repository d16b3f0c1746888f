/-
Reading a file never leaves the project.

Where there are no links, the place that a path leads to is found by looking at its names only
(`FileTree.placeOf_of_hasNoLink`), and asking for what is there says what is there
(`FileTree.entry?_of_hasNoLink`).  So a file is read by its names: a path that does not lead
strictly below the folder of the project is refused whatever is in the tree
(`Review.read_of_outside`), and any other is looked up below that folder
(`Review.read_of_leadsBelow`).

Two things come in between.  A name with a null character is no name, and a project may be called
by one; and asking for a name or a path that is too long is a fault of its own, which is neither
the text of a file nor a word that there is none.  Apart from them every answer is as promised
(`IsPromised`), and two trees that are the same below the folder of the project give the same one.
-/
import PhpMigration.Http.Surface
import PhpMigration.Proofs.Project.FileTree

namespace PhpMigration

/-! ### Places where there are no links -/

namespace FileTree

variable {t : FileTree} {place path : List String}

theorem dots_not_mem_location (t : FileTree) : ".." ∉ t.location :=
  Path.dots_not_mem_withoutDots List.not_mem_nil

theorem linkAt?_of_hasNoLink (h : t.top.HasNoLink) (place : List String) :
    t.linkAt? place = none := by
  unfold linkAt?
  split
  · rename_i target hlink
    obtain ⟨inner, -, hat⟩ := Option.bind_eq_some_iff.mp hlink
    exact absurd hat (h inner target)
  · rfl

/-- Without links only the names of a path are looked at. -/
theorem placeOf_of_hasNoLink (h : t.top.HasNoLink) (path : List String) :
    t.placeOf path = .at (Path.withoutDots [] path) := by
  have hfrom : ∀ links pending done todo,
      t.placeFrom links pending done todo = .at (Path.withoutDots done todo) := by
    intro links pending done todo
    induction todo generalizing done with
    | nil => rw [placeFrom, Path.withoutDots]
    | cons name rest ih =>
        rw [placeFrom, Path.withoutDots]
        by_cases hname : name = ".."
        · rw [if_pos hname, if_pos hname]
          exact ih _
        · rw [if_neg hname, if_neg hname]
          dsimp only
          rw [linkAt?_of_hasNoLink h]
          exact ih _
  exact hfrom _ _ _ _

theorem inside?_location_append (t : FileTree) (path : List String) :
    t.inside? (t.location ++ path) = some path := by
  unfold inside?
  rw [if_pos (List.isPrefixOf_iff_prefix.mpr (List.prefix_append _ _)), List.drop_left]

end FileTree

/-! ### Asking for what is there -/

/-- On the way along `todo` from the place `done`, a name that is too long is asked for in a folder
that is there. -/
def Entry.MeetsLongName (top : Entry) (done todo : List String) : Prop :=
  ∃ front name back, todo = front ++ name :: back ∧
    (∃ entries, top.at? (done ++ front) = some (.folder entries)) ∧
    maxNameBytes < name.utf8ByteSize

/-- The path cannot be asked for: it is too long, or a name that it comes to. -/
def FileTree.IsTooLong (t : FileTree) (path : List String) : Prop :=
  maxPathBytes < (t.shown path).utf8ByteSize ∨ t.top.MeetsLongName [] path

namespace Entry

variable {top here : Entry} {done todo rest : List String} {name : String}

theorem not_meetsLongName_nil : ¬ top.MeetsLongName done [] := by
  rintro ⟨front, name, back, heq, -⟩
  cases front <;> cases heq

theorem meetsLongName_cons_iff : top.MeetsLongName done (name :: rest) ↔
    (∃ entries, top.at? done = some (.folder entries)) ∧
      (maxNameBytes < name.utf8ByteSize ∨ top.MeetsLongName (done ++ [name]) rest) := by
  constructor
  · rintro ⟨front, n, back, heq, ⟨entries, hfolder⟩, hsize⟩
    cases front with
    | nil =>
        cases heq
        rw [List.append_nil] at hfolder
        exact ⟨⟨entries, hfolder⟩, .inl hsize⟩
    | cons m front =>
        cases heq
        refine ⟨folder_of_at? hfolder, .inr ⟨front, n, back, rfl, ⟨entries, ?_⟩, hsize⟩⟩
        rwa [List.append_cons] at hfolder
  · rintro ⟨⟨entries, hfolder⟩, hsize | ⟨front, n, back, rfl, ⟨inner, hinner⟩, hsize⟩⟩
    · exact ⟨[], name, rest, rfl, ⟨entries, by rwa [List.append_nil]⟩, hsize⟩
    · exact ⟨name :: front, n, back, rfl, ⟨inner, by rwa [List.append_cons]⟩, hsize⟩

/-- The end of a walk says what is at the end of the path. -/
def Tells (top : Entry) (done todo : List String) : Spot → Prop
  | .found _ e _ => ¬ top.MeetsLongName done todo ∧ top.at? (done ++ todo) = some e
  | .problem .tooLong => top.MeetsLongName done todo
  | _ => ¬ top.MeetsLongName done todo ∧ top.at? (done ++ todo) = none

/-- A walk tells what its rest tells. -/
theorem Tells.of_cons {spot : Spot} {entries : List (String × Entry)}
    (hfolder : top.at? done = some (.folder entries)) (hsize : ¬ maxNameBytes < name.utf8ByteSize)
    (h : top.Tells (done ++ [name]) rest spot) : top.Tells done (name :: rest) spot := by
  have hmeets : top.MeetsLongName done (name :: rest) ↔
      top.MeetsLongName (done ++ [name]) rest := by
    rw [meetsLongName_cons_iff]
    exact ⟨fun h => h.2.resolve_left hsize, fun h => ⟨⟨entries, hfolder⟩, .inr h⟩⟩
  unfold Tells at h ⊢
  rw [hmeets, List.append_cons done name rest]
  exact h

/-- A walk through folders without links goes along its path, as far as there is something. -/
theorem tells_walk (hlinks : top.HasNoLink) (links : Nat) (hdots : ".." ∉ todo)
    (hhere : top.at? done = some here) : top.Tells done todo (top.walk links done todo) := by
  induction todo generalizing done here with
  | nil =>
      rw [walk_nil hhere]
      exact ⟨not_meetsLongName_nil, by rwa [List.append_nil]⟩
  | cons name rest ih =>
      obtain ⟨hname, hrest⟩ := not_or.mp (mt List.mem_cons.mpr hdots)
      -- below what is no folder there is nothing
      have hnone : (¬ ∃ entries, here = .folder entries) →
          ¬ top.MeetsLongName done (name :: rest) ∧ top.at? (done ++ name :: rest) = none := by
        intro hno
        refine ⟨fun hmeets => ?_, Option.eq_none_iff_forall_ne_some.mpr fun e he => ?_⟩
        · obtain ⟨⟨entries, hfolder⟩, -⟩ := meetsLongName_cons_iff.mp hmeets
          exact hno ⟨entries, Option.some.inj (hhere.symm.trans hfolder)⟩
        · obtain ⟨entries, hfolder⟩ := folder_of_at? he
          exact hno ⟨entries, Option.some.inj (hhere.symm.trans hfolder)⟩
      cases here with
      | file content =>
          rw [walk.eq_def]
          dsimp only
          rw [hhere]
          exact hnone fun ⟨_, h⟩ => by cases h
      | link target => exact absurd hhere (hlinks done target)
      | folder entries =>
          by_cases hsize : maxNameBytes < name.utf8ByteSize
          · rw [walk_long hhere (Ne.symm hname) hsize]
            exact meetsLongName_cons_iff.mpr ⟨⟨entries, hhere⟩, .inl hsize⟩
          refine .of_cons hhere hsize ?_
          rw [walk_name hhere (Ne.symm hname) hsize]
          have hnext := at?_snoc hhere name
          cases hfind : Table.find? entries name with
          | none =>
              rw [hfind] at hnext
              have hbeyond : ¬ top.MeetsLongName (done ++ [name]) rest ∧
                  top.at? (done ++ [name] ++ rest) = none := by
                refine ⟨?_, by rw [at?_append, hnext]; rfl⟩
                rintro ⟨front, n, back, rfl, ⟨inner, hinner⟩, -⟩
                rw [at?_append, hnext] at hinner
                cases hinner
              cases hempty : rest.isEmpty with
              | true => exact hbeyond
              | false => exact hbeyond
          | some e =>
              rw [hfind] at hnext
              have hon := ih hrest hnext
              cases e with
              | link target => exact absurd hnext (hlinks _ target)
              | file content => exact hon
              | folder inner => exact hon

end Entry

namespace FileTree

variable {t : FileTree} {path : List String}

/-- Without links there is at the end of a path what there is, unless the path is too long. -/
theorem entry?_of_hasNoLink (hlinks : t.top.HasNoLink) (hdots : ".." ∉ path)
    (hnull : (path.any fun name => name.toList.contains '\x00') = false) :
    (¬ t.IsTooLong path → t.entry? path = .ok (t.top.at? path)) ∧
    (t.IsTooLong path → t.entry? path = .error (t.fault .tooLong path)) := by
  unfold entry? spot IsTooLong
  rw [hnull, if_neg Bool.false_ne_true]
  by_cases hsize : maxPathBytes < (t.shown path).utf8ByteSize
  · rw [if_pos hsize]
    exact ⟨fun h => absurd (.inl hsize) h, fun _ => rfl⟩
  rw [if_neg hsize]
  have htop : t.top.at? [] = some t.top := by cases h : t.top <;> rfl
  have htells := Entry.tells_walk hlinks maxLinks hdots htop
  cases hwalk : t.top.walk maxLinks [] path with
  | found place e k =>
      rw [hwalk] at htells
      refine ⟨fun _ => ?_, fun h => absurd (h.resolve_left hsize) htells.1⟩
      exact (congrArg Except.ok htells.2).symm
  | free place =>
      rw [hwalk] at htells
      refine ⟨fun _ => ?_, fun h => absurd (h.resolve_left hsize) htells.1⟩
      exact (congrArg Except.ok htells.2).symm
  | problem problem =>
      rw [hwalk] at htells
      by_cases hlong : problem = .tooLong
      · subst hlong
        exact ⟨fun h => absurd (.inr htells) h, fun _ => rfl⟩
      · have hnone : ¬ t.top.MeetsLongName [] path ∧ t.top.at? path = none := by
          cases problem <;> first | exact absurd rfl hlong | exact htells
        refine ⟨fun _ => ?_, fun h => absurd (h.resolve_left hsize) hnone.1⟩
        rw [hnone.2]
        cases problem <;> first | exact absurd rfl hlong | rfl

theorem read_of_entry? {content : ByteArray} (h : t.entry? path = .ok (some (.file content))) :
    t.read path = .ok content := by
  unfold entry? at h
  unfold read
  cases hspot : t.spot path with
  | found place e k =>
      rw [hspot] at h
      cases h
      rfl
  | free place => rw [hspot] at h; cases h
  | problem problem => rw [hspot] at h; cases problem <;> cases h

end FileTree

/-! ### The name of a project -/

/-- The name of a project is a name, and leads to the folder of the project only. -/
theorem Http.parts_of_isProjectName {project : String} (h : Http.isProjectName project = true) :
    Path.isAbsolute project = false ∧ Path.parts project = [project] ∧ project ≠ ".." := by
  unfold Http.isProjectName at h
  simp only [Bool.and_eq_true, Bool.not_eq_true', List.any_eq_false, noNames, separators] at h
  obtain ⟨⟨hempty, hno⟩, hseparators⟩ := h
  have hne : project ≠ "" ∧ project ≠ "." ∧ project ≠ ".." := by
    have hnames : project ∉ ["undefined", ".", ".."] := by simpa using hno
    simp only [List.mem_cons, not_or] at hnames
    exact ⟨by simpa using hempty, hnames.2.1, hnames.2.2.1⟩
  have hslash : '/' ∉ project.toList := by
    intro hmem
    refine hseparators "/" (by simp) ?_
    unfold Text.contains
    have hoccurs : ∀ cs : List Char, '/' ∈ cs → Text.occursIn ['/'] cs = true := by
      intro cs hcs
      induction cs with
      | nil => cases hcs
      | cons c rest ih =>
          rw [Text.occursIn, Bool.or_eq_true]
          rcases List.mem_cons.mp hcs with rfl | hrest
          · exact .inl (by simp)
          · exact .inr (ih hrest)
    exact hoccurs _ hmem
  refine ⟨?_, Path.parts_of_isName hslash ⟨hne.1, hne.2.1⟩, hne.2.2⟩
  unfold Path.isAbsolute
  exact decide_eq_false fun hhead => hslash (List.mem_of_head? hhead)

theorem FileTree.dots_not_mem_folder (t : FileTree) {project : String}
    (h : Http.isProjectName project = true) : ".." ∉ t.location ++ [project] := by
  rw [List.mem_append, not_or]
  exact ⟨t.dots_not_mem_location,
    fun hmem => (Http.parts_of_isProjectName h).2.2 (List.mem_singleton.mp hmem).symm⟩

namespace Review

variable {σ σ' : Type} {t : FileTree} {w : Workshop σ} {project path : String}
  {below : List String}

/-! ### What a reader is promised -/

/-- The names from the root that a path has, seen from the folder of a project unless it is seen
from the root. -/
def namesOf (t : FileTree) (project path : String) : List String :=
  Path.withoutDots []
    (if Path.isAbsolute path then Path.parts path
      else t.location ++ [project] ++ Path.parts path)

/-- The path leads strictly below the folder of the project, along these names. -/
def LeadsBelow (t : FileTree) (project path : String) (below : List String) : Prop :=
  below ≠ [] ∧ namesOf t project path = t.location ++ project :: below

theorem LeadsBelow.unique {below' : List String} (h : LeadsBelow t project path below)
    (h' : LeadsBelow t project path below') : below = below' := by
  have heq := List.append_cancel_left (h.2.symm.trans h'.2)
  exact (List.cons.inj heq).2

/-- The text of a file, or that there is none. -/
def textOrMissing (path : String) : Option Entry → Except Refused String
  | some (.file content) => .ok (Text.withLineFeeds (Text.Utf8.decodeLenient content))
  | _ => .error (.missing path)

/-- The answer is the one that is promised: the path is refused, for leading out of the project or
for being none, if it does not lead strictly below the folder of the project, and only then; else
the text is given of the file that is there, and if there is none it is said to be missing. -/
inductive IsPromised (t : FileTree) (project path : String) : Except Refused String → Prop
  | refused {why : Refused} (hout : ∀ below, ¬ LeadsBelow t project path below)
      (hwhy : why = .outside path ∨ why = .unnameable) : IsPromised t project path (.error why)
  | below {below : List String} (h : LeadsBelow t project path below) :
      IsPromised t project path (textOrMissing path (t.top.at? (project :: below)))

/-! ### How a file is read -/

theorem seenFrom_of_hasNoLink (hlinks : t.top.HasNoLink) (hpath : '\x00' ∉ path.toList)
    (folder : List String) : seenFrom t folder path = .ok (Path.withoutDots []
      (if Path.isAbsolute path then Path.parts path else folder ++ Path.parts path)) := by
  unfold seenFrom placeOf
  rw [if_neg (by simpa using hpath), t.placeOf_of_hasNoLink hlinks]
  rfl

/-- The names below the folder of the project come from the path. -/
theorem LeadsBelow.mem_parts (h : LeadsBelow t project path below)
    (hproject : Http.isProjectName project = true) {name : String} (hname : name ∈ below) :
    name ∈ Path.parts path ∧ name ≠ ".." := by
  have htop : ".." ∉ t.location ++ [project] := t.dots_not_mem_folder hproject
  have heq : namesOf t project path = t.location ++ [project] ++ below := by
    rw [h.2, List.append_assoc]
    rfl
  unfold namesOf at heq
  split at heq
  · obtain ⟨front, back, hsplit, hfront, hback⟩ := Path.exists_withoutDots [] (Path.parts path)
    obtain rfl := List.prefix_nil.mp hfront
    refine hback name ?_
    rw [← List.nil_append back, ← hsplit, heq]
    exact List.mem_append_right _ hname
  · obtain ⟨front, back, hsplit, ⟨rest, hrest⟩, hback⟩ :=
      Path.exists_withoutDots (t.location ++ [project]) (Path.parts path)
    refine hback name ?_
    rw [Path.withoutDots_append, Path.withoutDots_of_not_mem htop, List.nil_append, hsplit,
      ← hrest, List.append_assoc] at heq
    rw [List.append_cancel_left heq]
    exact List.mem_append_right _ hname

theorem textAt_of_hasNoLink {inside : List String} (hlinks : t.top.HasNoLink)
    (hdots : ".." ∉ inside)
    (hnull : (inside.any fun name => name.toList.contains '\x00') = false) :
    (¬ t.IsTooLong inside → textAt t path inside = textOrMissing path (t.top.at? inside)) ∧
    (t.IsTooLong inside →
      textAt t path inside = .error (.storage (t.fault .tooLong inside))) := by
  obtain ⟨hfound, hlong⟩ := t.entry?_of_hasNoLink hlinks hdots hnull
  unfold textAt FileTree.leadsToFile
  refine ⟨fun h => ?_, fun h => ?_⟩
  · have hentry := hfound h
    rw [hentry]
    cases hat : t.top.at? inside with
    | none => rfl
    | some e =>
        cases e with
        | folder entries => rfl
        | link target => exact absurd hat (hlinks inside target)
        | file content =>
            rw [hat] at hentry
            rw [t.read_of_entry? hentry]
            rfl
  · rw [hlong h]
    rfl

section

variable (hlinks : w.tree.top.HasNoLink) (hproject : Http.isProjectName project = true)
  (hnull : '\x00' ∉ project.toList) (hpath : '\x00' ∉ path.toList)

include hlinks hproject hnull hpath

theorem place?_eq : place? w project path =
    if (w.tree.location ++ [project]).isPrefixOf (namesOf w.tree project path) &&
        decide ((w.tree.location ++ [project]).length < (namesOf w.tree project path).length)
    then .ok (namesOf w.tree project path) else .error (.outside path) := by
  obtain ⟨hrelative, hparts, -⟩ := Http.parts_of_isProjectName hproject
  have htop := w.tree.dots_not_mem_folder hproject
  unfold place?
  rw [seenFrom_of_hasNoLink hlinks hnull, hrelative, if_neg Bool.false_ne_true, hparts,
    Path.withoutDots_of_not_mem htop, List.nil_append]
  show (seenFrom w.tree (w.tree.location ++ [project]) path).bind _ = _
  rw [seenFrom_of_hasNoLink hlinks hpath]
  rfl

theorem read_of_outside (hout : ∀ below, ¬ LeadsBelow w.tree project path below) :
    read project path w = .error (.outside path) := by
  unfold read
  rw [place?_eq hlinks hproject hnull hpath, if_neg]
  · rfl
  intro hprefix
  rw [Bool.and_eq_true, List.isPrefixOf_iff_prefix, decide_eq_true_eq] at hprefix
  obtain ⟨⟨below, heq⟩, hlength⟩ := hprefix
  refine hout below ⟨?_, ?_⟩
  · rintro rfl
    rw [List.append_nil] at heq
    rw [← heq] at hlength
    exact Nat.lt_irrefl _ hlength
  · rw [← heq, List.append_assoc]
    rfl

/-- Below the folder of the project a file is read by its names. -/
theorem read_of_leadsBelow (h : LeadsBelow w.tree project path below) :
    (¬ w.tree.IsTooLong (project :: below) →
      read project path w = textOrMissing path (w.tree.top.at? (project :: below))) ∧
    (w.tree.IsTooLong (project :: below) → read project path w =
      .error (.storage (w.tree.fault .tooLong (project :: below)))) := by
  have hplace : place? w project path = .ok (w.tree.location ++ project :: below) := by
    rw [place?_eq hlinks hproject hnull hpath, if_pos, h.2]
    rw [Bool.and_eq_true, List.isPrefixOf_iff_prefix, decide_eq_true_eq, h.2]
    refine ⟨⟨below, by rw [List.append_assoc]; rfl⟩, ?_⟩
    have hlength := List.length_pos_iff.mpr h.1
    simp only [List.length_append, List.length_cons, List.length_nil]
    omega
  have hnames : ∀ name ∈ project :: below, name ≠ ".." ∧ name.toList.contains '\x00' = false := by
    intro name hname
    rcases List.mem_cons.mp hname with rfl | hname
    · exact ⟨(Http.parts_of_isProjectName hproject).2.2, by simpa using hnull⟩
    · obtain ⟨hpart, hdots⟩ := h.mem_parts hproject hname
      refine ⟨hdots, ?_⟩
      simpa using fun hmem => hpath (Path.mem_toList_of_mem_parts hpart hmem)
  have hread : read project path w = textAt w.tree path (project :: below) := by
    simp only [read, hplace, bind, Except.bind, w.tree.inside?_location_append]
  rw [hread]
  exact textAt_of_hasNoLink hlinks (fun hmem => (hnames _ hmem).1 rfl) (List.any_eq_false.mpr
    fun name hname => by rw [(hnames name hname).2]; exact Bool.false_ne_true)

end

theorem read_of_null (hnull : '\x00' ∈ project.toList) :
    read project path w = .error .unnameable := by
  unfold read place? seenFrom
  rw [if_pos (by simpa using hnull)]
  rfl

/-! ### Which answers are promised -/

theorem eq_missing_of_textOrMissing {e : Option Entry} {why : Refused}
    (h : textOrMissing path e = .error why) : why = .missing path := by
  unfold textOrMissing at h
  split at h
  · cases h
  · exact (Except.error.inj h).symm

/-- The answer is as promised unless the path leads below the folder of a project that is called by
no name, or is too long to be asked for. -/
theorem isPromised_iff (hlinks : w.tree.top.HasNoLink)
    (hproject : Http.isProjectName project = true) (hpath : '\x00' ∉ path.toList) :
    IsPromised w.tree project path (read project path w) ↔
      ∀ below, LeadsBelow w.tree project path below →
        '\x00' ∉ project.toList ∧ ¬ w.tree.IsTooLong (project :: below) := by
  constructor
  · intro hpromised below hbelow
    have hnone : ∀ why, read project path w = .error why → why = .missing path := by
      intro why hread
      rw [hread] at hpromised
      generalize hanswer : (Except.error why : Except Refused String) = answer at hpromised
      cases hpromised with
      | refused hout => exact absurd hbelow (hout below)
      | below h => exact eq_missing_of_textOrMissing hanswer.symm
    have hnull : '\x00' ∉ project.toList := by
      intro hnull
      cases hnone _ (read_of_null hnull)
    refine ⟨hnull, fun hlong => ?_⟩
    cases hnone _ ((read_of_leadsBelow hlinks hproject hnull hpath hbelow).2 hlong)
  · intro h
    by_cases hbelow : ∃ below, LeadsBelow w.tree project path below
    · obtain ⟨below, hbelow⟩ := hbelow
      obtain ⟨hnull, hsize⟩ := h below hbelow
      rw [(read_of_leadsBelow hlinks hproject hnull hpath hbelow).1 hsize]
      exact .below hbelow
    · have hout := not_exists.mp hbelow
      by_cases hnull : '\x00' ∈ project.toList
      · rw [read_of_null hnull]
        exact .refused hout (.inr rfl)
      · rw [read_of_outside hlinks hproject hnull hpath hout]
        exact .refused hout (.inl rfl)

/-! ### Two trees -/

/-- The trees hold the same below the folder of a project. -/
def AgreeBelow (t t' : FileTree) (project : String) : Prop :=
  ∀ name rest, t'.top.at? (project :: name :: rest) = t.top.at? (project :: name :: rest)

section

variable {t' : FileTree} {w' : Workshop σ'}

theorem leadsBelow_of_name (hname : t'.name = t.name) (h : LeadsBelow t project path below) :
    LeadsBelow t' project path below := by
  unfold LeadsBelow namesOf FileTree.location at h ⊢
  rw [hname]
  exact h

/-- What a path below the folder of a project can be asked for, it can be asked for in every tree
that holds the same project. -/
theorem isTooLong_of_same {e : Entry} (hname : t'.name = t.name)
    (he : t.top.at? [project] = some e) (he' : t'.top.at? [project] = some e)
    (h : t.IsTooLong (project :: below)) : t'.IsTooLong (project :: below) := by
  rcases h with hsize | hmeets
  · exact .inl (by unfold FileTree.shown at hsize ⊢; rwa [hname])
  · have hfront : t'.top.at? ([] ++ [project]) = some e := he'
    refine .inr (Entry.meetsLongName_cons_iff.mpr ⟨Entry.folder_of_at? hfront, ?_⟩)
    obtain ⟨-, hsize | ⟨front, name, back, rfl, ⟨entries, hfolder⟩, hsize⟩⟩ :=
      Entry.meetsLongName_cons_iff.mp hmeets
    · exact .inl hsize
    · refine .inr ⟨front, name, back, rfl, ⟨entries, ?_⟩, hsize⟩
      rw [List.nil_append, Entry.at?_append, he] at hfolder
      rw [List.nil_append, Entry.at?_append, he']
      exact hfolder

/-- **On a tree without links every answer to a reader is as promised, unless the path leads below
the folder of a project that is called by no name or is too long to be asked for.**  Whatever lies
outside, two trees give the same answer if they hold the same below the folder of the project and
both answers are as promised, and if they hold the same project they always do. -/
theorem isPromised_read_iff (hlinks : w.tree.top.HasNoLink)
    (hproject : Http.isProjectName project = true) (hpath : '\x00' ∉ path.toList) :
    (IsPromised w.tree project path (read project path w) ↔
      ∀ below, LeadsBelow w.tree project path below →
        '\x00' ∉ project.toList ∧ ¬ w.tree.IsTooLong (project :: below)) ∧
    ∀ w' : Workshop σ', w'.tree.name = w.tree.name → w'.tree.top.HasNoLink →
      (AgreeBelow w.tree w'.tree project → IsPromised w.tree project path (read project path w) →
        IsPromised w'.tree project path (read project path w') →
        read project path w' = read project path w) ∧
      ∀ e, w.tree.top.at? [project] = some e → w'.tree.top.at? [project] = some e →
        read project path w' = read project path w := by
  refine ⟨isPromised_iff hlinks hproject hpath, fun w' hname hlinks' => ?_⟩
  by_cases hnull : '\x00' ∈ project.toList
  · have hsame : read project path w' = read project path w :=
      (read_of_null hnull).trans (read_of_null hnull).symm
    exact ⟨fun _ _ _ => hsame, fun _ _ _ => hsame⟩
  by_cases hbelow : ∃ below, LeadsBelow w.tree project path below
  · obtain ⟨below, hbelow⟩ := hbelow
    have hbelow' := leadsBelow_of_name hname hbelow
    obtain ⟨hfound, hlong⟩ := read_of_leadsBelow hlinks hproject hnull hpath hbelow
    obtain ⟨hfound', hlong'⟩ := read_of_leadsBelow hlinks' hproject hnull hpath hbelow'
    refine ⟨fun hagree hpromised hpromised' => ?_, fun e he he' => ?_⟩
    · have hsize := ((isPromised_iff hlinks hproject hpath).mp hpromised below hbelow).2
      have hsize' := ((isPromised_iff hlinks' hproject hpath).mp hpromised' below hbelow').2
      obtain ⟨name, rest, rfl⟩ := List.exists_cons_of_ne_nil hbelow.1
      rw [hfound hsize, hfound' hsize', hagree name rest]
    · by_cases hsize : w.tree.IsTooLong (project :: below)
      · rw [hlong hsize, hlong' (isTooLong_of_same hname he he' hsize), FileTree.fault,
          FileTree.fault, FileTree.shown, FileTree.shown, hname]
      · have hsize' : ¬ w'.tree.IsTooLong (project :: below) :=
          mt (isTooLong_of_same hname.symm he' he) hsize
        rw [hfound hsize, hfound' hsize']
        show textOrMissing path (w'.tree.top.at? ([project] ++ below)) =
          textOrMissing path (w.tree.top.at? ([project] ++ below))
        rw [Entry.at?_append, Entry.at?_append, he, he']
  · have hout := not_exists.mp hbelow
    have hout' : ∀ below, ¬ LeadsBelow w'.tree project path below :=
      fun below h => hout below (leadsBelow_of_name hname.symm h)
    have hsame : read project path w' = read project path w :=
      (read_of_outside hlinks' hproject hnull hpath hout').trans
        (read_of_outside hlinks hproject hnull hpath hout).symm
    exact ⟨fun _ _ _ => hsame, fun _ _ _ => hsame⟩

end

/-! ### A small tree -/

/-- A tree with one project, which holds one file, and some more beside the project. -/
def oneFile (others : List (String × Entry)) : FileTree :=
  ⟨"uploads", .folder (("demo", .folder [("a.php", .file ByteArray.empty)]) :: others)⟩

/-- A workshop that has nothing but a tree. -/
def showing (t : FileTree) : Workshop Unit := { tree := t, service := () }

theorem hasNoLink_oneFile {others : List (String × Entry)}
    (h : ∀ other ∈ others, other.2.HasNoLink) : (oneFile others).top.HasNoLink := by
  refine Entry.hasNoLink_folder fun other hother => ?_
  rcases List.mem_cons.mp hother with rfl | hother
  · refine Entry.hasNoLink_folder fun file hfile => ?_
    obtain rfl := List.mem_singleton.mp hfile
    exact Entry.hasNoLink_file _
  · exact h other hother

/-- Behind a detour the one file is read, also beside another project. -/
theorem isPromised_read_oneFile :
    IsPromised (oneFile []) "demo" "sub/../a.php"
      (read "demo" "sub/../a.php" (showing (oneFile []))) ∧
    read "demo" "sub/../a.php" (showing (oneFile [("other", .folder [])])) =
      read "demo" "sub/../a.php" (showing (oneFile [])) := by
  have hbelow : LeadsBelow (oneFile []) "demo" "sub/../a.php" ["a.php"] :=
    ⟨by decide, by decide⟩
  have hsize : ¬ (oneFile []).IsTooLong ["demo", "a.php"] := by
    rintro (hsize | ⟨front, name, back, hsplit, -, hsize⟩)
    · exact absurd hsize (by decide)
    · have hmem : name ∈ ["demo", "a.php"] := by
        rw [hsplit]
        exact List.mem_append_right _ List.mem_cons_self
      have hnames : ∀ name ∈ ["demo", "a.php"], ¬ maxNameBytes < name.utf8ByteSize := by
        decide
      exact hnames name hmem hsize
  obtain ⟨hpromised, hsame⟩ := isPromised_read_iff (w := showing (oneFile []))
    (hasNoLink_oneFile (by simp)) (show Http.isProjectName "demo" = true by decide)
    (show '\x00' ∉ "sub/../a.php".toList by decide)
  refine ⟨hpromised.mpr fun below h => ⟨by decide, h.unique hbelow ▸ hsize⟩, ?_⟩
  refine (hsame (showing (oneFile [("other", .folder [])])) rfl (hasNoLink_oneFile ?_)).2 _ rfl rfl
  simpa using Entry.hasNoLink_folder_nil

/-- A name of 256 bytes. -/
def longName : String := String.ofList (List.replicate 256 'a')

theorem toList_longName : longName.toList = List.replicate 256 'a' := String.toList_ofList

theorem longName_ne {name : String} (h : List.replicate 256 'a' ≠ name.toList) :
    longName ≠ name := fun heq => h (toList_longName.symm.trans (congrArg String.toList heq))

theorem leadsBelow_longName : LeadsBelow (oneFile []) "demo" longName [longName] := by
  have hparts : Path.parts longName = [longName] := by
    refine Path.parts_of_isName ?_ ⟨longName_ne (by decide), longName_ne (by decide)⟩
    unfold Path.IsName
    rw [toList_longName]
    decide
  have hrelative : Path.isAbsolute longName = false := by
    unfold Path.isAbsolute
    rw [toList_longName]
    decide
  have hdots : ".." ∉ (oneFile []).location ++ ["demo"] ++ [longName] := by
    rw [List.mem_append, not_or]
    refine ⟨(oneFile []).dots_not_mem_folder (by decide), fun hmem => ?_⟩
    exact longName_ne (by decide) (List.mem_singleton.mp hmem).symm
  refine ⟨List.cons_ne_nil _ _, ?_⟩
  unfold namesOf
  rw [hrelative, if_neg Bool.false_ne_true, hparts, Path.withoutDots_of_not_mem hdots]
  exact List.append_assoc _ _ _

/-- A name that is too long is not said to be missing, though it is, but cannot be asked for. -/
theorem not_isPromised_longName :
    (oneFile []).top.HasNoLink ∧ Http.isProjectName "demo" = true ∧ '\x00' ∉ longName.toList ∧
      read "demo" longName (showing (oneFile [])) =
        .error (.storage ((oneFile []).fault .tooLong ["demo", longName])) ∧
      ¬ IsPromised (oneFile []) "demo" longName (read "demo" longName (showing (oneFile []))) := by
  have hlinks : (oneFile []).top.HasNoLink := hasNoLink_oneFile (by simp)
  have hproject : Http.isProjectName "demo" = true := by decide
  have hpath : '\x00' ∉ longName.toList := by
    rw [toList_longName]
    decide
  have hbelow := leadsBelow_longName
  have hlong : (oneFile []).IsTooLong ["demo", longName] :=
    .inr ⟨["demo"], longName, [], rfl, ⟨_, rfl⟩, by decide +kernel⟩
  refine ⟨hlinks, hproject, hpath, ?_, fun hpromised => ?_⟩
  · exact (read_of_leadsBelow (w := showing (oneFile [])) hlinks hproject (by decide) hpath
      hbelow).2 hlong
  · exact ((isPromised_iff (w := showing (oneFile [])) hlinks hproject hpath).mp hpromised
      _ hbelow).2 hlong

end Review

end PhpMigration
