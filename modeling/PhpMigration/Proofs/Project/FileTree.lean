/-
Where paths lead, and what writing leaves alone.

Making folders and writing files only adds to a tree and changes the files that are written
(`Built`).  So a path leads to the same place as before (`Grown.leadsTo`), a file keeps its content
unless it is written itself (`Built.leadsTo_file`), and no link is made (`Built.at?_link`).

Two paths that are spelled differently may still lead to one place if there are links on them.
From an entry that holds no link they lead straight on (`LeadsTo.place_of_hasNoLink`), so there
they never do.
-/
import PhpMigration.Proofs.Project.Place

namespace PhpMigration

namespace FileTree

variable {t t' : FileTree} {path place : List String} {e : Entry}

/-! ### Where a path leads -/

/-- The path can be asked for at all. -/
def IsNameable (t : FileTree) (path : List String) : Prop :=
  (path.any fun name => name.toList.contains '\x00') = false ∧
    ¬ maxPathBytes < (t.shown path).utf8ByteSize

/-- The path leads to an entry at a place. -/
def LeadsTo (t : FileTree) (path place : List String) (e : Entry) : Prop :=
  ∃ k, t.spot path = .found place e k

theorem spot_of_isNameable (h : t.IsNameable path) :
    t.spot path = t.top.walk maxLinks [] path := by
  unfold spot
  rw [h.1, if_neg Bool.false_ne_true, if_neg h.2]

theorem isNameable_of_spot (h : ∀ problem, t.spot path ≠ .problem problem) :
    t.IsNameable path := by
  unfold spot at h
  refine ⟨?_, ?_⟩
  · by_cases hnull : (path.any fun name => name.toList.contains '\x00') = true
    · rw [if_pos hnull] at h
      exact absurd rfl (h .unnameable)
    · exact Bool.eq_false_iff.mpr hnull
  · intro hlong
    by_cases hnull : (path.any fun name => name.toList.contains '\x00') = true
    · rw [if_pos hnull] at h
      exact absurd rfl (h .unnameable)
    · rw [if_neg hnull, if_pos hlong] at h
      exact absurd rfl (h .tooLong)

/-- What a path comes to is what is left at the end of its walk. -/
theorem ends_spot (h : ∀ problem, t.spot path ≠ .problem problem) :
    t.IsNameable path ∧ Entry.Ends t.top maxLinks [] path (t.spot path) := by
  have hnameable := isNameable_of_spot h
  rw [spot_of_isNameable hnameable]
  exact ⟨hnameable, Entry.ends_walk t.top maxLinks [] path⟩

theorem ends_of_free (h : t.spot path = .free place) :
    t.IsNameable path ∧ Entry.Ends t.top maxLinks [] path (.free place) := by
  rw [← h]
  exact ends_spot fun problem hproblem => by rw [h] at hproblem; cases hproblem

theorem leadsTo_iff : t.LeadsTo path place e ↔ t.IsNameable path ∧
    (∃ k, t.top.Walks maxLinks [] path k place []) ∧ t.top.at? place = some e := by
  constructor
  · rintro ⟨k, hspot⟩
    obtain ⟨hnameable, hends⟩ := ends_spot fun problem h => by rw [hspot] at h; cases h
    rw [hspot] at hends
    exact ⟨hnameable, ⟨k, hends.1⟩, hends.2⟩
  · rintro ⟨hnameable, ⟨k, hwalks⟩, he⟩
    refine ⟨k, ?_⟩
    rw [spot_of_isNameable hnameable, hwalks.walk_eq, Entry.walk_nil he]

theorem LeadsTo.unique {place' : List String} {e' : Entry} (h : t.LeadsTo path place e)
    (h' : t.LeadsTo path place' e') : place = place' ∧ e = e' := by
  obtain ⟨k, hspot⟩ := h
  obtain ⟨k', hspot'⟩ := h'
  rw [hspot] at hspot'
  cases hspot'
  exact ⟨rfl, rfl⟩

/-- A way through folders is the way that its path leads. -/
theorem leadsTo_of_at? (hnameable : t.IsNameable path) (he : t.top.at? path = some e)
    (hlink : ∀ target, e ≠ .link target) (hdots : ".." ∉ path)
    (hsize : ∀ name ∈ path, ¬ maxNameBytes < name.utf8ByteSize) : t.LeadsTo path path e :=
  leadsTo_iff.mpr ⟨hnameable, ⟨_, Entry.walks_of_at? he hlink hdots hsize⟩, he⟩

/-- A way through folders whose names are all in order is the way that its path leads. -/
theorem leadsTo_of_names (he : t.top.at? path = some e) (hlink : ∀ target, e ≠ .link target)
    (hnames : ∀ name ∈ path, name ≠ ".." ∧ name.toList.contains '\x00' = false ∧
      ¬ maxNameBytes < name.utf8ByteSize)
    (hsize : ¬ maxPathBytes < (t.shown path).utf8ByteSize) : t.LeadsTo path path e := by
  refine leadsTo_of_at? ⟨?_, hsize⟩ he hlink ?_ ?_
  · refine List.any_eq_false.mpr fun name hname => ?_
    rw [(hnames name hname).2.1]
    exact Bool.false_ne_true
  · exact fun hdots => (hnames _ hdots).1 rfl
  · exact fun name hname => (hnames name hname).2.2

/-- A link at the end of a way through folders leads to what its own way leads to. -/
theorem leadsTo_of_link (path : List String) (name : String) {target : List String}
    (hnameable : t.IsNameable (path ++ [name]))
    (hat : t.top.at? (path ++ [name]) = some (.link target)) (hdots : ".." ∉ path ++ [name])
    (hsize : ∀ n ∈ path ++ [name], ¬ maxNameBytes < n.utf8ByteSize)
    (he : t.top.at? target = some e) (hlink : ∀ target, e ≠ .link target) (hdots' : ".." ∉ target)
    (hsize' : ∀ n ∈ target, ¬ maxNameBytes < n.utf8ByteSize) :
    t.LeadsTo (path ++ [name]) target e := by
  rw [List.mem_append, not_or] at hdots
  obtain ⟨entries, hfolder⟩ := Entry.folder_of_at? hat
  have hfind := hat
  rw [Entry.at?_snoc hfolder] at hfind
  have hfront : Entry.Walks t.top maxLinks [] path maxLinks ([] ++ path) [] := Entry.walks_of_at? hfolder
    (fun _ h => by cases h) hdots.1 fun n hn => hsize n (List.mem_append_left _ hn)
  have hname : name ≠ ".." := fun heq => hdots.2 (by simp [heq])
  have hback : Entry.Walks t.top 39 [] target 39 ([] ++ target) [] := Entry.walks_of_at? he hlink hdots' hsize'
  refine ⟨39, ?_⟩
  rw [spot_of_isNameable hnameable, (hfront.append [name]).walk_eq, List.nil_append,
    List.nil_append, Entry.walk_name hfolder hname (hsize name (by simp)), hfind]
  show t.top.walk 39 [] (target ++ []) = _
  rw [List.append_nil, hback.walk_eq, List.nil_append, Entry.walk_nil he]

theorem LeadsTo.read_eq {content : ByteArray} (h : t.LeadsTo path place (.file content)) :
    t.read path = .ok content := by
  obtain ⟨k, hspot⟩ := h
  unfold read
  rw [hspot]
  rfl

theorem LeadsTo.isFolder_eq (h : t.LeadsTo path place e) : t.isFolder path = e.isFolder := by
  obtain ⟨k, hspot⟩ := h
  unfold isFolder
  rw [hspot]

theorem LeadsTo.entry?_eq (h : t.LeadsTo path place e) : t.entry? path = .ok (some e) := by
  obtain ⟨k, hspot⟩ := h
  unfold entry?
  rw [hspot]
  rfl

theorem LeadsTo.leadsToFolder_eq (h : t.LeadsTo path place e) :
    t.leadsToFolder path = .ok e.isFolder := by
  unfold leadsToFolder
  rw [h.entry?_eq]
  rfl

theorem LeadsTo.leadsToFile_eq {content : ByteArray} (h : t.LeadsTo path place (.file content)) :
    t.leadsToFile path = .ok true := by
  unfold leadsToFile
  rw [h.entry?_eq]
  rfl

/-- A longer path goes on from where the path leads. -/
theorem LeadsTo.walks_below {names below : List String} {inner : Entry}
    (h : t.LeadsTo path place e) (hbelow : t.LeadsTo (path ++ names) below inner) :
    ∃ k k', Entry.Walks t.top k place names k' below [] := by
  obtain ⟨-, ⟨k, hwalks⟩, -⟩ := leadsTo_iff.mp h
  obtain ⟨-, ⟨k', hwalks'⟩, hinner⟩ := leadsTo_iff.mp hbelow
  have hends := Entry.ends_walk t.top k place names
  have hfound : t.top.walk k place names = .found below inner k' := by
    have hstart := (hwalks.append names).walk_eq
    rw [List.nil_append] at hstart
    rw [← hstart, hwalks'.walk_eq, Entry.walk_nil hinner]
  rw [hfound] at hends
  exact ⟨k, k', hends.1⟩

/-- Below an entry without links a path leads straight on. -/
theorem LeadsTo.place_of_hasNoLink {names below : List String} {inner : Entry}
    (h : t.LeadsTo path place e) (hlinks : e.HasNoLink) (hdots : ".." ∉ names)
    (hbelow : t.LeadsTo (path ++ names) below inner) : below = place ++ names := by
  obtain ⟨k, k', hwalks⟩ := h.walks_below hbelow
  have hsame := hwalks.of_hasNoLink hdots (leadsTo_iff.mp h).2.2 hlinks
  rwa [List.append_nil] at hsame

/-! ### Building -/

/-- The tree has grown out of another one, and goes by the same name. -/
structure Grown (t t' : FileTree) : Prop where
  name : t'.name = t.name
  top : Entry.Grown t.top t'.top

theorem Grown.refl (t : FileTree) : t.Grown t := ⟨rfl, .refl _⟩

theorem Grown.trans {t'' : FileTree} (h : t.Grown t') (h' : t'.Grown t'') : t.Grown t'' :=
  ⟨h'.name.trans h.name, h.top.trans h'.top⟩

theorem Grown.leadsTo (hgrown : t.Grown t') (h : t.LeadsTo path place e) :
    ∃ e', t'.LeadsTo path place e' ∧ Entry.Alike e e' := by
  obtain ⟨hnameable, ⟨k, hwalks⟩, he⟩ := leadsTo_iff.mp h
  obtain ⟨e', he', halike⟩ := hgrown.top place e he
  refine ⟨e', leadsTo_iff.mpr ⟨?_, ⟨k, hwalks.grown hgrown.top⟩, he'⟩, halike⟩
  unfold IsNameable shown
  rw [hgrown.name]
  exact hnameable

theorem Grown.leadsTo_folder {entries : List (String × Entry)} (hgrown : t.Grown t')
    (h : t.LeadsTo path place (.folder entries)) :
    ∃ entries', t'.LeadsTo path place (.folder entries') := by
  obtain ⟨e', hleads, entries', rfl⟩ := hgrown.leadsTo h
  exact ⟨entries', hleads⟩

theorem isFolder_iff : t.isFolder path = true ↔
    ∃ place entries, t.LeadsTo path place (.folder entries) := by
  constructor
  · intro h
    unfold isFolder at h
    split at h
    · rename_i place e k hspot
      cases e with
      | folder entries => exact ⟨place, entries, k, hspot⟩
      | file content => cases h
      | link target => cases h
    · cases h
  · rintro ⟨place, entries, hleads⟩
    exact hleads.isFolder_eq

theorem leadsToFolder_eq_ok_true_iff : t.leadsToFolder path = .ok true ↔
    ∃ place entries, t.LeadsTo path place (.folder entries) := by
  constructor
  · intro h
    unfold leadsToFolder entry? at h
    cases hspot : t.spot path with
    | found place e k =>
        rw [hspot] at h
        cases e with
        | folder entries => exact ⟨place, entries, k, hspot⟩
        | file content => cases h
        | link target => cases h
    | free place => rw [hspot] at h; cases h
    | problem problem => rw [hspot] at h; cases problem <;> cases h
  · rintro ⟨place, entries, hleads⟩
    exact hleads.leadsToFolder_eq

theorem Grown.isFolder (hgrown : t.Grown t') (h : t.isFolder path = true) :
    t'.isFolder path = true := by
  obtain ⟨place, entries, hleads⟩ := isFolder_iff.mp h
  exact isFolder_iff.mpr ⟨place, hgrown.leadsTo_folder hleads⟩

theorem leadsToEntry_eq_ok_true_iff :
    t.leadsToEntry path = .ok true ↔ ∃ place e, t.LeadsTo path place e := by
  constructor
  · intro h
    unfold leadsToEntry entry? at h
    cases hspot : t.spot path with
    | found place e k => exact ⟨place, e, k, hspot⟩
    | free place => rw [hspot] at h; cases h
    | problem problem => rw [hspot] at h; cases problem <;> cases h
  · rintro ⟨place, e, hleads⟩
    unfold leadsToEntry
    rw [hleads.entry?_eq]
    rfl

/-- Folders have been made, and files have been written at some places. -/
inductive Built (written : List String → Prop) (t : FileTree) : FileTree → Prop
  | same : Built written t t
  | folder {t' : FileTree} {place : List String} (h : Built written t t')
      (htakes : t'.top.Takes place (.folder [])) : Built written t (t'.put place (.folder []))
  | file {t' : FileTree} {place : List String} {content : ByteArray} (h : Built written t t')
      (hplace : written place) (htakes : t'.top.Takes place (.file content)) :
      Built written t (t'.put place (.file content))

namespace Built

variable {written other : List String → Prop}

theorem mono (h : t.Built written t') (himp : ∀ place, written place → other place) :
    t.Built other t' := by
  induction h with
  | same => exact .same
  | folder h htakes ih => exact .folder ih htakes
  | file h hplace htakes ih => exact .file ih (himp _ hplace) htakes

theorem trans {t'' : FileTree} (h : t.Built written t') (h' : t'.Built written t'') :
    t.Built written t'' := by
  induction h' with
  | same => exact h
  | folder h' htakes ih => exact .folder ih htakes
  | file h' hplace htakes ih => exact .file ih hplace htakes

theorem grown (h : t.Built written t') : t.Grown t' := by
  induction h with
  | same => exact .refl _
  | folder h htakes ih => exact ih.trans ⟨rfl, Entry.grown_put htakes⟩
  | file h hplace htakes ih => exact ih.trans ⟨rfl, Entry.grown_put htakes⟩

/-- A file that was not written keeps its content. -/
theorem at?_file {content : ByteArray} (h : t.Built written t')
    (hfile : t.top.at? place = some (.file content)) (hplace : ¬ written place) :
    t'.top.at? place = some (.file content) := by
  induction h with
  | same => exact hfile
  | folder h htakes ih =>
      refine Entry.at?_put_of_ne htakes ih ?_
      rintro rfl
      obtain ⟨_, _, -, hfolder⟩ := htakes.2 _ ih
      cases hfolder
  | file h hwritten htakes ih =>
      refine Entry.at?_put_of_ne htakes ih ?_
      rintro rfl
      exact hplace hwritten

/-- No link is made. -/
theorem at?_link {target : List String} (h : t.Built written t')
    (hlink : t'.top.at? place = some (.link target)) : t.top.at? place = some (.link target) := by
  induction h with
  | same => exact hlink
  | folder h htakes ih => exact ih (Entry.at?_link_of_put Entry.hasNoLink_folder_nil hlink)
  | file h hwritten htakes ih => exact ih (Entry.at?_link_of_put (Entry.hasNoLink_file _) hlink)

/-- What holds no link holds none afterwards. -/
theorem leadsTo_hasNoLink (h : t.Built written t') (hleads : t.LeadsTo path place e)
    (hlinks : e.HasNoLink) : ∃ e', t'.LeadsTo path place e' ∧ e'.HasNoLink := by
  obtain ⟨e', hleads', -⟩ := h.grown.leadsTo hleads
  refine ⟨e', hleads', ?_⟩
  intro below target hlink
  have he := (leadsTo_iff.mp hleads).2.2
  have he' := (leadsTo_iff.mp hleads').2.2
  have hbefore : t.top.at? (place ++ below) = some (.link target) := by
    refine h.at?_link ?_
    rw [Entry.at?_append, he']
    exact hlink
  rw [Entry.at?_append, he] at hbefore
  exact hlinks below target hbefore

/-- A file keeps its content if its path leads to none of the places that were written. -/
theorem leadsTo_file {content : ByteArray} (h : t.Built written t')
    (hleads : t.LeadsTo path place (.file content)) (hplace : ¬ written place) :
    t'.LeadsTo path place (.file content) := by
  obtain ⟨e', hleads', -⟩ := h.grown.leadsTo hleads
  have he' := (leadsTo_iff.mp hleads').2.2
  have hsame := h.at?_file (leadsTo_iff.mp hleads).2.2 hplace
  rw [he'] at hsame
  rwa [Option.some.inj hsame] at hleads'

end Built

/-! ### What the operations build -/

/-- Nothing is at a free place, and the folder is there that would hold it. -/
theorem takes_of_free (new : Entry) (h : t.spot path = .free place) : t.top.Takes place new := by
  obtain ⟨-, front, name, entries, k, rfl, -, hfolder, -, -, hfind⟩ := ends_of_free h
  refine ⟨Entry.fits_snoc hfolder name, ?_⟩
  intro e he
  rw [Entry.at?_snoc hfolder, hfind] at he
  cases he

/-- What is put at a free place is what the path leads to. -/
theorem leadsTo_put_of_free (h : t.spot path = .free place) (hlink : ∀ target, e ≠ .link target)
    (htakes : t.top.Takes place e) : (t.put place e).LeadsTo path place e := by
  obtain ⟨hnameable, front, name, entries, k, rfl, hwalks, hfolder, hname, hsize, -⟩ :=
    ends_of_free h
  have hgrown := Entry.grown_put htakes
  obtain ⟨_, hfolder', entries', rfl⟩ := hgrown _ _ hfolder
  have hself := Entry.at?_put_self htakes.1 e
  rw [Entry.at?_snoc hfolder'] at hself
  refine ⟨k, ?_⟩
  have hspot : (t.put (front ++ [name]) e).spot path =
      (Entry.put e (front ++ [name]) t.top).walk maxLinks [] path :=
    spot_of_isNameable hnameable
  rw [hspot, (hwalks.grown hgrown).walk_eq, Entry.walk_name hfolder' hname hsize, hself]
  have hend : (Entry.put e (front ++ [name]) t.top).walk k (front ++ [name]) [] =
      .found (front ++ [name]) e k := Entry.walk_nil (Entry.at?_put_self htakes.1 e)
  cases e with
  | link target => exact absurd rfl (hlink target)
  | file content => exact hend
  | folder inner => exact hend

/-- The ways in which a folder is made: it is there already, or an empty one is put at the free place
that the path leads to. -/
inductive Made (t : FileTree) (path : List String) : FileTree → Prop
  | there (hfolder : t.isFolder path = true) : Made t path t
  | new {place : List String} (hfree : t.spot path = .free place)
      (htaken : t.isTaken path = false) : Made t path (t.put place (.folder []))

theorem made_of_makeFolder (h : t.makeFolder path = .ok t') : t.Made path t' := by
  unfold makeFolder at h
  cases hspot : t.spot path with
  | found place e k =>
      rw [hspot] at h
      dsimp only at h
      split at h
      · rename_i hfolder
        cases h
        have hleads : t.LeadsTo path place e := ⟨k, hspot⟩
        exact .there (hleads.isFolder_eq.trans hfolder)
      · cases h
  | free place =>
      rw [hspot] at h
      dsimp only at h
      split at h
      · cases h
      · rename_i htaken
        cases h
        exact .new hspot (Bool.eq_false_iff.mpr htaken)
  | problem problem =>
      rw [hspot] at h
      cases problem <;> cases h

theorem built_of_makeFolder (h : t.makeFolder path = .ok t') : t.Built (fun _ => False) t' := by
  cases made_of_makeFolder h with
  | there => exact .same
  | new hfree => exact .folder .same (takes_of_free _ hfree)

/-- What is kept when a folder is made is kept when those above it are made as well. -/
theorem makeFolders_keeps {P : FileTree → Prop}
    (hstep : ∀ {front : List String} {t t' : FileTree}, front <+: path → P t →
      t.makeFolder front = .ok t' → P t') (h : P t) : P (t.makeFolders path).2 := by
  have hshorter : ∀ {front path : List String}, front <+: path.dropLast → front <+: path :=
    fun hfront => hfront.trans (List.dropLast_prefix _)
  induction path using makeFolders.induct t with
  | case1 path t₁ hok =>
      rw [makeFolders, hok]
      exact hstep List.prefix_rfl h hok
  | case2 path fault herror hmissing fault' t₁ habove ih =>
      rw [makeFolders, herror]
      dsimp only
      rw [dif_pos hmissing, habove]
      rw [habove] at ih
      exact ih fun hfront => hstep (hshorter hfront)
  | case3 path fault herror hmissing t₁ habove t₂ hok ih =>
      rw [makeFolders, herror]
      dsimp only
      rw [dif_pos hmissing, habove]
      dsimp only
      rw [hok]
      rw [habove] at ih
      exact hstep List.prefix_rfl (ih fun hfront => hstep (hshorter hfront)) hok
  | case4 path fault herror hmissing t₁ habove fault' herror' ih =>
      rw [makeFolders, herror]
      dsimp only
      rw [dif_pos hmissing, habove]
      dsimp only
      rw [herror']
      rw [habove] at ih
      exact ih fun hfront => hstep (hshorter hfront)
  | case5 path fault herror hmissing =>
      rw [makeFolders, herror]
      dsimp only
      rw [dif_neg hmissing]
      exact h

theorem built_makeFolders (t : FileTree) (path : List String) :
    t.Built (fun _ => False) (t.makeFolders path).2 :=
  makeFolders_keeps (fun _ hbuilt hmade => hbuilt.trans (built_of_makeFolder hmade)) .same

/-- A folder could be made at once, or after those above it. -/
theorem makeFolders_ok (h : t.makeFolders path = (.ok (), t')) : t.makeFolder path = .ok t' ∨
    ∃ fault t₁, t.makeFolder path = .error fault ∧ path ≠ [] ∧
      t.makeFolders path.dropLast = (.ok (), t₁) ∧ t₁.makeFolder path = .ok t' := by
  rw [makeFolders] at h
  cases hmade : t.makeFolder path with
  | ok t₁ =>
      rw [hmade] at h
      cases h
      exact .inl rfl
  | error fault =>
      rw [hmade] at h
      dsimp only at h
      split at h
      · rename_i hmissing
        cases habove : t.makeFolders path.dropLast with
        | mk result t₁ =>
            rw [habove] at h
            cases result with
            | error fault' => cases h
            | ok u =>
                dsimp only at h
                cases hmade' : t₁.makeFolder path with
                | error fault' => rw [hmade'] at h; cases h
                | ok t₂ =>
                    rw [hmade'] at h
                    cases h
                    exact .inr ⟨fault, t₁, rfl, hmissing.2, rfl, hmade'⟩
      · cases h

/-- The ways in which a file is written: as a new one at the free place that the path leads to, or over
the one that is there. -/
inductive Wrote (t : FileTree) (path : List String) (content : ByteArray) : FileTree → Prop
  | new {place : List String} (hfree : t.spot path = .free place) :
      Wrote t path content (t.put place (.file content))
  | found {place : List String} {old : ByteArray} {k : Nat}
      (hfound : t.spot path = .found place (.file old) k) :
      Wrote t path content (t.put place (.file content))

theorem wrote_of_write {content : ByteArray} (h : t.write path content = .ok t') :
    t.Wrote path content t' := by
  unfold write at h
  cases hspot : t.spot path with
  | free place =>
      rw [hspot] at h
      cases h
      exact .new hspot
  | problem problem => rw [hspot] at h; cases h
  | found place e k =>
      rw [hspot] at h
      cases e with
      | folder entries => cases h
      | link target => cases h
      | file old =>
          cases h
          exact .found hspot

/-- A file that is written is at a place that takes it, and that is where the path leads then. -/
theorem write_ok {content : ByteArray} (h : t.write path content = .ok t') :
    ∃ place, t' = t.put place (.file content) ∧ t.top.Takes place (.file content) ∧
      t'.LeadsTo path place (.file content) := by
  cases wrote_of_write h with
  | new hfree =>
      have htakes := takes_of_free (.file content) hfree
      exact ⟨_, rfl, htakes, leadsTo_put_of_free hfree (fun _ hlink => by cases hlink) htakes⟩
  | found hfound =>
      rename_i place old k
      have hleads : t.LeadsTo path place (.file old) := ⟨k, hfound⟩
      have hold := (leadsTo_iff.mp hleads).2.2
      have htakes : t.top.Takes place (.file content) := by
        refine ⟨Entry.fits_of_at? hold, ?_⟩
        intro e he
        rw [hold] at he
        cases he
        exact ⟨old, content, rfl, rfl⟩
      refine ⟨place, rfl, htakes, ?_⟩
      have hbuilt : t.Built (fun _ => True) (t.put place (.file content)) :=
        .file .same trivial htakes
      obtain ⟨e', hleads', -⟩ := hbuilt.grown.leadsTo hleads
      have hself := Entry.at?_put_self htakes.1 (.file content)
      rwa [Option.some.inj ((leadsTo_iff.mp hleads').2.2.symm.trans hself)] at hleads'

theorem LeadsTo.write_eq {old : ByteArray} (h : t.LeadsTo path place (.file old))
    (content : ByteArray) :
    t.write path content = .ok (t.put place (.file content)) := by
  obtain ⟨k, hspot⟩ := h
  unfold write
  rw [hspot]
  rfl

theorem write_grown {content : ByteArray} (h : t.write path content = .ok t') : t.Grown t' := by
  obtain ⟨place, rfl, htakes, -⟩ := write_ok h
  have hbuilt : t.Built (fun _ => True) (t.put place (.file content)) := .file .same trivial htakes
  exact hbuilt.grown

/-- A file that is written is what every path to its place leads to. -/
theorem LeadsTo.of_write {path' : List String} {old content : ByteArray}
    (h : t.LeadsTo path place (.file old)) (h' : t.LeadsTo path' place (.file old))
    (hwrite : t.write path content = .ok t') : t'.LeadsTo path' place (.file content) := by
  obtain ⟨e, he, -⟩ := (write_grown hwrite).leadsTo h
  obtain ⟨e', he', -⟩ := (write_grown hwrite).leadsTo h'
  obtain ⟨written, rfl, -, hleads⟩ := write_ok hwrite
  obtain ⟨rfl, rfl⟩ := hleads.unique he
  have hsame := (leadsTo_iff.mp he').2.2.symm.trans (leadsTo_iff.mp he).2.2
  rwa [Option.some.inj hsame] at he'

end FileTree

end PhpMigration
