/-
What laying a skeleton adds.

A file is only written where its path leads to nothing, and the folder is there by then.  So no file
that was there is touched, whether the laying comes to its end or not (`built_lay_new`), and when it
does, the skeleton stands and is left alone from then on.

The files are told apart at the moment at which it is their turn.  What was there before the laying
began is kept; what is kept was there before, unless the laying itself has put it there in the
meantime.  That can happen in two ways.  A link at the path of one file may lead to the path of
another one.  And a path that goes back through a folder that is missing has that folder made, even
where a file is due later.  Apart from these, what is made on the way is not where a file belongs
(`makeFolders_since`), and the two are the same (`found_iff`).
-/
import PhpMigration.Proofs.Project.Listing
import PhpMigration.Proofs.Project.Rerun

namespace PhpMigration

/-! ### Walks to a free place -/

namespace Entry

variable {top : Entry} {links k : Nat} {done todo place left : List String}

/-- Where no link stands on the way, a walk goes straight on. -/
theorem Walks.straight (h : Walks top links done todo k place left) (hdots : ".." ∉ todo)
    (hlinks : ∀ front target, front <+: todo → top.at? (done ++ front) ≠ some (.link target)) :
    place ++ left = done ++ todo := by
  induction h with
  | here => rfl
  | back hfolder hne h ih => exact absurd List.mem_cons_self hdots
  | follow hfolder hname hsize hfind h ih =>
      rename_i rest _ _ target name entries
      refine absurd ((at?_snoc hfolder name).trans hfind) (hlinks [name] target ?_)
      exact List.cons_prefix_cons.mpr ⟨rfl, List.nil_prefix⟩
  | on hfolder hname hsize hfind hlink h ih =>
      rename_i done rest _ _ name _ entries
      rw [ih (fun hrest => hdots (List.mem_cons_of_mem _ hrest)) ?_, List.append_assoc]
      · rfl
      · intro front target hfront
        rw [List.append_assoc]
        exact hlinks (name :: front) target (List.cons_prefix_cons.mpr ⟨rfl, hfront⟩)

/-- What is there after something without content was put at a place was there before, or is on the
way to that place. -/
theorem at?_of_put {new e : Entry} {place other : List String}
    (hnew : ∀ name rest, new.at? (name :: rest) = none)
    (h : (put new place top).at? other = some e) :
    (∃ e', top.at? other = some e') ∨ other <+: place := by
  induction place generalizing top other with
  | nil =>
      cases other with
      | nil => exact .inr List.nil_prefix
      | cons name rest => rw [put, hnew] at h; cases h
  | cons name rest ih =>
      cases top with
      | file content => exact .inl ⟨e, h⟩
      | link target => exact .inl ⟨e, h⟩
      | folder entries =>
          cases other with
          | nil => exact .inr List.nil_prefix
          | cons n other =>
              rw [put, at?, Table.find?_set] at h
              rw [at?]
              by_cases hn : n = name
              · subst hn
                rw [if_pos rfl] at h
                rcases ih h with ⟨e', he'⟩ | hbelow
                · cases hfind : Table.find? entries n with
                  | some inner =>
                      rw [hfind] at he'
                      exact .inl ⟨e', he'⟩
                  | none =>
                      rw [hfind] at he'
                      cases other with
                      | nil => exact .inr (List.cons_prefix_cons.mpr ⟨rfl, List.nil_prefix⟩)
                      | cons m other => cases he'
                · exact .inr (List.cons_prefix_cons.mpr ⟨rfl, hbelow⟩)
              · rw [if_neg hn] at h
                exact .inl ⟨e, h⟩

end Entry

namespace FileTree

variable {t t' : FileTree} {path place names : List String} {name : String} {e : Entry}

/-- Where no link stands on the way, a path leads straight on. -/
theorem LeadsTo.straight {below : List String} {inner : Entry} (h : t.LeadsTo path place e)
    (hdots : ".." ∉ names)
    (hlinks : ∀ front target, front <+: names → t.top.at? (place ++ front) ≠ some (.link target))
    (hbelow : t.LeadsTo (path ++ names) below inner) : below = place ++ names := by
  obtain ⟨k, k', hwalks⟩ := h.walks_below hbelow
  have hsame := hwalks.straight hdots hlinks
  rwa [List.append_nil] at hsame

/-- A way through folders below the end of a path is the way that the longer path leads. -/
theorem LeadsTo.append {inner : Entry} (h : t.LeadsTo path place e)
    (hnames : ∀ name ∈ names, name ≠ ".." ∧ ¬ maxNameBytes < name.utf8ByteSize)
    (hnameable : t.IsNameable (path ++ names)) (hinner : t.top.at? (place ++ names) = some inner)
    (hlink : ∀ target, inner ≠ .link target) :
    t.LeadsTo (path ++ names) (place ++ names) inner := by
  obtain ⟨-, ⟨k, hwalks⟩, -⟩ := leadsTo_iff.mp h
  have hrest : Entry.Walks t.top k place names k (place ++ names) [] :=
    Entry.walks_of_at? hinner hlink (fun hdots => (hnames _ hdots).1 rfl)
      fun name hname => (hnames name hname).2
  refine ⟨k, ?_⟩
  rw [spot_of_isNameable hnameable, (hwalks.append names).walk_eq, List.nil_append, hrest.walk_eq,
    Entry.walk_nil hinner]

/-- What can be asked for below the end of a path is not too long. -/
theorem LeadsTo.isNameable_append {there : Bool} (h : t.LeadsTo path place e)
    (hnames : ∀ name ∈ names, name.toList.contains '\x00' = false)
    (hfound : t.leadsToEntry (path ++ names) = .ok there) : t.IsNameable (path ++ names) := by
  have hnull : ((path ++ names).any fun name => name.toList.contains '\x00') = false := by
    rw [List.any_append, (leadsTo_iff.mp h).1.1, Bool.false_or]
    exact List.any_eq_false.mpr fun name hname => Bool.eq_false_iff.mp (hnames name hname)
  refine ⟨hnull, fun hlong => ?_⟩
  unfold leadsToEntry entry? spot at hfound
  rw [hnull, if_neg Bool.false_ne_true, if_pos hlong] at hfound
  cases hfound

/-- Whatever is in a tree now was there before, or is at one of some places. -/
def Since (t t' : FileTree) (added : List String → Prop) : Prop :=
  ∀ place e, t'.top.at? place = some e → (∃ e', t.top.at? place = some e') ∨ added place

theorem Since.refl (t : FileTree) (added : List String → Prop) : t.Since t added :=
  fun _ e he => .inl ⟨e, he⟩

theorem Since.mono {added more : List String → Prop} (h : t.Since t' added)
    (himp : ∀ place, added place → more place) : t.Since t' more := by
  intro place e he
  exact (h place e he).imp_right (himp place)

theorem Since.trans {t'' : FileTree} {added : List String → Prop} (h : t.Since t' added)
    (h' : t'.Since t'' added) : t.Since t'' added := by
  intro place e he
  rcases h' place e he with ⟨e', he'⟩ | hadded
  · exact h place e' he'
  · exact .inr hadded

/-- What holds nothing later held nothing before. -/
theorem Grown.at?_eq_none (h : t.Grown t') (hnone : t'.top.at? place = none) :
    t.top.at? place = none := by
  cases hat : t.top.at? place with
  | none => rfl
  | some e =>
      obtain ⟨e', he', -⟩ := h.top place e hat
      rw [hnone] at he'
      cases he'

/-- Nothing is at a free place. -/
theorem at?_of_free (h : t.spot path = .free place) : t.top.at? place = none := by
  have htakes := takes_of_free (.folder []) h
  cases hat : t.top.at? place with
  | none => rfl
  | some e =>
      obtain ⟨content, content', -, hfolder⟩ := htakes.2 e hat
      cases hfolder

/-- The folder is there that holds a free place. -/
theorem folder_of_free (h : t.spot path = .free place) :
    ∃ front name entries, place = front ++ [name] ∧ t.top.at? front = some (.folder entries) := by
  obtain ⟨-, front, name, entries, k, hplace, -, hfolder, -⟩ := ends_of_free h
  exact ⟨front, name, entries, hplace, hfolder⟩

/-- Something without content that is put at a free place is all that is added. -/
theorem since_put_of_free {new : Entry} (h : t.spot path = .free place)
    (hnew : ∀ name rest, new.at? (name :: rest) = none) :
    t.Since (t.put place new) (· = place) := by
  intro other e he
  rcases Entry.at?_of_put hnew he with hbefore | hprefix
  · exact .inl hbefore
  · obtain ⟨front, name, entries, rfl, hfolder⟩ := folder_of_free h
    rcases List.prefix_concat_iff.mp hprefix with heq | ⟨rest, hrest⟩
    · exact .inr heq
    · left
      rw [← hrest, Entry.at?_append] at hfolder
      obtain ⟨e', he', -⟩ := Option.bind_eq_some_iff.mp hfolder
      exact ⟨e', he'⟩

/-! ### Folders on the way -/

/-- A folder that is made is put below the one that the path before its last name leads to. -/
theorem makeFolder_cases (hname : name ≠ "..") (h : t.makeFolder (path ++ [name]) = .ok t') :
    (t' = t ∧ t.isFolder (path ++ [name]) = true) ∨
      ∃ front entries, t.LeadsTo path front (.folder entries) ∧
        t.spot (path ++ [name]) = .free (front ++ [name]) ∧
        t' = t.put (front ++ [name]) (.folder []) := by
  cases made_of_makeFolder h with
  | there hfolder => exact .inl ⟨rfl, hfolder⟩
  | new hspot htaken =>
      right
      obtain ⟨hnameable, front, last, entries, k, rfl, hwalks, hfolder, -⟩ := ends_of_free hspot
      obtain ⟨k', between, inner, hleads, hlast⟩ :=
        exists_leadsTo_of_walks hnameable hwalks (Nat.le_refl 1) hfolder
      have hbetween := (leadsTo_iff.mp hleads).2.2
      -- the name is free in that folder, since otherwise it would be in the way
      have hfree : Table.find? inner name = none := by
        obtain ⟨_, hspot'⟩ := hleads
        unfold isTaken at htaken
        rw [List.dropLast_concat, hspot'] at htaken
        simpa [Entry.entries, Table.has] using htaken
      have hplace : front ++ [last] = between ++ [name] := by
        cases hlast with
        | here => rfl
        | back => exact absurd rfl hname
        | follow hthere _ _ hfind _ =>
            obtain rfl := Entry.folder.inj (Option.some.inj (hbetween.symm.trans hthere))
            rw [hfree] at hfind
            cases hfind
        | on hthere _ _ hfind _ _ =>
            obtain rfl := Entry.folder.inj (Option.some.inj (hbetween.symm.trans hthere))
            rw [hfree] at hfind
            cases hfind
      exact ⟨between, inner, hleads, hplace ▸ hspot, by rw [hplace]⟩

theorem eq_of_makeFolder_nil (h : t.makeFolder [] = .ok t') : t' = t := by
  cases made_of_makeFolder h with
  | there => rfl
  | new hfree =>
      have hwalk : t.top.walk maxLinks [] [] = .found [] t.top maxLinks := Entry.walk_nil rfl
      rw [spot_of_isNameable (ends_of_free hfree).1, hwalk] at hfree
      cases hfree

/-- A new folder is where its path leads, and nothing else is new but what it was put into. -/
structure Fresh (t t' : FileTree) (path : List String) (name : String) (front : List String) :
    Prop where
  base : ∃ entries, t'.LeadsTo path front (.folder entries)
  leads : t'.LeadsTo (path ++ [name]) (front ++ [name]) (.folder [])
  since : t.Since t' (· <+: front ++ [name])

theorem fresh_put {front : List String} {entries : List (String × Entry)}
    (hleads : t.LeadsTo path front (.folder entries))
    (hfree : t.spot (path ++ [name]) = .free (front ++ [name])) :
    t.Fresh (t.put (front ++ [name]) (.folder [])) path name front := by
  have htakes := takes_of_free (.folder []) hfree
  have hgrown : t.Grown (t.put (front ++ [name]) (.folder [])) := ⟨rfl, Entry.grown_put htakes⟩
  obtain ⟨_, hleads', entries', rfl⟩ := hgrown.leadsTo hleads
  refine ⟨⟨entries', hleads'⟩, leadsTo_put_of_free hfree (fun _ h => by cases h) htakes, ?_⟩
  exact (since_put_of_free hfree fun _ _ => rfl).mono fun _ h => h ▸ List.prefix_rfl

/-- A path leads nowhere below a folder that is empty. -/
theorem LeadsTo.isFolder_below {name : String} (h : t.LeadsTo path place (.folder []))
    (hname : name ≠ "..") : t.isFolder (path ++ [name]) = false := by
  refine Bool.eq_false_iff.mpr fun hfolder => ?_
  obtain ⟨below, entries, hbelow⟩ := isFolder_iff.mp hfolder
  obtain rfl := h.place_of_hasNoLink Entry.hasNoLink_folder_nil (by simpa using hname.symm) hbelow
  have hat := (leadsTo_iff.mp hbelow).2.2
  rw [Entry.at?_snoc (leadsTo_iff.mp h).2.2] at hat
  cases hat

/-- **Making folders along a path that never goes back** changes nothing, or what is new is on the
way to the last of them. -/
theorem makeFolders_cases (hdots : ".." ∉ path) (h : t.makeFolders path = (.ok (), t')) :
    (t' = t ∧ t.isFolder path = true) ∨
      ∃ base name front, path = base ++ [name] ∧ t.Fresh t' base name front := by
  induction path using List.reverseRecOn generalizing t' with
  | nil =>
      rcases makeFolders_ok h with hok | ⟨fault, t₁, -, hne, -⟩
      · exact .inl ⟨eq_of_makeFolder_nil hok, eq_of_makeFolder_nil hok ▸ isFolder_of_makeFolder hok⟩
      · exact absurd rfl hne
  | append_singleton path name ih =>
      obtain ⟨hpath, hname⟩ : ".." ∉ path ∧ name ≠ ".." := by
        rw [List.mem_append, List.mem_singleton, not_or] at hdots
        exact ⟨hdots.1, Ne.symm hdots.2⟩
      rcases makeFolders_ok h with hok | ⟨fault, t₁, herror, -, habove, hok⟩
      · rcases makeFolder_cases hname hok with ⟨heq, hfolder⟩ | ⟨front, entries, hleads, hfree, rfl⟩
        · exact .inl ⟨heq, hfolder⟩
        · exact .inr ⟨path, name, front, rfl, fresh_put hleads hfree⟩
      · rw [List.dropLast_concat] at habove
        rcases ih hpath habove with ⟨rfl, -⟩ | ⟨base, last, front, rfl, hfresh⟩
        · -- without any change it would fail a second time
          rw [herror] at hok
          cases hok
        · rcases makeFolder_cases hname hok with ⟨-, hfolder⟩ | ⟨front', entries, hleads, hfree, rfl⟩
          · rw [hfresh.leads.isFolder_below hname] at hfolder
            cases hfolder
          · have hmore := fresh_put hleads hfree
            obtain ⟨rfl, -⟩ := hleads.unique hfresh.leads
            refine .inr ⟨_, name, _, rfl, hmore.base, hmore.leads, ?_⟩
            exact (hfresh.since.mono fun _ h => h.trans (List.prefix_append _ _)).trans hmore.since

/-- A folder that is made below a folder, or along a path that never goes back, is all that is new
but what it was put into. -/
theorem makeFolders_fresh (hname : name ≠ "..") (hpath : ".." ∉ path ∨ t.isFolder path = true)
    (h : t.makeFolders (path ++ [name]) = (.ok (), t')) :
    t' = t ∨ ∃ front, t.Fresh t' path name front := by
  rcases hpath with hdots | hfolder
  · have hdots' : ".." ∉ path ++ [name] := by simp [hdots, hname.symm]
    rcases makeFolders_cases hdots' h with ⟨heq, -⟩ | ⟨base, last, front, heq, hfresh⟩
    · exact .inl heq
    · obtain ⟨rfl, hlast⟩ := List.append_inj' heq rfl
      obtain rfl := List.singleton_inj.mp hlast
      exact .inr ⟨front, hfresh⟩
  · rcases makeFolders_ok h with hmade | ⟨fault, t₁, herror, -, habove, hmade⟩
    · rcases makeFolder_cases hname hmade with ⟨heq, -⟩ | ⟨front, entries, hleads, hfree, rfl⟩
      · exact .inl heq
      · exact .inr ⟨front, fresh_put hleads hfree⟩
    · -- the folder above is there, so that a second attempt fails like the first
      rw [List.dropLast_concat, makeFolders_of_isFolder hfolder] at habove
      cases habove
      rw [herror] at hmade
      cases hmade

end FileTree

namespace Skeleton

open FileTree

variable {t t' : FileTree} {path place : List String} {entries : List (String × Entry)}

/-- The folders that are made are all that is new, but what the first of them was put into. -/
theorem makeFolders_since {names : List String} (hnames : ".." ∉ names)
    (hpath : ".." ∉ path ∨ t.isFolder path = true)
    (hleads : t'.LeadsTo path place (.folder entries))
    (h : makeFolders path names t = (.ok (), t')) :
    t.Since t' fun added => ∃ name ∈ names, added <+: place ++ [name] := by
  induction names generalizing t with
  | nil =>
      cases h
      exact .refl _ _
  | cons name rest ih =>
      obtain ⟨hname, hrest⟩ := not_or.mp (mt List.mem_cons.mpr hnames)
      obtain ⟨t₁, hmade, hlater⟩ := makeFolders_cons_ok h
      have hgrown := (built_makeFolders path rest t₁).grown
      rw [hlater] at hgrown
      obtain ⟨there, inner, hinner⟩ := isFolder_iff.mp (FileTree.isFolder_of_makeFolders hmade)
      obtain ⟨above, outer, habove⟩ := exists_leadsTo_of_append hinner
      have hfirst : t.Since t₁ (· <+: place ++ [name]) := by
        rcases makeFolders_fresh (Ne.symm hname) hpath hmade with rfl | ⟨front, hfresh⟩
        · exact .refl t₁ _
        · obtain ⟨_, hfront⟩ := hfresh.base
          obtain ⟨_, hfront', -⟩ := hgrown.leadsTo hfront
          obtain ⟨rfl, -⟩ := hfront'.unique hleads
          exact hfresh.since
      have hmore := ih hrest (.inr (isFolder_iff.mpr ⟨above, outer, habove⟩)) hlater
      refine (hfirst.mono fun _ hadded => ⟨name, List.mem_cons_self, hadded⟩).trans
        (hmore.mono ?_)
      rintro added ⟨other, hother, hadded⟩
      exact ⟨other, List.mem_cons_of_mem name hother, hadded⟩

/-! ### One file after the other -/

/-- The folders are there in which the files of a skeleton belong. -/
def IsReady (path : List String) (names : List String) (t : FileTree) : Prop :=
  ∀ name ∈ names, Path.parts name ≠ [] ∧ t.isFolder (path ++ (Path.parts name).dropLast) = true

theorem IsReady.grown {names : List String} (h : IsReady path names t) (hgrown : t.Grown t') :
    IsReady path names t' := fun name hname =>
  ⟨(h name hname).1, hgrown.isFolder (h name hname).2⟩

/-- The folder is there in which a file belongs. -/
theorem IsReady.isFolder {name : String} (h : IsReady path [name] t) :
    t.isFolder (path ++ Path.parts name).dropLast = true := by
  obtain ⟨hne, hfolder⟩ := h name List.mem_cons_self
  rwa [List.dropLast_append_of_ne_nil hne]

/-- A file is written at a free place. -/
theorem writeFiles_of_free {files : Table String} {name content : String} (report : Report)
    (hready : IsReady path [name] t) (hfree : t.spot (path ++ Path.parts name) = .free place) :
    writeFiles path ((name, content) :: files) report t =
      writeFiles path files { report with written := report.written ++ [name] }
        (t.put place (.file (Text.Utf8.encode content))) := by
  have hthere : t.leadsToEntry (path ++ Path.parts name) = .ok false := by
    unfold leadsToEntry entry?
    rw [hfree]
    rfl
  have hwrite : t.write (path ++ Path.parts name) (Text.Utf8.encode content) =
      .ok (t.put place (.file (Text.Utf8.encode content))) := by
    unfold write
    rw [hfree]
    rfl
  rw [writeFiles, hthere]
  dsimp only
  rw [writeFile_of_isFolder hready.isFolder, hwrite]

/-- What becomes of the first of some files: it cannot be asked for or written, it is kept, or it is
written where nothing was. -/
theorem writeFiles_cases (files : Table String) {name : String} (content : String)
    (report : Report) (hready : IsReady path [name] t) :
    (∃ fault, writeFiles path ((name, content) :: files) report t = (.error fault, t)) ∨
    (t.leadsToEntry (path ++ Path.parts name) = .ok true ∧
      writeFiles path ((name, content) :: files) report t =
        writeFiles path files { report with kept := report.kept ++ [name] } t) ∨
    ∃ place, t.leadsToEntry (path ++ Path.parts name) = .ok false ∧
      t.spot (path ++ Path.parts name) = .free place ∧
      writeFiles path ((name, content) :: files) report t =
        writeFiles path files { report with written := report.written ++ [name] }
          (t.put place (.file (Text.Utf8.encode content))) := by
  have hwritten := writeFile_of_isFolder hready.isFolder content
  rcases writeFiles_cons path files name content report t with
    ⟨fault, t₁, heq, hsame⟩ | hkept | ⟨t₁, hthere, hwrite, heq⟩
  · refine .inl ⟨fault, heq.trans (congrArg _ ?_)⟩
    rcases hsame with rfl | hwrite
    · rfl
    · rw [hwritten] at hwrite
      split at hwrite <;> cases hwrite
      rfl
  · exact .inr (.inl hkept)
  · rw [hwritten] at hwrite
    split at hwrite
    · rename_i hput
      cases hwrite
      cases wrote_of_write hput with
      | new hfree => exact .inr (.inr ⟨_, hthere, hfree, heq⟩)
      | found hfound =>
          rw [leadsToEntry_eq_ok_true_iff.mpr ⟨_, _, _, hfound⟩] at hthere
          cases hthere
    · cases hwrite

/-- Nothing is written but where nothing was. -/
theorem built_writeFiles_new {files : Table String} (report : Report)
    (hready : IsReady path files.names t) :
    t.Built (fun place => t.top.at? place = none) (writeFiles path files report t).2 := by
  induction files generalizing report t with
  | nil => exact .same
  | cons entry rest ih =>
      obtain ⟨name, content⟩ := entry
      obtain ⟨hfirst, hrest⟩ := List.forall_mem_cons.mp hready
      rcases writeFiles_cases rest content report
        (List.forall_mem_singleton.mpr hfirst) with ⟨fault, heq⟩ | ⟨-, heq⟩ | ⟨place, -, hfree, heq⟩
      · rw [heq]
        exact .same
      · rw [heq]
        exact ih _ hrest
      · rw [heq]
        have hput : t.Built (fun place => t.top.at? place = none)
            (t.put place (.file (Text.Utf8.encode content))) :=
          .file .same (at?_of_free hfree) (takes_of_free _ hfree)
        refine hput.trans ((ih _ (IsReady.grown hrest hput.grown)).mono ?_)
        exact fun _ => hput.grown.at?_eq_none

/-- The names of files told apart, in order. -/
structure Report.Splits (names : List String) (kept : String → Bool) (r : Report) : Prop where
  written : r.written = names.filter fun name => !kept name
  kept : r.kept = names.filter kept

/-- One name more, which is found to be there or not. -/
theorem Report.Splits.cons {name : String} {rest : List String} {kept : String → Bool} {r : Report}
    (h : r.Splits rest kept) (hname : name ∉ rest) (there : Bool) :
    Splits (name :: rest) (Function.update kept name there)
      (if there then ⟨r.written, name :: r.kept⟩ else ⟨name :: r.written, r.kept⟩) := by
  have hsame : ∀ n ∈ rest, Function.update kept name there n = kept n := fun n hn =>
    Function.update_of_ne (ne_of_mem_of_not_mem hn hname) there kept
  have hwritten : rest.filter (fun n => !Function.update kept name there n) = r.written := by
    rw [h.written]
    exact List.filter_congr fun n hn => by rw [hsame n hn]
  have hkept : rest.filter (Function.update kept name there) = r.kept := by
    rw [h.kept]
    exact List.filter_congr hsame
  cases there with
  | true => exact ⟨by simp [hwritten], by simp [hkept]⟩
  | false => exact ⟨by simp [hwritten], by simp [hkept]⟩

/-- Nothing has come since but what the paths of some other files lead to. -/
structure Meanwhile (path : List String) (others : List String) (t t' : FileTree) : Prop where
  built : t.Built (fun place => t.top.at? place = none) t'
  since : t.Since t' fun place =>
    ∃ other ∈ others, ∃ e, t'.LeadsTo (path ++ Path.parts other) place e

namespace Meanwhile

theorem refl (path others : List String) (t : FileTree) : Meanwhile path others t t :=
  ⟨.same, .refl t _⟩

/-- A file that has been written is where its path leads. -/
theorem put {name : String} {place : List String} (content : ByteArray)
    (hfree : t.spot (path ++ Path.parts name) = .free place) :
    Meanwhile path [name] t (t.put place (.file content)) := by
  have htakes := takes_of_free (.file content) hfree
  refine ⟨.file .same (at?_of_free hfree) htakes, (since_put_of_free hfree fun _ _ => rfl).mono ?_⟩
  rintro other rfl
  exact ⟨name, List.mem_singleton_self name, _,
    leadsTo_put_of_free hfree (fun _ h => by cases h) htakes⟩

theorem trans {others others' all : List String} {t₁ t₂ : FileTree} (h : Meanwhile path others t t₁)
    (h' : Meanwhile path others' t₁ t₂) (hall : others ⊆ all) (hall' : others' ⊆ all) :
    Meanwhile path all t t₂ := by
  refine ⟨h.built.trans (h'.built.mono fun _ => h.built.grown.at?_eq_none), ?_⟩
  refine (h.since.mono ?_).trans (h'.since.mono ?_)
  · rintro place ⟨other, hother, e, hleads⟩
    obtain ⟨e', hleads', -⟩ := h'.built.grown.leadsTo hleads
    exact ⟨other, hall hother, e', hleads'⟩
  · rintro place ⟨other, hother, hleads⟩
    exact ⟨other, hall' hother, hleads⟩

end Meanwhile

/-- **Every file is kept or written, as it is found when it is its turn.** -/
theorem exists_splits {files : Table String} {report report' : Report}
    (hnodup : files.names.Nodup) (hready : IsReady path files.names t)
    (h : writeFiles path files report t = (.ok report', t')) :
    ∃ kept r, Report.Splits files.names kept r ∧
      report' = ⟨report.written ++ r.written, report.kept ++ r.kept⟩ ∧
      ∀ name ∈ files.names, ∃ t₁, Meanwhile path (files.names.erase name) t t₁ ∧
        t₁.leadsToEntry (path ++ Path.parts name) = .ok (kept name) := by
  induction files generalizing report t with
  | nil =>
      cases h
      exact ⟨fun _ => true, {}, ⟨rfl, rfl⟩, by simp, fun name hname => by cases hname⟩
  | cons entry rest ih =>
      obtain ⟨name, content⟩ := entry
      obtain ⟨hname, hrest⟩ := List.nodup_cons.mp hnodup
      obtain ⟨hfirst, hready'⟩ := List.forall_mem_cons.mp hready
      -- whatever is found of the first file, the others have their turn after it
      have hturns : ∀ {t₁ : FileTree} {kept : String → Bool} {there : Bool},
          Meanwhile path [name] t t₁ →
          t.leadsToEntry (path ++ Path.parts name) = .ok there →
          (∀ n ∈ Table.names rest, ∃ t₂, Meanwhile path ((Table.names rest).erase n) t₁ t₂ ∧
            t₂.leadsToEntry (path ++ Path.parts n) = .ok (kept n)) →
          ∀ n ∈ name :: Table.names rest, ∃ t₂,
            Meanwhile path ((name :: Table.names rest).erase n) t t₂ ∧
            t₂.leadsToEntry (path ++ Path.parts n) = .ok (Function.update kept name there n) := by
        intro t₁ kept there hbetween hthere hturn
        refine List.forall_mem_cons.mpr ⟨⟨t, .refl _ _ t, ?_⟩, fun n hn => ?_⟩
        · rw [hthere, Function.update_self]
        · have hne : n ≠ name := ne_of_mem_of_not_mem hn hname
          obtain ⟨t₂, hlater, hfound⟩ := hturn n hn
          refine ⟨t₂, ?_, by rw [hfound, Function.update_of_ne hne]⟩
          rw [List.erase_cons_tail (by simpa using hne.symm)]
          exact hbetween.trans hlater (by simp) (List.subset_cons_self _ _)
      rcases writeFiles_cases rest content report
        (List.forall_mem_singleton.mpr hfirst) with
        ⟨fault, heq⟩ | ⟨hthere, heq⟩ | ⟨place, hthere, hfree, heq⟩
      · rw [heq] at h
        cases h
      · rw [heq] at h
        obtain ⟨kept, r, hsplits, rfl, hturn⟩ := ih hrest hready' h
        exact ⟨_, _, hsplits.cons hname true, by simp, hturns (.refl path [name] t) hthere hturn⟩
      · rw [heq] at h
        have hbetween := Meanwhile.put (Text.Utf8.encode content) hfree
        obtain ⟨kept, r, hsplits, rfl, hturn⟩ :=
          ih hrest (IsReady.grown hready' hbetween.built.grown) h
        exact ⟨_, _, hsplits.cons hname false, by simp, hturns hbetween hthere hturn⟩

/-! ### The whole skeleton -/

/-- A file of a skeleton is in the folder that is laid, or in one that is laid below it, and the
names on its path are in order. -/
structure IsWellPlaced (name : String) : Prop where
  folder : Path.parts name ≠ [] ∧ ((Path.parts name).dropLast = [] ∨
    ∃ folder ∈ folders, (Path.parts name).dropLast = [folder])
  apart : ∀ folder ∈ folders, ¬ Path.parts name <+: [folder]
  names : ∀ part ∈ Path.parts name, part ≠ ".." ∧ ¬ maxNameBytes < part.utf8ByteSize
  null : ∀ part ∈ Path.parts name, part.toList.contains '\x00' = false

/-- The names on the paths of the files. -/
def placesOfFiles : List (List String) :=
  [["index.ts"], ["package.json"], ["tsconfig.json"], ["README.md"], [".env.example"],
    ["config", "database.ts"], ["types", "database.ts"]]

theorem map_parts_names (projectName : String) :
    (Boilerplate.files projectName).names.map Path.parts = placesOfFiles :=
  show ["index.ts", "package.json", "tsconfig.json", "README.md", ".env.example",
    "config/database.ts", "types/database.ts"].map Path.parts = placesOfFiles by decide

theorem parts_mem_placesOfFiles {projectName name : String}
    (h : name ∈ (Boilerplate.files projectName).names) : Path.parts name ∈ placesOfFiles :=
  map_parts_names projectName ▸ List.mem_map_of_mem h

theorem isWellPlaced_of_mem_names {projectName name : String}
    (h : name ∈ (Boilerplate.files projectName).names) : IsWellPlaced name := by
  have hall : ∀ parts ∈ placesOfFiles,
      (parts ≠ [] ∧ (parts.dropLast = [] ∨ ∃ folder ∈ folders, parts.dropLast = [folder])) ∧
      (∀ folder ∈ folders, ¬ parts <+: [folder]) ∧
      (∀ part ∈ parts, part ≠ ".." ∧ ¬ maxNameBytes < part.utf8ByteSize) ∧
      ∀ part ∈ parts, part.toList.contains '\x00' = false := by decide
  obtain ⟨hfolder, hapart, hnames, hnull⟩ := hall _ (parts_mem_placesOfFiles h)
  exact ⟨hfolder, hapart, hnames, hnull⟩

theorem nodup_names (projectName : String) : (Boilerplate.files projectName).names.Nodup :=
  show ["index.ts", "package.json", "tsconfig.json", "README.md", ".env.example",
    "config/database.ts", "types/database.ts"].Nodup by decide

theorem parts_ne_of_mem_erase {projectName name other : String}
    (h : name ∈ (Boilerplate.files projectName).names)
    (hother : other ∈ (Boilerplate.files projectName).names.erase name) :
    Path.parts other ≠ Path.parts name := by
  have hdistinct : ((Boilerplate.files projectName).names.map Path.parts).Nodup := by
    rw [map_parts_names]
    decide
  obtain ⟨hne, hmem⟩ := (nodup_names projectName).mem_erase_iff.mp hother
  exact fun heq => hne (List.inj_on_of_nodup_map hdistinct hmem h heq)

/-- When the folders of a skeleton are there, so is the one that they are in. -/
theorem leadsTo_of_makeFolders (h : makeFolders path folders t = (.ok (), t')) :
    ∃ place entries, t'.LeadsTo path place (.folder entries) := by
  obtain ⟨_, _, hinner⟩ :=
    isFolder_iff.mp (isFolder_of_makeFolders h "controllers" (by decide))
  exact exists_leadsTo_of_append hinner

theorem isReady_of_makeFolders {projectName : String}
    (h : makeFolders path folders t = (.ok (), t')) :
    IsReady path (Boilerplate.files projectName).names t' := by
  intro name hname
  obtain ⟨hne, hdrop | ⟨folder, hfolder, hdrop⟩⟩ := (isWellPlaced_of_mem_names hname).folder
  · refine ⟨hne, ?_⟩
    rw [hdrop, List.append_nil]
    exact isFolder_iff.mpr (leadsTo_of_makeFolders h)
  · refine ⟨hne, ?_⟩
    rw [hdrop]
    exact isFolder_of_makeFolders h folder hfolder

/-- **Laying a skeleton writes no file where anything is.** -/
theorem built_lay_new (path : List String) (projectName : String) (t : FileTree) :
    t.Built (fun place => t.top.at? place = none) (lay path projectName t).2 := by
  have hfolders := built_makeFolders path folders t
  unfold lay
  cases hmade : makeFolders path folders t with
  | mk result t₁ =>
      rw [hmade] at hfolders
      have hmore : t.Built (fun place => t.top.at? place = none) t₁ :=
        hfolders.mono fun _ hno => hno.elim
      cases result with
      | error fault => exact hmore
      | ok u =>
          exact hmore.trans ((built_writeFiles_new {} (isReady_of_makeFolders hmade)).mono
            fun _ => hfolders.grown.at?_eq_none)

/-- No link stands where a file of the skeleton belongs, or where its folder does. -/
def IsUnlinked (place : List String) (projectName : String) (t : FileTree) : Prop :=
  ∀ name ∈ (Boilerplate.files projectName).names, ∀ front target, front <+: Path.parts name →
    t.top.at? (place ++ front) ≠ some (.link target)

theorem IsUnlinked.built {projectName : String} {written : List String → Prop}
    (h : IsUnlinked place projectName t) (hbuilt : t.Built written t') :
    IsUnlinked place projectName t' := by
  intro name hname front target hfront hlink
  exact h name hname front target hfront (hbuilt.at?_link hlink)

/-- A file is found when it is its turn if and only if something was where it belongs before the
folders were made. -/
theorem found_iff {projectName name : String} {t₀ t₁ : FileTree} {there : Bool}
    (hname : name ∈ (Boilerplate.files projectName).names)
    (hunlinked : IsUnlinked place projectName t)
    (hfolders : t.Built (fun _ => False) t₀) (hleads : t₀.LeadsTo path place (.folder entries))
    (hsince : t.Since t₀ fun added => ∃ folder ∈ folders, added <+: place ++ [folder])
    (hbetween : Meanwhile path ((Boilerplate.files projectName).names.erase name) t₀ t₁)
    (hfound : t₁.leadsToEntry (path ++ Path.parts name) = .ok there) :
    there = (t.top.at? (place ++ Path.parts name)).isSome := by
  have hunlinked₁ := (hunlinked.built hfolders).built hbetween.built
  obtain ⟨_, hleads₁, -⟩ := hbetween.built.grown.leadsTo hleads
  have hplaced := isWellPlaced_of_mem_names hname
  have hstraight : ∀ {other : String} {below : List String} {e : Entry},
      other ∈ (Boilerplate.files projectName).names →
      t₁.LeadsTo (path ++ Path.parts other) below e → below = place ++ Path.parts other := by
    intro other below e hother hbelow
    refine hleads₁.straight ?_ (hunlinked₁ other hother) hbelow
    exact fun hdots => ((isWellPlaced_of_mem_names hother).names _ hdots).1 rfl
  cases hat : t.top.at? (place ++ Path.parts name) with
  | some e =>
      obtain ⟨e₁, he₁, -⟩ := (hfolders.grown.trans hbetween.built.grown).top _ e hat
      have hlink : ∀ target, e₁ ≠ .link target := by
        rintro target rfl
        exact hunlinked₁ name hname _ target List.prefix_rfl he₁
      have hleads' : t₁.LeadsTo (path ++ Path.parts name) (place ++ Path.parts name) e₁ :=
        hleads₁.append hplaced.names (hleads₁.isNameable_append hplaced.null hfound) he₁ hlink
      rw [leadsToEntry_eq_ok_true_iff.mpr ⟨_, e₁, hleads'⟩] at hfound
      exact (Except.ok.inj hfound).symm
  | none =>
      cases there with
      | false => rfl
      | true =>
          obtain ⟨below, e, hbelow⟩ := leadsToEntry_eq_ok_true_iff.mp hfound
          obtain rfl := hstraight hname hbelow
          rcases hbetween.since _ e (leadsTo_iff.mp hbelow).2.2 with
            ⟨e₀, he₀⟩ | ⟨other, hother, inner, hinner⟩
          · rcases hsince _ e₀ he₀ with ⟨e', he'⟩ | ⟨folder, hfolder, hprefix⟩
            · rw [hat] at he'
              cases he'
            · exact absurd ((List.prefix_append_right_inj place).mp hprefix)
                (hplaced.apart folder hfolder)
          · have hsame := hstraight (List.mem_of_mem_erase hother) hinner
            exact absurd (List.append_cancel_left hsame).symm (parts_ne_of_mem_erase hname hother)

/-- What there is after a skeleton has been laid, seen from what there was before. -/
structure Completes (path : List String) (projectName : String) (t t' : FileTree)
    (report : Report) : Prop where
  /-- All folders and all files are there. -/
  stands : Stands path projectName t'
  /-- The report tells the files apart, in order, and whatever a path led to is kept. -/
  splits : ∃ kept, report.Splits (Boilerplate.files projectName).names kept ∧
    ∀ name ∈ (Boilerplate.files projectName).names,
      t.leadsToEntry (path ++ Path.parts name) = .ok true → kept name = true
  /-- Without links there, and without going back along a path that is still to be made, a file is
  kept if and only if something was where it belongs. -/
  before : ∃ place entries, t'.LeadsTo path place (.folder entries) ∧
    (IsUnlinked place projectName t → ".." ∉ path ∨ t.isFolder path = true →
      report.Splits (Boilerplate.files projectName).names fun name =>
        (t.top.at? (place ++ Path.parts name)).isSome)
  /-- Another time it is laid without any effect. -/
  again : lay path projectName t' = (.ok { kept := (Boilerplate.files projectName).names }, t')

/-- Laying a skeleton adds what is missing, once. -/
structure AddsOnce (path : List String) (projectName : String) (t : FileTree) : Prop where
  /-- Every file is still there with its content, even if not everything could be laid, … -/
  files : ∀ place content, t.top.at? place = some (.file content) →
    (lay path projectName t).2.top.at? place = some (.file content)
  /-- … and every path that a file was read by reads the same. -/
  read : ∀ other content, t.read other = .ok content →
    (lay path projectName t).2.read other = .ok content
  /-- If everything could be laid, it stands, and the report is about what was there before. -/
  completes : ∀ report, (lay path projectName t).1 = .ok report →
    Completes path projectName t (lay path projectName t).2 report

theorem completes_of_lay {projectName : String} {report : Report}
    (h : lay path projectName t = (.ok report, t')) :
    Completes path projectName t t' report := by
  have hstands := stands_of_lay h
  obtain ⟨t₀, hmade, hwrite⟩ := lay_ok h
  have hfolders : t.Built (fun _ => False) t₀ := by
    have hbuilt := built_makeFolders path folders t
    rwa [hmade] at hbuilt
  have hgrown : t₀.Grown t' := by
    have hbuilt := built_writeFiles path (Boilerplate.files projectName) {} t₀
    rw [hwrite] at hbuilt
    exact hbuilt.grown
  obtain ⟨kept, r, hsplits, rfl, hturns⟩ :=
    exists_splits (nodup_names projectName) (isReady_of_makeFolders hmade) hwrite
  obtain ⟨place, entries, hleads⟩ := leadsTo_of_makeFolders hmade
  obtain ⟨entries', hleads'⟩ := hgrown.leadsTo_folder hleads
  refine ⟨hstands, ⟨kept, ⟨hsplits.written, hsplits.kept⟩, fun name hname hbefore => ?_⟩,
    ⟨place, entries', hleads', fun hunlinked hpath => ?_⟩, lay_of_stands hstands⟩
  · obtain ⟨t₁, hbetween, hfound⟩ := hturns name hname
    obtain ⟨there, e, hthere⟩ := leadsToEntry_eq_ok_true_iff.mp hbefore
    obtain ⟨e₁, hthere₁, -⟩ := (hfolders.grown.trans hbetween.built.grown).leadsTo hthere
    rw [leadsToEntry_eq_ok_true_iff.mpr ⟨there, e₁, hthere₁⟩] at hfound
    exact (Except.ok.inj hfound).symm
  · have hsame : ∀ name ∈ (Boilerplate.files projectName).names,
        kept name = (t.top.at? (place ++ Path.parts name)).isSome := by
      intro name hname
      obtain ⟨t₁, hbetween, hfound⟩ := hturns name hname
      exact found_iff hname hunlinked hfolders hleads
        (makeFolders_since (by decide) hpath hleads hmade) hbetween hfound
    refine ⟨hsplits.written.trans ?_, hsplits.kept.trans (List.filter_congr hsame)⟩
    exact List.filter_congr fun name hname => by rw [hsame name hname]

end Skeleton

/-! ### A part of a skeleton -/

/-- A tree with a skeleton of which two files are missing, with something beside them. -/
def FileTree.partly (more : List (String × Entry)) : FileTree :=
  let empty := Entry.file ByteArray.empty
  ⟨"uploads", .folder [("out", .folder ([("controllers", .folder []), ("models", .folder []),
    ("routes", .folder []), ("middlewares", .folder []),
    ("config", .folder [("database.ts", empty)]), ("utils", .folder []),
    ("types", .folder [("database.ts", empty)]), ("services", .folder []),
    ("tsconfig.json", empty), ("README.md", empty), (".env.example", empty)] ++ more))]⟩

namespace Skeleton

open FileTree

variable {t t' : FileTree} {path : List String}

theorem leadsTo_partly {more : List (String × Entry)} {names : List String} {e : Entry}
    (he : (partly more).top.at? names = some e) (hlink : ∀ target, e ≠ .link target)
    (hnames : ∀ name ∈ names, name ≠ ".." ∧ name.toList.contains '\x00' = false ∧
      ¬ maxNameBytes < name.utf8ByteSize)
    (hsize : ¬ maxPathBytes < (Path.join ("uploads" :: names)).utf8ByteSize) :
    (partly more).LeadsTo names names e :=
  leadsTo_of_names he hlink hnames hsize

theorem isFolder_partly (more : List (String × Entry)) :
    ∀ name ∈ folders, (partly more).isFolder (["out"] ++ [name]) = true := by
  intro name hname
  have hfolder : ∃ entries, (partly more).LeadsTo (["out"] ++ [name]) (["out"] ++ [name])
      (.folder entries) := by
    simp only [folders, List.mem_cons, List.not_mem_nil, or_false] at hname
    rcases hname with rfl | rfl | rfl | rfl | rfl | rfl | rfl | rfl <;>
      exact ⟨_, leadsTo_partly rfl (fun _ h => by cases h) (by decide) (by decide)⟩
  obtain ⟨entries, hentries⟩ := hfolder
  exact hentries.isFolder_eq

theorem leadsToEntry_partly (more : List (String × Entry)) :
    ∀ name ∈ ["tsconfig.json", "README.md", ".env.example", "config/database.ts",
      "types/database.ts"], (partly more).leadsToEntry (["out"] ++ Path.parts name) = .ok true := by
  intro name hname
  have hfile : (partly more).LeadsTo (["out"] ++ Path.parts name) (["out"] ++ Path.parts name)
      (.file ByteArray.empty) := by
    simp only [List.mem_cons, List.not_mem_nil, or_false] at hname
    rcases hname with rfl | rfl | rfl | rfl | rfl <;>
      exact leadsTo_partly (by rfl) (fun _ h => by cases h) (by decide) (by decide)
  exact leadsToEntry_eq_ok_true_iff.mpr ⟨_, _, hfile⟩

/-- The one file that is missing is written, wherever it belongs, if the package file is found
then. -/
theorem lay_partly {more : List (String × Entry)} {place : List String} (projectName : String)
    (hspot : (partly more).spot (["out"] ++ Path.parts "index.ts") = .free place)
    (hpackage : ((partly more).put place
      (.file (Text.Utf8.encode Boilerplate.entryPoint))).leadsToEntry
        (["out"] ++ Path.parts "package.json") = .ok true) :
    (lay ["out"] projectName (partly more)).1 = .ok ⟨["index.ts"], ["package.json",
      "tsconfig.json", "README.md", ".env.example", "config/database.ts",
      "types/database.ts"]⟩ := by
  have hready : IsReady ["out"] ["index.ts"] (partly more) := by
    refine List.forall_mem_singleton.mpr ⟨by decide, ?_⟩
    have hout : (partly more).LeadsTo ["out"] ["out"] (.folder _) :=
      leadsTo_partly rfl (fun _ h => by cases h) (by decide) (by decide)
    rw [show ["out"] ++ (Path.parts "index.ts").dropLast = ["out"] by decide]
    exact hout.isFolder_eq
  have hgrown : (partly more).Grown ((partly more).put place
      (.file (Text.Utf8.encode Boilerplate.entryPoint))) :=
    ⟨rfl, Entry.grown_put (takes_of_free _ hspot)⟩
  unfold lay
  rw [makeFolders_of_isFolder (isFolder_partly more)]
  dsimp only
  unfold Boilerplate.files
  rw [writeFiles_of_free {} hready hspot, writeFiles_of_leadsToEntry]
  · rfl
  · refine List.forall_mem_cons.mpr ⟨hpackage, fun name hname => ?_⟩
    obtain ⟨there, e, hleads⟩ :=
      leadsToEntry_eq_ok_true_iff.mp (leadsToEntry_partly more name hname)
    obtain ⟨e', hleads', -⟩ := hgrown.leadsTo hleads
    exact leadsToEntry_eq_ok_true_iff.mpr ⟨there, e', hleads'⟩

/-- The package file is there; the entry point is missing, or there is a folder instead. -/
def backTree (more : List (String × Entry)) : FileTree :=
  partly (("package.json", .file ByteArray.empty) :: more)

/-- Below the place of the entry point there is nothing, and not even a folder. -/
theorem spot_missing {rest : List String}
    (hnameable : (backTree []).IsNameable ("out" :: "index.ts" :: rest)) :
    (backTree []).spot ("out" :: "index.ts" :: rest) =
      if rest.isEmpty then .free ["out", "index.ts"] else .problem .missing := by
  have hwalks : Entry.Walks (backTree []).top maxLinks [] ("out" :: "index.ts" :: rest) maxLinks
      ["out"] ("index.ts" :: rest) :=
    .on rfl (by decide) (by decide) rfl (fun _ h => by cases h) .here
  rw [spot_of_isNameable hnameable, hwalks.walk_eq, Entry.walk_name rfl (by decide) (by decide)]
  rfl

theorem spot_entryPoint :
    (backTree []).spot (["out"] ++ Path.parts "index.ts") = .free ["out", "index.ts"] := by
  rw [show ["out"] ++ Path.parts "index.ts" = ["out", "index.ts"] by decide]
  exact spot_missing ⟨by decide, by decide⟩

/-- The package file is found as before when the entry point is written. -/
theorem leadsToEntry_packageFile : ((backTree []).put ["out", "index.ts"]
    (.file (Text.Utf8.encode Boilerplate.entryPoint))).leadsToEntry
      (["out"] ++ Path.parts "package.json") = .ok true := by
  have hfile : (backTree []).LeadsTo (["out"] ++ Path.parts "package.json")
      (["out"] ++ Path.parts "package.json") (.file ByteArray.empty) :=
    leadsTo_partly (by rfl) (fun _ h => by cases h) (by decide) (by decide)
  have hgrown : (backTree []).Grown ((backTree []).put ["out", "index.ts"]
      (.file (Text.Utf8.encode Boilerplate.entryPoint))) :=
    ⟨rfl, Entry.grown_put (takes_of_free _ spot_entryPoint)⟩
  obtain ⟨e, hleads, -⟩ := hgrown.leadsTo hfile
  exact leadsToEntry_eq_ok_true_iff.mpr ⟨_, e, hleads⟩

/-! ### Laying it once -/

/-- **Laying a skeleton only adds, and laying it twice is laying it once.** -/
theorem adds_once (path : List String) (projectName : String) (t : FileTree) :
    AddsOnce path projectName t := by
  have hbuilt := built_lay_new path projectName t
  refine ⟨fun place content hfile => hbuilt.at?_file hfile (by simp [hfile]),
    fun other content hread => ?_, fun report hreport => completes_of_lay (Prod.ext hreport rfl)⟩
  unfold FileTree.read at hread
  split at hread
  · rename_i place _ k hspot
    cases hread
    have hleads : t.LeadsTo other place (.file content) := ⟨k, hspot⟩
    have hfile := (leadsTo_iff.mp hleads).2.2
    exact (hbuilt.leadsTo_file hleads (by simp [hfile])).read_eq
  · cases hread
  · cases hread
  · cases hread

/-- Where only the entry point is missing, nothing else is written. -/
theorem adds_once_small : ∃ report,
    (lay ["out"] "demo" (backTree [])).1 = .ok report ∧ report.written = ["index.ts"] ∧
    Completes ["out"] "demo" (backTree []) (lay ["out"] "demo" (backTree [])).2 report := by
  have hlay := lay_partly "demo" spot_entryPoint leadsToEntry_packageFile
  exact ⟨_, hlay, rfl, (adds_once ["out"] "demo" (backTree [])).completes _ hlay⟩

/-! ### What is found only since the laying began -/

/-- The package file is missing, and a link leads to where it belongs from where the entry point
does. -/
def linkedTree : FileTree := partly [("index.ts", .link ["out", "package.json"])]

theorem spot_linkedTree :
    linkedTree.spot (["out"] ++ Path.parts "index.ts") = .free ["out", "package.json"] := by
  have hwalks : Entry.Walks linkedTree.top maxLinks [] ["out", "index.ts"] 39 ["out"]
      ["package.json"] :=
    .on rfl (by decide) (by decide) rfl (fun _ h => by cases h)
      (.follow rfl (by decide) (by decide) rfl
        (.on rfl (by decide) (by decide) rfl (fun _ h => by cases h) .here))
  rw [show ["out"] ++ Path.parts "index.ts" = ["out", "index.ts"] by decide,
    spot_of_isNameable ⟨by decide, by decide⟩, hwalks.walk_eq,
    Entry.walk_name rfl (by decide) (by decide)]
  rfl

/-- The entry point is written where the package file belongs, which is found there then. -/
theorem lay_linkedTree (projectName : String) :
    (lay ["out"] projectName linkedTree).1 = .ok ⟨["index.ts"], ["package.json", "tsconfig.json",
      "README.md", ".env.example", "config/database.ts", "types/database.ts"]⟩ := by
  refine lay_partly projectName spot_linkedTree ?_
  have htakes := takes_of_free (.file (Text.Utf8.encode Boilerplate.entryPoint)) spot_linkedTree
  rw [show ["out"] ++ Path.parts "package.json" = ["out", "package.json"] by decide]
  exact leadsToEntry_eq_ok_true_iff.mpr ⟨_, _, leadsTo_of_names
    (Entry.at?_put_self htakes.1 _) (fun _ h => by cases h) (by decide)
    (show ¬ maxPathBytes < (Path.join ("uploads" :: ["out", "package.json"])).utf8ByteSize
      by decide)⟩

/-- A path that goes back from where the entry point belongs. -/
def backPath : List String := ["out", "index.ts", ".."]

/-- If the folder is there, the path is as good as the one that it goes back to. -/
theorem spot_backTree {names : List String}
    (h : (backTree [("index.ts", .folder [])]).IsNameable (backPath ++ names))
    (h' : (backTree [("index.ts", .folder [])]).IsNameable (["out"] ++ names)) :
    (backTree [("index.ts", .folder [])]).spot (backPath ++ names) =
      (backTree [("index.ts", .folder [])]).spot (["out"] ++ names) := by
  have hwalks : Entry.Walks (backTree [("index.ts", .folder [])]).top maxLinks [] backPath maxLinks
      ["out"] [] :=
    .on rfl (by decide) (by decide) rfl (fun _ h => by cases h)
      (.on rfl (by decide) (by decide) rfl (fun _ h => by cases h)
        (.back rfl (by decide) .here))
  have hwalks' : Entry.Walks (backTree [("index.ts", .folder [])]).top maxLinks [] ["out"] maxLinks
      ["out"] [] := .on rfl (by decide) (by decide) rfl (fun _ h => by cases h) .here
  rw [spot_of_isNameable h, spot_of_isNameable h', (hwalks.append names).walk_eq,
    (hwalks'.append names).walk_eq]

/-- Folders are made where a part of the path is missing, if everything is there then. -/
theorem makeFolders_of_missing (path : List String) {name : String}
    (hspot : t.spot (path ++ [name]) = .problem .missing)
    (htaken : t.isTaken (path ++ [name]) = false) (habove : t.makeFolders path = (.ok (), t'))
    (hfolder : t'.isFolder (path ++ [name]) = true) :
    t.makeFolders (path ++ [name]) = (.ok (), t') := by
  have hmissing : t.makeFolder (path ++ [name]) = .error (t.fault .missing (path ++ [name])) := by
    unfold makeFolder
    rw [hspot]
    dsimp only
    rw [htaken]
    rfl
  rw [FileTree.makeFolders, hmissing]
  dsimp only
  rw [dif_pos ⟨rfl, by simp⟩, List.dropLast_concat, habove]
  dsimp only
  rw [makeFolder_of_isFolder hfolder]

theorem isFolder_backPath : ∀ names ∈ [] :: folders.map fun name => [name],
    (backTree [("index.ts", .folder [])]).isFolder (backPath ++ names) = true := by
  have hnameable : ∀ names ∈ [] :: folders.map fun name => [name],
      (((backPath ++ names).any fun name => name.toList.contains '\x00') = false ∧
        ¬ maxPathBytes < (Path.join ("uploads" :: (backPath ++ names))).utf8ByteSize) ∧
      ((["out"] ++ names).any fun name => name.toList.contains '\x00') = false ∧
        ¬ maxPathBytes < (Path.join ("uploads" :: (["out"] ++ names))).utf8ByteSize := by decide
  have hthere : ∀ names ∈ [] :: folders.map fun name => [name],
      (backTree [("index.ts", .folder [])]).isFolder (["out"] ++ names) = true := by
    have hout : (backTree [("index.ts", .folder [])]).LeadsTo ["out"] ["out"] (.folder _) :=
      leadsTo_partly rfl (fun _ h => by cases h) (by decide) (by decide)
    refine List.forall_mem_cons.mpr ⟨hout.isFolder_eq, ?_⟩
    exact List.forall_mem_map.mpr fun name hname => isFolder_partly _ name hname
  intro names hnames
  have hsame := spot_backTree (hnameable names hnames).1 (hnameable names hnames).2
  have hfolder := hthere names hnames
  unfold isFolder at hfolder ⊢
  rw [hsame]
  exact hfolder

theorem makeFolders_backTree : makeFolders backPath folders (backTree []) =
    (.ok (), backTree [("index.ts", .folder [])]) := by
  have hmade : (backTree []).makeFolders ["out", "index.ts"] =
      (.ok (), backTree [("index.ts", .folder [])]) := by
    have hout : ∃ k, (backTree []).spot ["out"] = .found ["out"] (.folder _) k :=
      leadsTo_partly rfl (fun _ h => by cases h) (by decide) (by decide)
    have hfree : (backTree []).spot ["out", "index.ts"] = .free ["out", "index.ts"] :=
      spot_missing ⟨by decide, by decide⟩
    obtain ⟨k, hspot⟩ := hout
    have htaken : (backTree []).isTaken ["out", "index.ts"] = false := by
      unfold isTaken
      rw [show ["out", "index.ts"].dropLast = ["out"] from rfl, hspot]
      rfl
    have hmake : (backTree []).makeFolder ["out", "index.ts"] =
        .ok (backTree [("index.ts", .folder [])]) := by
      unfold makeFolder
      rw [hfree]
      dsimp only
      rw [htaken]
      rfl
    rw [FileTree.makeFolders, hmake]
  have hback : (backTree []).makeFolders backPath =
      (.ok (), backTree [("index.ts", .folder [])]) := by
    refine makeFolders_of_missing ["out", "index.ts"] ?_ ?_ hmade ?_
    · exact spot_missing ⟨by decide, by decide⟩
    · unfold isTaken
      rw [show (["out", "index.ts"] ++ [".."]).dropLast = ["out", "index.ts"] from rfl,
        spot_missing ⟨by decide, by decide⟩]
      rfl
    · exact isFolder_backPath [] List.mem_cons_self
  have hfirst : (backTree []).makeFolders (backPath ++ ["controllers"]) =
      (.ok (), backTree [("index.ts", .folder [])]) := by
    refine makeFolders_of_missing backPath ?_ ?_ hback ?_
    · exact spot_missing ⟨by decide, by decide⟩
    · unfold isTaken
      rw [show (backPath ++ ["controllers"]).dropLast = ["out", "index.ts", ".."] from rfl,
        spot_missing ⟨by decide, by decide⟩]
      rfl
    · exact isFolder_backPath ["controllers"] (by decide)
  unfold folders
  rw [makeFolders, hfirst]
  refine makeFolders_of_isFolder fun name hname => isFolder_backPath [name] ?_
  exact List.mem_cons_of_mem _ (List.mem_map_of_mem (List.mem_cons_of_mem _ hname))

/-- The folder that is made on the way is found where the entry point belongs. -/
theorem lay_backTree (projectName : String) : lay backPath projectName (backTree []) =
    (.ok ⟨[], (Boilerplate.files projectName).names⟩, backTree [("index.ts", .folder [])]) := by
  have hnameable : ∀ names ∈ placesOfFiles,
      (((backPath ++ names).any fun name => name.toList.contains '\x00') = false ∧
        ¬ maxPathBytes < (Path.join ("uploads" :: (backPath ++ names))).utf8ByteSize) ∧
      ((["out"] ++ names).any fun name => name.toList.contains '\x00') = false ∧
        ¬ maxPathBytes < (Path.join ("uploads" :: (["out"] ++ names))).utf8ByteSize := by
    decide
  have hthere : ∀ name ∈ ["index.ts", "package.json", "tsconfig.json", "README.md",
      ".env.example", "config/database.ts", "types/database.ts"],
      (backTree [("index.ts", .folder [])]).leadsToEntry (["out"] ++ Path.parts name) =
        .ok true := by
    refine List.forall_mem_cons.mpr ⟨?_, List.forall_mem_cons.mpr ⟨?_, leadsToEntry_partly _⟩⟩
    · have hfolder : (backTree [("index.ts", .folder [])]).LeadsTo
          (["out"] ++ Path.parts "index.ts") (["out"] ++ Path.parts "index.ts") (.folder []) :=
        leadsTo_partly (by rfl) (fun _ h => by cases h) (by decide) (by decide)
      exact leadsToEntry_eq_ok_true_iff.mpr ⟨_, _, hfolder⟩
    · have hfile : (backTree [("index.ts", .folder [])]).LeadsTo
          (["out"] ++ Path.parts "package.json") (["out"] ++ Path.parts "package.json")
          (.file ByteArray.empty) :=
        leadsTo_partly (by rfl) (fun _ h => by cases h) (by decide) (by decide)
      exact leadsToEntry_eq_ok_true_iff.mpr ⟨_, _, hfile⟩
  unfold lay
  rw [makeFolders_backTree]
  dsimp only
  rw [writeFiles_of_leadsToEntry]
  · rfl
  · intro name hname
    obtain ⟨place, e, k, hspot⟩ := leadsToEntry_eq_ok_true_iff.mp (hthere name hname)
    obtain ⟨hback, hout⟩ := hnameable _ (parts_mem_placesOfFiles hname)
    refine leadsToEntry_eq_ok_true_iff.mpr ⟨place, e, k, ?_⟩
    rw [spot_backTree hback hout, hspot]

/-- **Without the two conditions more is kept than was there before**: a file that a link has led to
in the meantime, and a folder that the path itself has made. -/
theorem keeps_more_than_before :
    (∃ report, (lay ["out"] "demo" linkedTree).1 = .ok report ∧ "package.json" ∈ report.kept ∧
      linkedTree.top.at? ["out", "package.json"] = none) ∧
    ∃ report, (lay backPath "demo" (backTree [])).1 = .ok report ∧ "index.ts" ∈ report.kept ∧
      (backTree []).top.at? ["out", "index.ts"] = none :=
  ⟨⟨_, lay_linkedTree "demo", List.mem_cons_self, rfl⟩,
    ⟨_, congrArg Prod.fst (lay_backTree "demo"), List.mem_cons_self, rfl⟩⟩

end Skeleton

end PhpMigration
