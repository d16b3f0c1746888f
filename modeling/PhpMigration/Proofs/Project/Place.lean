/-
Places in a tree of files, and the walks to them.

A place is a way through folders, and has at most one entry.  A file is only put where a file is or
nothing, and a folder only where nothing is.  Then everything else stays what it was: links stay,
files stay files and folders stay folders (`Grown`), and a file at any other place keeps its
content (`at?_put_of_ne`).

A path is walked to a place through folders and links.  What a walk does is said once, step by
step, by `Walks`, and `ends_walk` ties it to the function that finds the end; all else is by
induction on the steps.  A walk finds its way in everything that has grown out of the tree
(`Walks.grown`), and goes straight on where there are no links (`Walks.of_hasNoLink`).
-/
import PhpMigration.Project.FileTree

namespace PhpMigration

namespace Entry

/-! ### Places -/

theorem at?_append (e : Entry) (front back : List String) :
    e.at? (front ++ back) = (e.at? front).bind fun e => e.at? back := by
  induction front generalizing e with
  | nil => simp [at?]
  | cons name rest ih =>
      cases e with
      | folder entries =>
          rw [List.cons_append, at?, at?]
          cases Table.find? entries name with
          | none => rfl
          | some inner => exact ih inner
      | file content => rfl
      | link target => rfl

theorem at?_snoc {top : Entry} {place : List String} {entries : List (String × Entry)}
    (h : top.at? place = some (.folder entries)) (name : String) :
    top.at? (place ++ [name]) = Table.find? entries name := by
  rw [at?_append, h]
  show (Table.find? entries name).bind (fun e => e.at? []) = _
  cases Table.find? entries name <;> rfl

/-- What is below a place is in folders. -/
theorem folder_of_at? {top e : Entry} {front : List String} {name : String} {rest : List String}
    (h : top.at? (front ++ name :: rest) = some e) :
    ∃ entries, top.at? front = some (.folder entries) := by
  rw [at?_append] at h
  obtain ⟨here, hhere, hrest⟩ := Option.bind_eq_some_iff.mp h
  cases here with
  | folder entries => exact ⟨entries, hhere⟩
  | file content => cases hrest
  | link target => cases hrest

/-! ### Putting an entry at a place -/

/-- Whatever is on the way to a place is a folder. -/
def Fits (top : Entry) (place : List String) : Prop :=
  ∀ front name rest e, place = front ++ name :: rest → top.at? front = some e →
    ∃ entries, e = .folder entries

theorem fits_of_at? {top e : Entry} {place : List String} (h : top.at? place = some e) :
    top.Fits place := by
  rintro front name rest inner rfl hinner
  obtain ⟨entries, hentries⟩ := folder_of_at? h
  exact ⟨entries, Option.some.inj (hinner.symm.trans hentries)⟩

theorem fits_snoc {top : Entry} {front : List String} {entries : List (String × Entry)}
    (h : top.at? front = some (.folder entries)) (name : String) : top.Fits (front ++ [name]) := by
  intro front' name' rest e heq he
  rcases List.append_eq_append_iff.mp heq with ⟨more, rfl, hmore⟩ | ⟨more, rfl, hmore⟩
  · cases more with
    | nil =>
        rw [List.append_nil, h] at he
        exact ⟨entries, (Option.some.inj he).symm⟩
    | cons n more =>
        have hlength := congrArg List.length hmore
        simp at hlength
  · cases more with
    | nil =>
        rw [List.append_nil] at h
        rw [h] at he
        exact ⟨entries, (Option.some.inj he).symm⟩
    | cons n more =>
        obtain ⟨inner, hinner⟩ := folder_of_at? h
        exact ⟨inner, Option.some.inj (he.symm.trans hinner)⟩

/-- The way on from a folder on the way fits too; one that is missing is made. -/
theorem Fits.tail {name : String} {rest : List String} {entries : List (String × Entry)}
    (h : Fits (.folder entries) (name :: rest)) :
    Fits ((Table.find? entries name).getD (.folder [])) rest := by
  rintro front name' rest' e rfl he
  cases hfind : Table.find? entries name with
  | none =>
      rw [hfind] at he
      cases front with
      | nil => exact ⟨[], (Option.some.inj he).symm⟩
      | cons n front => cases he
  | some inner =>
      rw [hfind] at he
      refine h (name :: front) name' rest' e rfl ?_
      rw [at?, hfind]
      exact he

theorem Fits.folder {top : Entry} {name : String} {rest : List String}
    (h : top.Fits (name :: rest)) : ∃ entries, top = .folder entries :=
  h [] name rest top rfl rfl

theorem at?_put_self {top : Entry} {place : List String} (h : top.Fits place) (new : Entry) :
    (put new place top).at? place = some new := by
  induction place generalizing top with
  | nil => simp [put, at?]
  | cons name rest ih =>
      obtain ⟨entries, rfl⟩ := h.folder
      rw [put, at?, Table.find?_set, if_pos rfl]
      exact ih h.tail

/-- Putting what is there changes nothing. -/
theorem put_of_at? {top e : Entry} {place : List String} (h : top.at? place = some e) :
    put e place top = top := by
  induction place generalizing top with
  | nil => exact (Option.some.inj h).symm
  | cons name rest ih =>
      cases top with
      | file content => cases h
      | link target => cases h
      | folder entries =>
          rw [at?] at h
          obtain ⟨inner, hfind, hrest⟩ := Option.bind_eq_some_iff.mp h
          rw [put, hfind, Option.getD_some, ih hrest, Table.set_of_find? hfind]

/-- What is not below the place stays; a folder on the way has other content then. -/
theorem at?_put {top new e : Entry} {place other : List String} (h : top.Fits place)
    (hother : ¬ place <+: other) (he : top.at? other = some e) :
    ∃ e', (put new place top).at? other = some e' ∧
      (e' = e ∨ ∃ entries entries', e = .folder entries ∧ e' = .folder entries') := by
  induction place generalizing top other with
  | nil => exact absurd List.nil_prefix hother
  | cons name rest ih =>
      obtain ⟨entries, rfl⟩ := h.folder
      cases other with
      | nil =>
          cases he
          exact ⟨_, rfl, .inr ⟨_, _, rfl, rfl⟩⟩
      | cons n other =>
          rw [at?] at he
          obtain ⟨inner, hinner, he⟩ := Option.bind_eq_some_iff.mp he
          rw [put, at?, Table.find?_set]
          by_cases hn : n = name
          · subst hn
            rw [if_pos rfl]
            have htail := h.tail
            rw [hinner] at htail ⊢
            refine ih htail ?_ he
            intro hbelow
            exact hother (List.cons_prefix_cons.mpr ⟨rfl, hbelow⟩)
          · rw [if_neg hn, hinner]
            exact ⟨e, he, .inl rfl⟩

/-- There is no link in an entry. -/
def HasNoLink (e : Entry) : Prop := ∀ path target, e.at? path ≠ some (.link target)

theorem hasNoLink_file (content : ByteArray) : HasNoLink (.file content) := by
  intro path target h
  cases path <;> cases h

theorem hasNoLink_folder_nil : HasNoLink (.folder []) := by
  intro path target h
  cases path <;> cases h

theorem hasNoLink_folder {entries : List (String × Entry)}
    (h : ∀ entry ∈ entries, entry.2.HasNoLink) : HasNoLink (.folder entries) := by
  intro path target hlink
  cases path with
  | nil => cases hlink
  | cons name rest =>
      obtain ⟨e, he, hrest⟩ := Option.bind_eq_some_iff.mp hlink
      exact h _ (Table.mem_of_find? he) rest target hrest

/-- A link that is there after something was put at a place was there before, or is in what was
put there. -/
theorem at?_link_of_put {top new : Entry} {place other target : List String} (h : new.HasNoLink)
    (hlink : (put new place top).at? other = some (.link target)) :
    top.at? other = some (.link target) := by
  induction place generalizing top other with
  | nil => exact absurd hlink (h other target)
  | cons name rest ih =>
      cases top with
      | file content => exact hlink
      | link content => exact hlink
      | folder entries =>
          cases other with
          | nil => cases hlink
          | cons n other =>
              rw [put, at?, Table.find?_set] at hlink
              rw [at?]
              by_cases hn : n = name
              · subst hn
                rw [if_pos rfl] at hlink
                have hinner := ih hlink
                cases hfind : Table.find? entries n with
                | none =>
                    rw [hfind] at hinner
                    exact absurd hinner (hasNoLink_folder_nil other target)
                | some inner =>
                    rw [hfind] at hinner
                    exact hinner
              · rwa [if_neg hn] at hlink

/-! ### Growing -/

/-- Links stay, files stay files, and folders stay folders. -/
def Alike : Entry → Entry → Prop
  | .link target, e => e = .link target
  | .file _, e => ∃ content, e = .file content
  | .folder _, e => ∃ entries, e = .folder entries

theorem Alike.refl (e : Entry) : Alike e e := by
  cases e with
  | link target => exact rfl
  | file content => exact ⟨content, rfl⟩
  | folder entries => exact ⟨entries, rfl⟩

theorem Alike.trans {a b c : Entry} (hab : Alike a b) (hbc : Alike b c) : Alike a c := by
  cases a with
  | link target =>
      obtain rfl : b = _ := hab
      exact hbc
  | file content =>
      obtain ⟨_, rfl⟩ := hab
      exact hbc
  | folder entries =>
      obtain ⟨_, rfl⟩ := hab
      exact hbc

/-- Everything is still there, as what it was. -/
def Grown (top top' : Entry) : Prop :=
  ∀ place e, top.at? place = some e → ∃ e', top'.at? place = some e' ∧ Alike e e'

theorem Grown.refl (top : Entry) : Grown top top := fun _ e he => ⟨e, he, .refl e⟩

theorem Grown.trans {a b c : Entry} (hab : Grown a b) (hbc : Grown b c) : Grown a c := by
  intro place e he
  obtain ⟨e₁, he₁, h₁⟩ := hab place e he
  obtain ⟨e₂, he₂, h₂⟩ := hbc place e₁ he₁
  exact ⟨e₂, he₂, h₁.trans h₂⟩

/-- A file grows out of a file, and anything out of nothing. -/
def Takes (top : Entry) (place : List String) (new : Entry) : Prop :=
  top.Fits place ∧ ∀ e, top.at? place = some e →
    ∃ content content', e = .file content ∧ new = .file content'

theorem grown_put {top new : Entry} {place : List String} (h : top.Takes place new) :
    Grown top (put new place top) := by
  intro other e he
  by_cases hother : place <+: other
  · obtain ⟨rest, rfl⟩ := hother
    rw [at?_append] at he
    obtain ⟨here, hhere, hrest⟩ := Option.bind_eq_some_iff.mp he
    obtain ⟨content, content', rfl, rfl⟩ := h.2 here hhere
    cases rest with
    | nil =>
        cases hrest
        rw [List.append_nil]
        exact ⟨_, at?_put_self h.1 _, content', rfl⟩
    | cons name rest => cases hrest
  · obtain ⟨e', he', rfl | ⟨entries, entries', rfl, rfl⟩⟩ := at?_put h.1 hother he
    · exact ⟨e', he', .refl e'⟩
    · exact ⟨_, he', entries', rfl⟩

/-- A file stays as it is when something is put at another place. -/
theorem at?_put_of_ne {top new : Entry} {place other : List String} {content : ByteArray}
    (h : top.Takes place new) (hfile : top.at? other = some (.file content)) (hne : other ≠ place) :
    (put new place top).at? other = some (.file content) := by
  by_cases hother : place <+: other
  · obtain ⟨rest, rfl⟩ := hother
    cases rest with
    | nil => exact absurd (List.append_nil place) hne
    | cons name rest =>
        obtain ⟨entries, hentries⟩ := folder_of_at? hfile
        obtain ⟨_, _, hfolder, -⟩ := h.2 _ hentries
        cases hfolder
  · obtain ⟨e', he', rfl | ⟨_, _, hfolder, -⟩⟩ := at?_put h.1 hother hfile
    · exact he'
    · cases hfolder

/-! ### Walks

`walk_nil` and `walk_name` say what one step of a walk does. -/

section Walk

variable {top : Entry} {links : Nat} {done rest : List String} {name : String}

theorem walk_nil {here : Entry} (h : top.at? done = some here) :
    top.walk links done [] = .found done here links := by
  unfold walk
  rw [h]

theorem walk_dots {entries : List (String × Entry)} (h : top.at? done = some (.folder entries)) :
    top.walk links done (".." :: rest) =
      if done.isEmpty then .problem .missing else top.walk links done.dropLast rest := by
  rw [walk.eq_def]
  dsimp only
  rw [h]
  rfl

theorem walk_name {entries : List (String × Entry)} (h : top.at? done = some (.folder entries))
    (hname : name ≠ "..") (hsize : ¬ maxNameBytes < name.utf8ByteSize) :
    top.walk links done (name :: rest) =
      match Table.find? entries name with
      | none => if rest.isEmpty then .free (done ++ [name]) else .problem .missing
      | some (.link target) =>
        match links with
        | 0 => .problem .looping
        | links + 1 => top.walk links [] (target ++ rest)
      | some _ => top.walk links (done ++ [name]) rest := by
  rw [walk.eq_def]
  dsimp only
  rw [h]
  dsimp only
  rw [if_neg hname]
  refine (if_neg hsize).trans ?_
  cases Table.find? entries name with
  | none => rfl
  | some e => cases e <;> rfl

/-- A name that is too long cannot be asked for. -/
theorem walk_long {entries : List (String × Entry)} (h : top.at? done = some (.folder entries))
    (hname : name ≠ "..") (hsize : maxNameBytes < name.utf8ByteSize) :
    top.walk links done (name :: rest) = .problem .tooLong := by
  rw [walk.eq_def]
  dsimp only
  rw [h]
  dsimp only
  rw [if_neg hname, if_pos hsize]

end Walk

/-- A walk goes on, from what is left to do at one place to what is left at another. -/
inductive Walks (top : Entry) :
    Nat → List String → List String → Nat → List String → List String → Prop
  | here {links : Nat} {done todo : List String} : Walks top links done todo links done todo
  | back {links k : Nat} {done rest place left : List String} {entries : List (String × Entry)}
      (hfolder : top.at? done = some (.folder entries)) (hne : done ≠ [])
      (h : Walks top links done.dropLast rest k place left) :
      Walks top links done (".." :: rest) k place left
  | follow {links k : Nat} {done rest place left target : List String} {name : String}
      {entries : List (String × Entry)} (hfolder : top.at? done = some (.folder entries))
      (hname : name ≠ "..") (hsize : ¬ maxNameBytes < name.utf8ByteSize)
      (hfind : Table.find? entries name = some (.link target))
      (h : Walks top links [] (target ++ rest) k place left) :
      Walks top (links + 1) done (name :: rest) k place left
  | on {links k : Nat} {done rest place left : List String} {name : String} {e : Entry}
      {entries : List (String × Entry)} (hfolder : top.at? done = some (.folder entries))
      (hname : name ≠ "..") (hsize : ¬ maxNameBytes < name.utf8ByteSize)
      (hfind : Table.find? entries name = some e) (hlink : ∀ target, e ≠ .link target)
      (h : Walks top links (done ++ [name]) rest k place left) :
      Walks top links done (name :: rest) k place left

section Walks

variable {top : Entry} {links k : Nat} {done todo place left : List String}

/-- A walk ends where it ends from any place on it. -/
theorem Walks.walk_eq (h : Walks top links done todo k place left) :
    top.walk links done todo = top.walk k place left := by
  induction h with
  | here => rfl
  | back hfolder hne h ih =>
      rw [walk_dots hfolder, if_neg (mt List.isEmpty_iff.mp hne)]
      exact ih
  | follow hfolder hname hsize hfind h ih =>
      rw [walk_name hfolder hname hsize, hfind]
      exact ih
  | on hfolder hname hsize hfind hlink h ih =>
      rename_i e _
      rw [walk_name hfolder hname hsize, hfind]
      cases e with
      | link target => exact absurd rfl (hlink target)
      | file content => exact ih
      | folder inner => exact ih

/-- What is left at the end of a walk. -/
def Ends (top : Entry) (links : Nat) (done todo : List String) : Spot → Prop
  | .found place e k => Walks top links done todo k place [] ∧ top.at? place = some e
  | .free place => ∃ front name entries k, place = front ++ [name] ∧
      Walks top links done todo k front [name] ∧ top.at? front = some (.folder entries) ∧
      name ≠ ".." ∧ ¬ maxNameBytes < name.utf8ByteSize ∧ Table.find? entries name = none
  | .problem _ => True

theorem Ends.of_walks {links' : Nat} {done' todo' : List String} {spot : Spot}
    (hback : ∀ {k place left}, Walks top links' done' todo' k place left →
      Walks top links done todo k place left)
    (h : Ends top links' done' todo' spot) : Ends top links done todo spot := by
  cases spot with
  | found place e k => exact ⟨hback h.1, h.2⟩
  | free place =>
      obtain ⟨front, name, entries, k, hplace, hwalks, hrest⟩ := h
      exact ⟨front, name, entries, k, hplace, hback hwalks, hrest⟩
  | problem problem => trivial

theorem ends_walk (top : Entry) (links : Nat) (done todo : List String) :
    Ends top links done todo (top.walk links done todo) := by
  induction links, done, todo using walk.induct top with
  | case1 links done todo hnone =>
      rw [walk.eq_def]
      dsimp only
      rw [hnone]
      trivial
  | case2 links done here hhere =>
      rw [walk_nil hhere]
      exact ⟨.here, hhere⟩
  | case3 links done entries rest hfolder hempty =>
      rw [walk_dots hfolder, if_pos hempty]
      trivial
  | case4 links done entries rest hfolder hempty ih =>
      rw [walk_dots hfolder, if_neg hempty]
      exact ih.of_walks (.back hfolder (mt List.isEmpty_iff.mpr hempty))
  | case5 links done entries name rest hfolder hname hsize =>
      rw [walk_long hfolder hname hsize]
      trivial
  | case6 links done entries name rest hfolder hname hsize hfind hempty =>
      rw [walk_name hfolder hname hsize, hfind]
      dsimp only
      obtain rfl := List.isEmpty_iff.mp hempty
      exact ⟨done, name, entries, links, rfl, .here, hfolder, hname, hsize, hfind⟩
  | case7 links done entries name rest hfolder hname hsize hfind hempty =>
      rw [walk_name hfolder hname hsize, hfind]
      dsimp only
      rw [if_neg hempty]
      trivial
  | case8 done entries name rest hfolder hname hsize target hfind =>
      rw [walk_name hfolder hname hsize, hfind]
      trivial
  | case9 done entries name rest hfolder hname hsize target hfind links ih =>
      rw [walk_name hfolder hname hsize, hfind]
      exact ih.of_walks (.follow hfolder hname hsize hfind)
  | case10 links done entries name rest hfolder hname hsize e hlink hfind ih =>
      have hon : Ends top links done (name :: rest) (top.walk links (done ++ [name]) rest) :=
        ih.of_walks (.on hfolder hname hsize hfind hlink)
      rw [walk_name hfolder hname hsize, hfind]
      cases e with
      | link target => exact absurd rfl (hlink target)
      | file content => exact hon
      | folder inner => exact hon
  | case11 links done e name rest hfile he =>
      rw [walk.eq_def]
      dsimp only
      rw [he]
      cases e with
      | folder entries => exact absurd rfl (hfile entries)
      | file content => trivial
      | link target => trivial

/-- A walk through a tree is a walk through what has grown out of it. -/
theorem Walks.grown {top' : Entry} (hgrown : Grown top top')
    (h : Walks top links done todo k place left) : Walks top' links done todo k place left := by
  induction h with
  | here => exact .here
  | back hfolder hne h ih =>
      obtain ⟨_, hfolder', entries', rfl⟩ := hgrown _ _ hfolder
      exact .back hfolder' hne ih
  | follow hfolder hname hsize hfind h ih =>
      obtain ⟨_, hfolder', entries', rfl⟩ := hgrown _ _ hfolder
      obtain ⟨e', he', halike⟩ := hgrown _ _ ((at?_snoc hfolder _).trans hfind)
      obtain rfl : e' = _ := halike
      exact .follow hfolder' hname hsize ((at?_snoc hfolder' _).symm.trans he') ih
  | on hfolder hname hsize hfind hlink h ih =>
      rename_i e _
      obtain ⟨_, hfolder', entries', rfl⟩ := hgrown _ _ hfolder
      obtain ⟨e', he', halike⟩ := hgrown _ _ ((at?_snoc hfolder _).trans hfind)
      refine .on hfolder' hname hsize ((at?_snoc hfolder' _).symm.trans he') ?_ ih
      rintro target rfl
      cases e with
      | link target => exact hlink target rfl
      | file content =>
          obtain ⟨content', hcontent⟩ := halike
          cases hcontent
      | folder entries =>
          obtain ⟨entries', hentries⟩ := halike
          cases hentries

theorem Walks.append (h : Walks top links done todo k place left) (more : List String) :
    Walks top links done (todo ++ more) k place (left ++ more) := by
  induction h with
  | here => exact .here
  | back hfolder hne h ih => exact .back hfolder hne ih
  | follow hfolder hname hsize hfind h ih =>
      rename_i rest _ _ target _ _
      refine .follow hfolder hname hsize hfind ?_
      rw [show target ++ rest.append more = target ++ rest ++ more from
        (List.append_assoc _ _ _).symm]
      exact ih
  | on hfolder hname hsize hfind hlink h ih => exact .on hfolder hname hsize hfind hlink ih

/-- Below an entry without links a walk goes straight on. -/
theorem Walks.of_hasNoLink (h : Walks top links done todo k place left) (hdots : ".." ∉ todo)
    {e : Entry} (he : top.at? done = some e) (hlinks : e.HasNoLink) :
    place ++ left = done ++ todo := by
  induction h generalizing e with
  | here => rfl
  | back hfolder hne h ih => exact absurd List.mem_cons_self hdots
  | follow hfolder hname hsize hfind h ih =>
      rename_i target name entries
      rw [hfolder] at he
      cases he
      refine absurd ?_ (hlinks [name] target)
      rw [at?, hfind]
      rfl
  | on hfolder hname hsize hfind hlink h ih =>
      rename_i rest _ _ name inner entries
      rw [hfolder] at he
      cases he
      rw [ih (fun hrest => hdots (List.mem_cons_of_mem _ hrest))
        ((at?_snoc hfolder name).trans hfind) ?_, List.append_assoc]
      · rfl
      · intro path target hpath
        refine hlinks (name :: path) target ?_
        rw [at?, hfind]
        exact hpath

/-- A way through folders is walked. -/
theorem walks_of_at? {e : Entry} (he : top.at? (done ++ todo) = some e)
    (hlink : ∀ target, e ≠ .link target) (hdots : ".." ∉ todo)
    (hsize : ∀ name ∈ todo, ¬ maxNameBytes < name.utf8ByteSize) :
    Walks top links done todo links (done ++ todo) [] := by
  induction todo generalizing done with
  | nil =>
      rw [List.append_nil]
      exact .here
  | cons name rest ih =>
      obtain ⟨entries, hfolder⟩ := folder_of_at? he
      rw [List.append_cons] at he
      have hinner : ∃ inner, Table.find? entries name = some inner ∧ ∀ target, inner ≠ .link target := by
        cases rest with
        | nil =>
            rw [List.append_nil, at?_snoc hfolder] at he
            exact ⟨e, he, hlink⟩
        | cons n rest =>
            obtain ⟨inner, hinner⟩ := folder_of_at? he
            rw [at?_snoc hfolder] at hinner
            exact ⟨_, hinner, fun target h => by cases h⟩
      obtain ⟨inner, hfind, hinner⟩ := hinner
      rw [List.append_cons]
      refine .on hfolder ?_ (hsize name List.mem_cons_self) hfind hinner ?_
      · rintro rfl
        exact hdots List.mem_cons_self
      · exact ih he (fun h => hdots (List.mem_cons_of_mem _ h))
          fun n hn => hsize n (List.mem_cons_of_mem _ hn)

end Walks

end Entry

end PhpMigration
