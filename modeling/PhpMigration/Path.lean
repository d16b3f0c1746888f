/-
Paths and the names in them.

A path is read as the names between its slashes; an empty name and a single dot mean nothing.  Two
dots lead back, which takes the name before them away where only the names are looked at.  The last
name is cut at its last dot into a stem and a suffix, unless the dot begins or ends the name.
-/
import PhpMigration.Text.Search

namespace PhpMigration.Path

/-- The names between the slashes. -/
def parts (path : String) : List String :=
  ((Text.splitAt '/' path.toList).map String.ofList).filter fun name => name ≠ "" ∧ name ≠ "."

/-- The path of some names. -/
def join (names : List String) : String := "/".intercalate names

/-- The names that follow `done`, where two dots take the name before them away; at the root there
is none to take. -/
def withoutDots : (done todo : List String) → List String
  | done, [] => done
  | done, name :: rest =>
    if name = ".." then withoutDots done.dropLast rest else withoutDots (done ++ [name]) rest

/-- A path that is not seen from a folder. -/
def isAbsolute (path : String) : Bool := path.toList.head? = some '/'

/-- The last name of a path. -/
def name (path : String) : String := (parts path).getLastD ""

/-- A name cut at its last dot; the dot goes to the second part, which may be empty. -/
def cut (name : String) : String × String :=
  let back := name.toList.reverse
  let suffix := back.takeWhile (· ≠ '.')
  match back.dropWhile (· ≠ '.') with
  | '.' :: stem =>
    if stem.isEmpty || suffix.isEmpty then (name, "")
    else (String.ofList stem.reverse, String.ofList ('.' :: suffix.reverse))
  | _ => (name, "")

/-- The last name without its suffix. -/
def stem (path : String) : String := (cut (name path)).1

/-- The suffix of the last name. -/
def suffix (path : String) : String := (cut (name path)).2

/-- A name that a folder can hold. -/
def IsName (name : String) : Prop := '/' ∉ name.toList

instance (name : String) : Decidable (IsName name) :=
  inferInstanceAs (Decidable ('/' ∉ name.toList))

/-- The names are found again in their path, so different names have different paths. -/
theorem join_injective {names names' : List String} (hne : names ≠ []) (hne' : names' ≠ [])
    (h : ∀ name ∈ names, IsName name) (h' : ∀ name ∈ names', IsName name)
    (heq : join names = join names') : names = names' := by
  have hread : ∀ {names : List String}, names ≠ [] → (∀ name ∈ names, IsName name) →
      Text.splitAt '/' (join names).toList = names.map String.toList := by
    intro names hne h
    rw [join, String.toList_intercalate]
    refine Text.splitAt_intercalate (by simpa using hne) ?_
    intro piece hpiece
    obtain ⟨name, hname, rfl⟩ := List.mem_map.mp hpiece
    exact h name hname
  have hsame := (hread hne h).symm.trans ((congrArg _ (congrArg _ heq)).trans (hread hne' h'))
  exact (List.map_inj_right fun _ _ => String.toList_inj.mp).mp hsame

theorem isName_ofList {cs : List Char} (h : '/' ∉ cs) : IsName (String.ofList cs) := by
  unfold IsName
  rwa [String.toList_ofList]

/-- The parts of a path are names. -/
theorem isName_of_mem_parts {path name : String} (h : name ∈ parts path) : IsName name := by
  obtain ⟨piece, hpiece, rfl⟩ := List.mem_map.mp (List.mem_filter.mp h).1
  exact isName_ofList (Text.splitAt_piece hpiece).1

/-- The parts of a path are made of its characters. -/
theorem mem_toList_of_mem_parts {path name : String} {c : Char} (h : name ∈ parts path)
    (hc : c ∈ name.toList) : c ∈ path.toList := by
  obtain ⟨piece, hpiece, rfl⟩ := List.mem_map.mp (List.mem_filter.mp h).1
  rw [String.toList_ofList] at hc
  exact (Text.splitAt_piece hpiece).2 hc

/-- The names of a path of one. -/
theorem parts_of_isName {name : String} (h : IsName name) (hne : name ≠ "" ∧ name ≠ ".") :
    parts name = [name] := by
  rw [parts, Text.splitAt_of_not_mem h]
  simp [hne]

/-- The names of a path of two. -/
theorem parts_pair {folder name : String} (hfolder : IsName folder) (hname : IsName name)
    (hf : folder ≠ "" ∧ folder ≠ ".") (hn : name ≠ "" ∧ name ≠ ".") :
    parts (folder ++ "/" ++ name) = [folder, name] := by
  have hchars : (folder ++ "/" ++ name).toList = folder.toList ++ '/' :: name.toList := by simp
  rw [parts, hchars, Text.splitAt_append hfolder, Text.splitAt_of_not_mem hname]
  simp [hf, hn]

section

variable {done todo : List String}

theorem withoutDots_append (done todo more : List String) :
    withoutDots done (todo ++ more) = withoutDots (withoutDots done todo) more := by
  induction todo generalizing done with
  | nil => rfl
  | cons name rest ih =>
      rw [List.cons_append, withoutDots, withoutDots]
      split
      · exact ih _
      · exact ih _

theorem withoutDots_of_not_mem (h : ".." ∉ todo) : withoutDots done todo = done ++ todo := by
  induction todo generalizing done with
  | nil => exact (List.append_nil done).symm
  | cons name rest ih =>
      obtain ⟨hname, hrest⟩ := not_or.mp (mt List.mem_cons.mpr h)
      rw [withoutDots, if_neg (Ne.symm hname), ih hrest, List.append_assoc]
      rfl

/-- What is left of the names before, and the names that have come behind it. -/
theorem exists_withoutDots (done todo : List String) :
    ∃ front back, withoutDots done todo = front ++ back ∧ front <+: done ∧
      ∀ name ∈ back, name ∈ todo ∧ name ≠ ".." := by
  induction todo generalizing done with
  | nil => exact ⟨done, [], (List.append_nil done).symm, List.prefix_rfl, by simp⟩
  | cons name rest ih =>
      rw [withoutDots]
      by_cases hname : name = ".."
      · rw [if_pos hname]
        obtain ⟨front, back, heq, hfront, hback⟩ := ih done.dropLast
        exact ⟨front, back, heq, hfront.trans (List.dropLast_prefix done),
          fun n hn => ⟨List.mem_cons_of_mem _ (hback n hn).1, (hback n hn).2⟩⟩
      · rw [if_neg hname]
        obtain ⟨front, back, heq, hfront, hback⟩ := ih (done ++ [name])
        rcases List.prefix_concat_iff.mp hfront with rfl | hfront
        · refine ⟨done, name :: back, ?_, List.prefix_rfl, ?_⟩
          · rw [heq, List.append_assoc]
            rfl
          · intro n hn
            rcases List.mem_cons.mp hn with rfl | hn
            · exact ⟨List.mem_cons_self, hname⟩
            · exact ⟨List.mem_cons_of_mem _ (hback n hn).1, (hback n hn).2⟩
        · exact ⟨front, back, heq, hfront,
            fun n hn => ⟨List.mem_cons_of_mem _ (hback n hn).1, (hback n hn).2⟩⟩

theorem dots_not_mem_withoutDots (h : ".." ∉ done) : ".." ∉ withoutDots done todo := by
  obtain ⟨front, back, heq, hfront, hback⟩ := exists_withoutDots done todo
  rw [heq, List.mem_append, not_or]
  exact ⟨fun hmem => h (hfront.subset hmem), fun hmem => (hback _ hmem).2 rfl⟩

end

end PhpMigration.Path
