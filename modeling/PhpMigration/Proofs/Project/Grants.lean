/-
What the claims of a run come to: paths that are unique, lasting and in their folders.

A run makes its claims one behind the other, so all that a claim depends on is the history of the
requests before it (`after`).  The invariant over a history (`Holds`) says what a file
holds: nothing before it asks, and then for good a path in the folder that its first request was
for.  A request by a file that holds a path leaves the table alone, and one by any other file only
adds to it, so a path that was given once is given to this file ever after and to nobody else.

A file may ask with another text when it is tried again, and so for another folder.  It then gets
the path that it holds, which lies in the folder of its first request.
-/
import Mathlib.Data.List.Induction
import PhpMigration.Proofs.Project.Claims

namespace PhpMigration.Claims

/-- A free path that was looked for among the numbered ones has the least number that makes it
free, and all that is looked at before is held. -/
structure IsLeastFree (c : Claims) (path given : String) : Prop where
  fresh : given ∉ Table.names c
  /-- The path itself is given when it is free. -/
  self_of_fresh : path ∉ Table.names c → given = path
  /-- Else the search ends at a number among as many as there are claims, and one more. -/
  least_of_held : path ∈ Table.names c → ∃ front n, path = front ++ targetSuffix ∧
    2 ≤ n ∧ n ≤ c.length + 2 ∧ given = front ++ toString n ++ targetSuffix ∧
      ∀ m, 2 ≤ m → m < n → front ++ toString m ++ targetSuffix ∈ Table.names c

theorem free_eq_or (c : Claims) (path : String) :
    c.free path = path ∨ ∃ n, c.free path = numbered path n := by
  unfold free
  split
  · rcases hfound : firstFree? c path (c.length + 1) 2 with _ | given
    · exact .inl rfl
    · obtain ⟨-, n, -, -, hgiven, -⟩ := firstFree?_eq_some hfound
      exact .inr ⟨n, hgiven⟩
  · exact .inl rfl

theorem isLeastFree_free (c : Claims) {path : String} (h : IsOutputPath path) :
    c.IsLeastFree path (c.free path) := by
  refine ⟨(free_spec c h).1, fun hfresh => ?_, fun hheld => ?_⟩
  · rw [free, if_neg (mt (Table.has_iff_mem_names c path).mp hfresh)]
  · obtain ⟨given, hgiven⟩ := exists_firstFree? c h 2
    rw [free, if_pos ((Table.has_iff_mem_names c path).mpr hheld), hgiven]
    obtain ⟨-, n, hle, hlt, rfl, hbefore⟩ := firstFree?_eq_some hgiven
    obtain ⟨role, stem, rfl, -⟩ := h
    simp only [numbered_append] at hbefore ⊢
    exact ⟨_, n, rfl, hle, by omega, rfl, hbefore⟩

/-- A numbered path, like the path itself, lies in the folder of its role. -/
theorem exists_stem_free (c : Claims) (role : Role) {stem : String} (h : Path.IsName stem) :
    ∃ stem', Path.IsName stem' ∧ c.free (role.folder ++ "/" ++ stem ++ targetSuffix) =
      role.folder ++ "/" ++ stem' ++ targetSuffix := by
  obtain ⟨path, hpath⟩ : ∃ path, path = role.folder ++ "/" ++ stem ++ targetSuffix := ⟨_, rfl⟩
  rw [← hpath]
  rcases free_eq_or c path with hfree | ⟨n, hfree⟩
  · exact ⟨stem, h, hfree.trans hpath⟩
  · refine ⟨stem ++ toString n, Path.isName_append h (isName_toString n), ?_⟩
    rw [hfree, hpath, numbered_append, ← String.append_assoc]

/-! ### What the table says of a file -/

section Holders

variable {c : Claims} {file path : String}

theorem mem_of_heldBy? (h : c.heldBy? file = some path) : (path, file) ∈ c := by
  obtain ⟨entry, hfind, rfl⟩ := Option.map_eq_some_iff.mp h
  have hfile : entry.2 = file := by simpa using List.find?_some hfind
  rw [← hfile]
  exact List.mem_of_find?_eq_some hfind

theorem not_mem_of_heldBy? (h : c.heldBy? file = none) : (path, file) ∉ c := by
  intro hmem
  have hnone := List.find?_eq_none.mp (Option.map_eq_none_iff.mp h) (path, file) hmem
  exact hnone (decide_eq_true rfl)

theorem IsFair.path_unique {path' : String} (h : c.IsFair) (hheld : (path, file) ∈ c)
    (hheld' : (path', file) ∈ c) : path = path' :=
  congrArg Prod.fst (List.inj_on_of_nodup_map h.files hheld hheld' rfl)

theorem heldBy?_eq_some_iff (h : c.IsFair) : c.heldBy? file = some path ↔ (path, file) ∈ c := by
  refine ⟨mem_of_heldBy?, fun hheld => ?_⟩
  cases hfound : c.heldBy? file with
  | none => exact absurd hheld (not_mem_of_heldBy? hfound)
  | some path' => rw [h.path_unique hheld (mem_of_heldBy? hfound)]

/-- What a claim adds to the table is a free path, for a file that held nothing before. -/
theorem mem_claim_iff {entry : String × String} (c : Claims) (hpath : IsOutputPath path) :
    entry ∈ (c.claim file path).2 ↔
      entry ∈ c ∨ (c.heldBy? file = none ∧ entry = (c.free path, file)) := by
  unfold claim
  cases hheld : c.heldBy? file with
  | some held => simp
  | none =>
      dsimp only
      rw [Table.set_of_not_mem (free_spec c hpath).1, List.mem_append, List.mem_singleton]
      exact or_congr_right (iff_and_self.mpr fun _ => rfl)

end Holders

/-! ### Histories -/

/-- A file asks for the path that a mapping gives it. -/
structure Request where
  file : String
  /-- The name and the text by which the file is mapped. -/
  name : String
  content : String
  deriving DecidableEq

/-- What the mapping says. -/
def Request.mapping (q : Request) : Mapping := Mapping.ofFile q.name q.content

/-- The path that is asked for. -/
def Request.path (q : Request) : String := q.mapping.target

/-- The claims behind a history of requests. -/
def after (history : List Request) : Claims :=
  history.foldl (fun c q => (c.claim q.file q.path).2) []

/-- The path that a request is met with behind a history. -/
def given (history : List Request) (q : Request) : String :=
  ((after history).claim q.file q.path).1

/-- The first request that a file makes. -/
def firstOf? (history : List Request) (file : String) : Option Request :=
  history.find? (·.file = file)

variable {history before : List Request} {q : Request}

theorem path_eq (q : Request) : q.path =
    q.mapping.role.folder ++ "/" ++ q.mapping.role.rename (Path.stem q.name) ++ targetSuffix := by
  unfold Request.path Request.mapping Mapping.ofFile
  dsimp only
  rw [Role.outputPath]

theorem isOutputPath_path (q : Request) : IsOutputPath q.path := Role.isOutputPath_outputPath _ _

theorem after_append (history : List Request) (q : Request) :
    after (history ++ [q]) = ((after history).claim q.file q.path).2 := by
  unfold after
  rw [List.foldl_append]
  rfl

theorem firstOf?_append (history : List Request) (q : Request) (file : String) :
    firstOf? (history ++ [q]) file =
      (firstOf? history file).or (if q.file = file then some q else none) := by
  unfold firstOf?
  rw [List.find?_append, List.find?_singleton]
  by_cases h : q.file = file <;> simp [h]

theorem isFair_after (history : List Request) : (after history).IsFair := by
  induction history using List.reverseRecOn with
  | nil => exact isFair_nil
  | append_singleton history q ih =>
      rw [after_append]
      exact (ih.claim q.file (isOutputPath_path q)).1

/-- What is held stays held. -/
theorem mem_after_append {entry : String × String} (h : entry ∈ after before)
    (between : List Request) : entry ∈ after (before ++ between) := by
  induction between using List.reverseRecOn with
  | nil => rwa [List.append_nil]
  | append_singleton between q ih =>
      rw [← List.append_assoc, after_append, mem_claim_iff _ (isOutputPath_path q)]
      exact .inl ih

theorem given_mem_after (before : List Request) (q : Request) :
    (given before q, q.file) ∈ after (before ++ [q]) := by
  rw [after_append]
  exact ((isFair_after before).claim q.file (isOutputPath_path q)).2.1

/-- A file that holds a path is met with it. -/
theorem given_of_mem {path : String} (h : (path, q.file) ∈ after before) :
    given before q = path := by
  unfold given claim
  rw [(heldBy?_eq_some_iff (isFair_after before)).mpr h]

/-- A file that did not ask holds nothing; one that did holds a path in the folder that its first
request was for. -/
structure Holds (history : List Request) (file : String) : Prop where
  nothing : firstOf? history file = none → (after history).heldBy? file = none
  inFolder : ∀ initial, firstOf? history file = some initial → ∃ stem, Path.IsName stem ∧
    (initial.mapping.role.folder ++ "/" ++ stem ++ targetSuffix, file) ∈ after history

theorem Holds.of_other {file : String} (h : Holds history file) (hfile : q.file ≠ file) :
    Holds (history ++ [q]) file := by
  have hsame : firstOf? (history ++ [q]) file = firstOf? history file := by
    rw [firstOf?_append, if_neg hfile, Option.or_none]
  constructor
  · intro hnone
    rw [hsame] at hnone
    refine Option.eq_none_iff_forall_ne_some.mpr fun path hheld => ?_
    have hmem := mem_of_heldBy? hheld
    rw [after_append, mem_claim_iff _ (isOutputPath_path q)] at hmem
    rcases hmem with hmem | ⟨-, hentry⟩
    · exact not_mem_of_heldBy? (h.nothing hnone) hmem
    · exact hfile (congrArg Prod.snd hentry).symm
  · intro initial hinitial
    rw [hsame] at hinitial
    obtain ⟨stem, hstem, hheld⟩ := h.inFolder initial hinitial
    exact ⟨stem, hstem, mem_after_append hheld [q]⟩

theorem Holds.of_self (h : Holds history q.file) : Holds (history ++ [q]) q.file := by
  rcases hfirst : firstOf? history q.file with _ | initial
  · have hnow : firstOf? (history ++ [q]) q.file = some q := by
      rw [firstOf?_append, hfirst, if_pos rfl, Option.none_or]
    refine ⟨fun hnone => ?_, fun initial hinitial => ?_⟩
    · rw [hnow] at hnone
      cases hnone
    rw [hnow] at hinitial
    cases hinitial
    obtain ⟨stem, hstem, hfree⟩ := exists_stem_free (after history) q.mapping.role
      (q.mapping.role.isName_rename (Path.isName_stem q.name))
    refine ⟨stem, hstem, ?_⟩
    rw [after_append, mem_claim_iff _ (isOutputPath_path q), ← hfree, path_eq]
    exact .inr ⟨h.nothing hfirst, rfl⟩
  · have hnow : firstOf? (history ++ [q]) q.file = some initial := by
      rw [firstOf?_append, hfirst, Option.some_or]
    refine ⟨fun hnone => ?_, fun initial' hinitial => ?_⟩
    · rw [hnow] at hnone
      cases hnone
    rw [hnow] at hinitial
    cases hinitial
    obtain ⟨stem, hstem, hheld⟩ := h.inFolder initial hfirst
    exact ⟨stem, hstem, mem_after_append hheld [q]⟩

theorem holds_after (history : List Request) (file : String) : Holds history file := by
  induction history using List.reverseRecOn with
  | nil => exact ⟨fun _ => rfl, fun _ hinitial => nomatch hinitial⟩
  | append_singleton history q ih =>
      by_cases hfile : q.file = file
      · subst hfile
        exact ih.of_self
      · exact ih.of_other hfile

theorem Role.folder_injective {role role' : Role} {stem stem' : String}
    (hstem : Path.IsName stem) (hstem' : Path.IsName stem')
    (h : role.folder ++ "/" ++ stem ++ targetSuffix =
      role'.folder ++ "/" ++ stem' ++ targetSuffix) : role = role' := by
  have hparts := congrArg Path.parts h
  rw [IsOutputPath.parts_eq role hstem, IsOutputPath.parts_eq role' hstem'] at hparts
  have hfolder := (List.cons_eq_cons.mp hparts).1
  revert hfolder
  cases role <;> cases role' <;> decide

/-! ### What a request is met with -/

/-- A request is met with a path that is the file's own for the whole run. -/
structure IsGrant (before : List Request) (q : Request) : Prop where
  /-- The first request of a file is met with the path, or with the least number that is free. -/
  first : firstOf? before q.file = none → (after before).IsLeastFree q.path (given before q)
  /-- However the run goes on, just the requests of the same file are met with this path. -/
  lasting : ∀ (between : List Request) (q' : Request),
    given (before ++ q :: between) q' = given before q ↔ q'.file = q.file
  /-- No path is held by two files, and no file holds two paths. -/
  holders : ∀ entry ∈ after (before ++ [q]), ∀ entry' ∈ after (before ++ [q]),
    entry.1 = entry'.1 ↔ entry.2 = entry'.2
  /-- The path lies in the folder of the role that the first request of the file was for, and in
  that of no other role. -/
  confined : ∃ initial, firstOf? (before ++ [q]) q.file = some initial ∧ ∀ role : Role,
    (∃ stem, Path.IsName stem ∧ given before q = role.folder ++ "/" ++ stem ++ targetSuffix) ↔
      role = initial.mapping.role

/-- **Every request of a run is met with a path of the file's own, in its folder.** -/
theorem isGrant (before : List Request) (q : Request) : IsGrant before q := by
  have hheld := given_mem_after before q
  have hfair := isFair_after (before ++ [q])
  refine ⟨fun hnone => ?_, fun between q' => ?_, fun entry hentry entry' hentry' => ?_, ?_⟩
  · have hgiven : given before q = (after before).free q.path := by
      unfold given claim
      rw [(holds_after before q.file).nothing hnone]
    rw [hgiven]
    exact isLeastFree_free _ (isOutputPath_path q)
  · have hkept : (given before q, q.file) ∈ after (before ++ q :: between) := by
      rw [List.append_cons]
      exact mem_after_append hheld between
    constructor
    · intro heq
      have hheld' := given_mem_after (before ++ q :: between) q'
      rw [heq] at hheld'
      exact (isFair_after _).file_unique hheld' (mem_after_append hkept [q'])
    · intro hfile
      exact given_of_mem (hfile ▸ hkept)
  · constructor
    · intro hpath
      exact hfair.file_unique hentry (hpath ▸ hentry')
    · intro hfile
      exact hfair.path_unique hentry (hfile ▸ hentry')
  · rcases hinitial : firstOf? (before ++ [q]) q.file with _ | initial
    · exact absurd hheld (not_mem_of_heldBy? ((holds_after _ _).nothing hinitial))
    · obtain ⟨stem, hstem, hmem⟩ := (holds_after _ _).inFolder initial hinitial
      have hgiven := hfair.path_unique hheld hmem
      refine ⟨initial, rfl, fun role => ⟨?_, ?_⟩⟩
      · rintro ⟨stem', hstem', hgiven'⟩
        exact Role.folder_injective hstem' hstem (hgiven'.symm.trans hgiven)
      · intro hrole
        rw [hrole]
        exact ⟨stem, hstem, hgiven⟩

end PhpMigration.Claims
