/-
Fair claims to output paths.

A path is held by one file and a file holds one path (`IsFair`).  A claim keeps it so, because a
file that holds nothing is given a path that nobody holds.  There always is one (`has_free`): the
numbered paths are all different, so one among as many as there are claims, and one more, is free.

Every path that a conversion claims has two names, a folder for a role and a file in it
(`IsOutputPath`), and so have the numbered ones.  The names can be read back from the path
(`parts_injective`), so two files are never given one place under two spellings.
-/
import Mathlib.Data.List.Nodup
import Mathlib.Data.List.Perm.Subperm
import PhpMigration.Project.Claims
import PhpMigration.Proofs.Text.Digits
import PhpMigration.Role

namespace PhpMigration

/-! ### No mapping of letters makes a slash -/

namespace Text

theorem shiftOf?_some {runs : List (Nat × Nat × Nat × Int)} {n : Nat} {distance : Int}
    (h : shiftOf? runs n = some distance) : ∃ run ∈ runs, run.1 ≤ n ∧ run.2.2.2 = distance := by
  induction runs with
  | nil => cases h
  | cons run rest ih =>
      obtain ⟨first, last, step, d⟩ := run
      rw [shiftOf?] at h
      by_cases hfirst : n < first
      · rw [if_pos hfirst] at h
        cases h
      rw [if_neg hfirst] at h
      by_cases hrun : (decide (n ≤ last) && decide ((n - first) % step = 0)) = true
      · rw [if_pos hrun] at h
        exact ⟨_, List.mem_cons_self, Nat.not_lt.mp hfirst, Option.some.inj h⟩
      · rw [if_neg hrun] at h
        obtain ⟨run, hmem, hle⟩ := ih h
        exact ⟨run, List.mem_cons_of_mem _ hmem, hle⟩

/-- Runs that move everything above the slash move nothing to it. -/
theorem shifted_ne_slash {runs : List (Nat × Nat × Nat × Int)} {c : Char} (hc : c ≠ '/')
    (hruns : ∀ run ∈ runs, (47 : Int) < run.1 + run.2.2.2) : shifted runs c ≠ '/' := by
  unfold shifted
  cases hshift : shiftOf? runs c.toNat with
  | none => exact hc
  | some distance =>
      obtain ⟨run, hmem, hfirst, rfl⟩ := shiftOf?_some hshift
      have habove := hruns run hmem
      obtain ⟨n, hn⟩ : ∃ n, n = ((c.toNat : Int) + run.2.2.2).toNat := ⟨_, rfl⟩
      dsimp only
      rw [← hn]
      intro heq
      by_cases hvalid : n.isValidChar
      · rw [Char.ofNat, dif_pos hvalid] at heq
        have hcode : n = 47 := congrArg Char.toNat heq
        omega
      · rw [Char.ofNat, dif_neg hvalid] at heq
        exact absurd heq (by decide)

theorem ascii_ne_slash {c : Char} (hc : c ≠ '/') (hsmall : c.toNat < 128) :
    c.toUpper ≠ '/' ∧ c.toLower ≠ '/' := by
  have hall : ∀ n < 128, Char.ofNat n ≠ '/' →
      (Char.ofNat n).toUpper ≠ '/' ∧ (Char.ofNat n).toLower ≠ '/' := by decide
  rw [← Char.ofNat_toNat c] at hc ⊢
  exact hall c.toNat hsmall hc

theorem slash_not_mem_upperChar {c : Char} (hc : c ≠ '/') : '/' ∉ upperChar c := by
  unfold upperChar
  by_cases hsmall : c.toNat < 128
  · rw [if_pos hsmall]
    simpa using (ascii_ne_slash hc hsmall).1.symm
  rw [if_neg hsmall]
  cases hexpansion : upperExpansions.lookup c.toNat with
  | none =>
      have hshifted : shifted upperRuns c ≠ '/' := shifted_ne_slash hc (by decide +kernel)
      simpa using hshifted.symm
  | some codes =>
      have hall : ∀ entry ∈ upperExpansions, '/' ∉ entry.2.map Char.ofNat := by decide
      obtain ⟨front, back, hentry, -⟩ := List.lookup_eq_some_iff.mp hexpansion
      exact hall (c.toNat, codes) (by rw [hentry]; simp)

theorem slash_not_mem_lowerChar {c : Char} (hc : c ≠ '/') : '/' ∉ lowerChar c := by
  unfold lowerChar
  by_cases hsmall : c.toNat < 128
  · rw [if_pos hsmall]
    simpa using (ascii_ne_slash hc hsmall).2.symm
  rw [if_neg hsmall]
  by_cases hdotted : c.toNat = 0x130
  · rw [if_pos hdotted]
    decide
  · rw [if_neg hdotted]
    have hshifted : shifted lowerRuns c ≠ '/' := shifted_ne_slash hc (by decide +kernel)
    simpa using hshifted.symm

theorem slash_not_mem_lowerAfter {cs : List Char} (h : '/' ∉ cs) (before : List Char) :
    '/' ∉ lowerAfter before cs := by
  induction cs generalizing before with
  | nil => exact h
  | cons c rest ih =>
      obtain ⟨hc, hrest⟩ := not_or.mp (mt List.mem_cons.mpr h)
      rw [lowerAfter, List.mem_append, not_or]
      refine ⟨?_, ih hrest _⟩
      by_cases hsigma : c.toNat = 0x3A3
      · rw [if_pos hsigma]
        split <;> decide
      · rw [if_neg hsigma]
        exact slash_not_mem_lowerChar (Ne.symm hc)

end Text

/-! ### The names of converted files -/

namespace Path

theorem isName_append {front back : String} (hfront : IsName front) (hback : IsName back) :
    IsName (front ++ back) := by
  unfold IsName
  rw [String.toList_append, List.mem_append, not_or]
  exact ⟨hfront, hback⟩

theorem isName_stem (path : String) : IsName (stem path) := by
  have hname : IsName (name path) := by
    unfold name
    rw [List.getLastD_eq_getLast?]
    cases hlast : (parts path).getLast? with
    | none => exact fun h => by cases h
    | some last => exact isName_of_mem_parts (List.mem_of_getLast? hlast)
  unfold stem cut
  dsimp only
  split
  · rename_i front hfront
    split
    · exact hname
    · refine isName_ofList fun hslash => hname ?_
      have hmem : '/' ∈ (name path).toList.reverse.dropWhile (· ≠ '.') := by
        rw [hfront]
        exact List.mem_cons_of_mem _ (List.mem_reverse.mp hslash)
      exact List.mem_reverse.mp ((List.dropWhile_suffix _).subset hmem)
  · exact hname

end Path

/-- A path with the name of a folder for a role and that of a converted file. -/
def IsOutputPath (path : String) : Prop :=
  ∃ (role : Role) (stem : String), path = role.folder ++ "/" ++ stem ++ targetSuffix ∧
    Path.IsName stem

theorem slash_not_mem_camelFrom {cs : List Char} (h : '/' ∉ cs) (pending : Bool) :
    '/' ∉ camelFrom pending cs := by
  induction cs generalizing pending with
  | nil => cases pending <;> exact h
  | cons c rest ih =>
      obtain ⟨hc, hrest⟩ := not_or.mp (mt List.mem_cons.mpr h)
      rw [camelFrom]
      split
      · exact ih hrest _
      · split
        · rw [List.mem_append, not_or]
          refine ⟨?_, ih hrest _⟩
          unfold Text.upper
          simpa using Text.slash_not_mem_upperChar (Ne.symm hc)
        · rw [List.mem_cons, not_or]
          exact ⟨hc, ih hrest _⟩

theorem slash_not_mem_dashed {cs : List Char} (h : '/' ∉ cs) : '/' ∉ dashed cs := by
  induction cs with
  | nil => exact h
  | cons a rest ih =>
      obtain ⟨ha, hrest⟩ := not_or.mp (mt List.mem_cons.mpr h)
      cases rest with
      | nil => exact h
      | cons b more =>
          rw [dashed]
          split
          · simpa using ⟨ha, ih hrest⟩
          · simpa using ⟨ha, ih hrest⟩

theorem Role.isName_rename (role : Role) {stem : String} (h : Path.IsName stem) :
    Path.IsName (role.rename stem) := by
  unfold Role.rename
  by_cases hroute : role = .route
  · rw [if_pos hroute]
    refine Path.isName_ofList (Text.slash_not_mem_lowerAfter ?_ [])
    rw [String.toList_ofList]
    exact slash_not_mem_dashed h
  · rw [if_neg hroute]
    exact Path.isName_ofList (slash_not_mem_camelFrom h false)

theorem Role.isOutputPath_outputPath (role : Role) (fileName : String) :
    IsOutputPath (role.outputPath fileName) :=
  ⟨role, role.rename (Path.stem fileName), rfl, role.isName_rename (Path.isName_stem fileName)⟩

namespace IsOutputPath

theorem parts_eq (role : Role) {stem : String} (h : Path.IsName stem) :
    Path.parts (role.folder ++ "/" ++ stem ++ targetSuffix) = [role.folder, stem ++ targetSuffix] := by
  have hname : Path.IsName (stem ++ targetSuffix) := Path.isName_append h (by decide)
  have hlength : 3 ≤ (stem ++ targetSuffix).length := by
    rw [String.length_append]
    exact Nat.le_add_left 3 stem.length
  rw [String.append_assoc]
  refine Path.parts_pair (by cases role <;> decide) hname (by cases role <;> decide) ⟨?_, ?_⟩
  · intro heq
    rw [heq] at hlength
    exact absurd hlength (by decide)
  · intro heq
    rw [heq] at hlength
    exact absurd hlength (by decide)

/-- Two paths with the same names are the same. -/
theorem parts_injective {path path' : String} (h : IsOutputPath path) (h' : IsOutputPath path')
    (heq : Path.parts path = Path.parts path') : path = path' := by
  obtain ⟨role, stem, rfl, hstem⟩ := h
  obtain ⟨role', stem', rfl, hstem'⟩ := h'
  rw [parts_eq role hstem, parts_eq role' hstem'] at heq
  obtain ⟨hfolder, hfile⟩ := List.cons_eq_cons.mp heq
  rw [String.append_assoc, hfolder, (List.cons_eq_cons.mp hfile).1, ← String.append_assoc]

/-- No name leads back. -/
theorem dots_not_mem_parts {path : String} (h : IsOutputPath path) : ".." ∉ Path.parts path := by
  obtain ⟨role, stem, rfl, hstem⟩ := h
  rw [parts_eq role hstem]
  simp only [List.mem_cons, List.not_mem_nil, or_false, not_or]
  refine ⟨by cases role <;> decide, ?_⟩
  intro heq
  have hlength := congrArg String.length heq
  rw [String.length_append] at hlength
  exact absurd (hlength ▸ Nat.le_add_left 3 stem.length) (by decide)

end IsOutputPath

/-! ### Numbered paths -/

namespace Claims

theorem isName_toString (n : Nat) : Path.IsName (toString n) := by
  intro hslash
  exact absurd (Text.isDigit_of_mem_toString hslash) (by decide)

theorem cutSuffix_append (front : String) :
    cutSuffix (front ++ targetSuffix) = (front, targetSuffix) := by
  have hback : (front ++ targetSuffix).toList.reverse =
      's' :: 't' :: '.' :: front.toList.reverse := by simp [targetSuffix]
  unfold cutSuffix
  rw [hback]
  simp [targetSuffix]

/-- A target is numbered behind its stem. -/
theorem numbered_append (front : String) (n : Nat) :
    numbered (front ++ targetSuffix) n = front ++ toString n ++ targetSuffix := by
  rw [numbered, cutSuffix_append]

theorem isOutputPath_numbered {path : String} (h : IsOutputPath path) (n : Nat) :
    IsOutputPath (numbered path n) := by
  obtain ⟨role, stem, rfl, hstem⟩ := h
  refine ⟨role, stem ++ toString n, ?_, Path.isName_append hstem (isName_toString n)⟩
  rw [numbered_append]
  simp only [String.append_assoc]

theorem numbered_injective {path : String} (h : IsOutputPath path) {m n : Nat}
    (heq : numbered path m = numbered path n) : m = n := by
  obtain ⟨role, stem, rfl, -⟩ := h
  obtain ⟨front, hfront⟩ : ∃ front, front = role.folder ++ "/" ++ stem := ⟨_, rfl⟩
  rw [← hfront, numbered_append, numbered_append] at heq
  refine Text.toString_injective (String.toList_injective ?_)
  have hchars := congrArg String.toList heq
  simp only [String.toList_append, List.append_assoc] at hchars
  exact List.append_cancel_right (List.append_cancel_left hchars)

/-! ### A free path -/

/-- If none of some numbers makes the path free, all of them are held. -/
theorem firstFree?_eq_none {c : Claims} {path : String} {tries n : Nat}
    (h : firstFree? c path tries n = none) :
    ∀ i < tries, numbered path (n + i) ∈ Table.names c := by
  induction tries generalizing n with
  | zero => intro i hi; omega
  | succ tries ih =>
      rw [firstFree?] at h
      by_cases hheld : Table.has c (numbered path n) = true
      · rw [if_pos hheld] at h
        intro i hi
        cases i with
        | zero => exact (Table.has_iff_mem_names c _).mp hheld
        | succ i =>
            have hnext := ih h i (Nat.lt_of_succ_lt_succ hi)
            rwa [Nat.add_assoc, Nat.add_comm 1 i] at hnext
      · rw [if_neg hheld] at h
        cases h

/-- The number that is found makes the path free, and those before it do not. -/
theorem firstFree?_eq_some {c : Claims} {path given : String} {tries n : Nat}
    (h : firstFree? c path tries n = some given) :
    given ∉ Table.names c ∧ ∃ m, n ≤ m ∧ m < n + tries ∧ given = numbered path m ∧
      ∀ i, n ≤ i → i < m → numbered path i ∈ Table.names c := by
  induction tries generalizing n with
  | zero => cases h
  | succ tries ih =>
      rw [firstFree?] at h
      by_cases hheld : Table.has c (numbered path n) = true
      · rw [if_pos hheld] at h
        obtain ⟨hfresh, m, hle, hlt, hgiven, hbefore⟩ := ih h
        refine ⟨hfresh, m, by omega, by omega, hgiven, fun i hi hm => ?_⟩
        by_cases hfirst : i = n
        · rw [hfirst]
          exact (Table.has_iff_mem_names c _).mp hheld
        · exact hbefore i (by omega) hm
      · rw [if_neg hheld] at h
        cases h
        exact ⟨mt (Table.has_iff_mem_names c _).mpr hheld, n, Nat.le_refl n, by omega, rfl,
          fun i hi hm => by omega⟩

/-- One of as many numbers as there are claims, and one more, makes the path free. -/
theorem exists_firstFree? (c : Claims) {path : String} (h : IsOutputPath path) (n : Nat) :
    ∃ given, firstFree? c path (c.length + 1) n = some given := by
  cases hfree : firstFree? c path (c.length + 1) n with
  | some given => exact ⟨given, rfl⟩
  | none =>
      have hheld := firstFree?_eq_none hfree
      -- more different paths would be held than there are claims
      have hnodup : ((List.range (c.length + 1)).map fun i => numbered path (n + i)).Nodup := by
        refine List.Nodup.map ?_ List.nodup_range
        intro i j heq
        have hsum := numbered_injective h heq
        omega
      have hsub : ((List.range (c.length + 1)).map fun i => numbered path (n + i)) ⊆
          Table.names c := by
        intro name hname
        obtain ⟨i, hi, rfl⟩ := List.mem_map.mp hname
        exact hheld i (List.mem_range.mp hi)
      have hle := (hnodup.subperm hsub).length_le
      unfold Table.names at hle
      simp only [List.length_map, List.length_range] at hle
      omega

/-- **A path that a file is given first is held by nobody.** -/
theorem free_spec (c : Claims) {path : String} (h : IsOutputPath path) :
    free c path ∉ Table.names c ∧ IsOutputPath (free c path) := by
  unfold free
  by_cases hheld : Table.has c path = true
  · obtain ⟨given, hgiven⟩ := exists_firstFree? c h 2
    obtain ⟨hfresh, m, -, -, rfl, -⟩ := firstFree?_eq_some hgiven
    rw [if_pos hheld, hgiven]
    exact ⟨hfresh, isOutputPath_numbered h m⟩
  · rw [if_neg hheld]
    exact ⟨mt (Table.has_iff_mem_names c path).mpr hheld, h⟩

/-! ### Fair claims -/

/-- A path is held by one file and a file holds one path, and the paths are targets. -/
structure IsFair (c : Claims) : Prop where
  paths : (Table.names c).Nodup
  files : (c.map Prod.snd).Nodup
  targets : ∀ path ∈ Table.names c, IsOutputPath path

theorem isFair_nil : IsFair [] := ⟨List.nodup_nil, List.nodup_nil, by simp [Table.names]⟩

namespace IsFair

variable {c : Claims} {file file' path : String}

theorem target (h : c.IsFair) (hheld : (path, file) ∈ c) : IsOutputPath path :=
  h.targets path (List.mem_map.mpr ⟨(path, file), hheld, rfl⟩)

theorem file_unique (h : c.IsFair) (hheld : (path, file) ∈ c) (hheld' : (path, file') ∈ c) :
    file = file' := by
  have hsame := List.inj_on_of_nodup_map h.paths hheld hheld' rfl
  exact congrArg Prod.snd hsame

/-- A claim is met with the path that the file holds, or with a free one. -/
theorem claim (h : c.IsFair) (file : String) (hpath : IsOutputPath path) :
    (c.claim file path).2.IsFair ∧ ((c.claim file path).1, file) ∈ (c.claim file path).2 ∧
      ∀ entry ∈ c, entry ∈ (c.claim file path).2 := by
  unfold Claims.claim
  cases hheld : c.heldBy? file with
  | some held =>
      obtain ⟨entry, hfind, rfl⟩ := Option.map_eq_some_iff.mp hheld
      have hfile : entry.2 = file := by simpa using List.find?_some hfind
      refine ⟨h, ?_, fun _ hentry => hentry⟩
      rw [← hfile]
      exact List.mem_of_find?_eq_some hfind
  | none =>
      obtain ⟨hfresh, htarget⟩ := free_spec c hpath
      have hnew : file ∉ c.map Prod.snd := by
        intro hmem
        obtain ⟨entry, hentry, rfl⟩ := List.mem_map.mp hmem
        have hnone := List.find?_eq_none.mp (Option.map_eq_none_iff.mp hheld) entry hentry
        exact hnone (decide_eq_true rfl)
      dsimp only
      rw [Table.set_of_not_mem hfresh]
      refine ⟨⟨?_, ?_, ?_⟩, by simp, fun entry hentry => List.mem_append_left _ hentry⟩
      · unfold Table.names at hfresh ⊢
        rw [List.map_append]
        exact List.nodup_append.mpr ⟨h.paths, by simp, by
          rintro a ha b hb rfl
          rw [List.mem_singleton.mp hb] at ha
          exact hfresh ha⟩
      · rw [List.map_append]
        exact List.nodup_append.mpr ⟨h.files, by simp, by
          rintro a ha b hb rfl
          rw [List.mem_singleton.mp hb] at ha
          exact hnew ha⟩
      · intro other hother
        unfold Table.names at hother
        rw [List.map_append, List.mem_append] at hother
        rcases hother with hother | hother
        · exact h.targets other hother
        · rw [List.mem_singleton.mp hother]
          exact htarget

end IsFair

end Claims

end PhpMigration
