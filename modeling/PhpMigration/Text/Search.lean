/-
Looking for one text inside another, on lists of characters.

Replacement goes from left to right and does not look again into what it has replaced.  It is a
recursion on the text itself: a match leaves a number of characters to be skipped.
-/

namespace PhpMigration.Text

/-- The needle stands somewhere in the text. -/
def occursIn (needle : List Char) : List Char → Bool
  | [] => needle.isEmpty
  | c :: rest => needle.isPrefixOf (c :: rest) || occursIn needle rest

/-- Replacement with `skip` characters of the last match still to be passed over. -/
def replaceFrom (old new : List Char) : Nat → List Char → List Char
  | _, [] => []
  | skip + 1, _ :: rest => replaceFrom old new skip rest
  | 0, c :: rest =>
    if old.isPrefixOf (c :: rest) then new ++ replaceFrom old new (old.length - 1) rest
    else c :: replaceFrom old new 0 rest

/-- Every occurrence of `old`, which is not empty, becomes `new`. -/
def replaceAll (old new : List Char) (cs : List Char) : List Char := replaceFrom old new 0 cs

/-- The text from the first occurrence of the needle on. -/
def findFrom? (needle : List Char) : List Char → Option (List Char)
  | [] => if needle.isEmpty then some [] else none
  | c :: rest => if needle.isPrefixOf (c :: rest) then some (c :: rest) else findFrom? needle rest

/-- The needle stands somewhere in the text. -/
def contains (text needle : String) : Bool := occursIn needle.toList text.toList

/-- The pieces between the separators; there is one piece more than there are separators. -/
def splitAt (separator : Char) : List Char → List (List Char)
  | [] => [[]]
  | c :: rest =>
    if c = separator then [] :: splitAt separator rest
    else match splitAt separator rest with
      | [] => [[c]]
      | piece :: pieces => (c :: piece) :: pieces

section

variable {separator : Char} {front : List Char}

theorem splitAt_of_not_mem (h : separator ∉ front) : splitAt separator front = [front] := by
  induction front with
  | nil => rfl
  | cons c rest ih =>
      obtain ⟨hc, hrest⟩ := not_or.mp (mt List.mem_cons.mpr h)
      rw [splitAt, if_neg (Ne.symm hc), ih hrest]

theorem splitAt_append (h : separator ∉ front) (back : List Char) :
    splitAt separator (front ++ separator :: back) = front :: splitAt separator back := by
  induction front with
  | nil => rw [List.nil_append, splitAt, if_pos rfl]
  | cons c rest ih =>
      obtain ⟨hc, hrest⟩ := not_or.mp (mt List.mem_cons.mpr h)
      rw [List.cons_append, splitAt, if_neg (Ne.symm hc), ih hrest]

/-- A piece holds no separator, and is made of the characters of the text. -/
theorem splitAt_piece {cs piece : List Char} (h : piece ∈ splitAt separator cs) :
    separator ∉ piece ∧ piece ⊆ cs := by
  induction cs generalizing piece with
  | nil =>
      obtain rfl := List.mem_singleton.mp h
      exact ⟨List.not_mem_nil, List.Subset.refl _⟩
  | cons c rest ih =>
      rw [splitAt] at h
      split at h
      · rcases List.mem_cons.mp h with rfl | h
        · exact ⟨List.not_mem_nil, List.nil_subset _⟩
        · exact ⟨(ih h).1, fun d hd => List.mem_cons_of_mem _ ((ih h).2 hd)⟩
      · rename_i hc
        -- the first piece of the rest is begun by the character
        have hbegun : ∀ {first : List Char}, separator ∉ first ∧ first ⊆ rest →
            separator ∉ c :: first ∧ c :: first ⊆ c :: rest := by
          intro first hfirst
          refine ⟨?_, List.cons_subset_cons _ hfirst.2⟩
          rw [List.mem_cons, not_or]
          exact ⟨Ne.symm hc, hfirst.1⟩
        cases hrest : splitAt separator rest with
        | nil =>
            rw [hrest] at h
            obtain rfl := List.mem_singleton.mp h
            exact hbegun ⟨List.not_mem_nil, List.nil_subset _⟩
        | cons first pieces =>
            rw [hrest] at h ih
            rcases List.mem_cons.mp h with rfl | h
            · exact hbegun (ih List.mem_cons_self)
            · have hpiece := ih (List.mem_cons_of_mem _ h)
              exact ⟨hpiece.1, fun d hd => List.mem_cons_of_mem _ (hpiece.2 hd)⟩

/-- Pieces without a separator are found again where they have been joined by it. -/
theorem splitAt_intercalate {pieces : List (List Char)} (hne : pieces ≠ [])
    (h : ∀ piece ∈ pieces, separator ∉ piece) :
    splitAt separator ([separator].intercalate pieces) = pieces := by
  induction pieces with
  | nil => exact absurd rfl hne
  | cons piece rest ih =>
      have hpiece := h piece List.mem_cons_self
      cases rest with
      | nil =>
          rw [List.intercalate_singleton]
          exact splitAt_of_not_mem hpiece
      | cons next more =>
          rw [List.intercalate_cons_cons, List.append_assoc, List.singleton_append,
            splitAt_append hpiece,
            ih (List.cons_ne_nil _ _) fun other hother => h other (List.mem_cons_of_mem _ hother)]

end

end PhpMigration.Text
