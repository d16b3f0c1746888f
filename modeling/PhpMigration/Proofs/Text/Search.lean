/-
The first place of one text in another.

The text from an occurrence of a needle on is an end of the whole text that begins with the needle,
and the first occurrence leaves the longest such end.  What a search yields is said in these words
(`findFrom?_eq_some_iff`), so no proof has to look at the search again.
-/
import PhpMigration.Text.Search

namespace PhpMigration.Text

variable {needle cs found : List Char}

theorem occursIn_iff : occursIn needle cs = true ↔ needle <:+: cs := by
  induction cs with
  | nil => rw [occursIn, List.infix_nil, List.isEmpty_iff]
  | cons c rest ih => rw [occursIn, Bool.or_eq_true, ih, List.isPrefixOf_iff_prefix, List.infix_cons_iff]

theorem contains_iff {text word : String} :
    contains text word = true ↔ word.toList <:+: text.toList := occursIn_iff

/-- A search fails if the needle is nowhere in the text. -/
theorem findFrom?_eq_none_iff : findFrom? needle cs = none ↔ ¬needle <:+: cs := by
  induction cs with
  | nil =>
      rw [findFrom?, List.infix_nil]
      cases needle <;> simp
  | cons c rest ih =>
      rw [findFrom?, List.infix_cons_iff, ← List.isPrefixOf_iff_prefix]
      by_cases hhere : needle.isPrefixOf (c :: rest) = true
      · simp [hhere]
      · rw [if_neg hhere, ih]
        simp [hhere]

/-- **A search yields the longest end of the text that begins with the needle.** -/
theorem findFrom?_eq_some_iff : findFrom? needle cs = some found ↔
    needle <+: found ∧ found <:+ cs ∧
      ∀ other, needle <+: other → other <:+ cs → other.length ≤ found.length := by
  induction cs with
  | nil =>
      constructor
      · intro h
        rw [findFrom?] at h
        split at h
        · obtain rfl := Option.some.inj h
          rename_i hempty
          rw [List.isEmpty_iff.mp hempty]
          refine ⟨List.prefix_rfl, List.suffix_rfl, fun other _ hother => hother.length_le⟩
        · cases h
      · rintro ⟨hneedle, hfound, -⟩
        obtain rfl := List.suffix_nil.mp hfound
        obtain rfl := List.prefix_nil.mp hneedle
        rfl
  | cons c rest ih =>
      rw [findFrom?]
      by_cases hhere : needle.isPrefixOf (c :: rest) = true
      · rw [if_pos hhere]
        constructor
        · intro h
          obtain rfl := Option.some.inj h
          exact ⟨List.isPrefixOf_iff_prefix.mp hhere, List.suffix_rfl,
            fun other _ hother => hother.length_le⟩
        · rintro ⟨-, hfound, hlongest⟩
          have hle := hlongest _ (List.isPrefixOf_iff_prefix.mp hhere) List.suffix_rfl
          rw [hfound.eq_of_length_le hle]
      · rw [if_neg hhere, ih]
        -- The whole text does not begin with the needle, so nothing is gained by its first character.
        have hends : ∀ other, needle <+: other → (other <:+ c :: rest ↔ other <:+ rest) := by
          intro other hother
          refine ⟨fun h => ?_, fun h => h.trans (List.suffix_cons c rest)⟩
          rcases List.suffix_cons_iff.mp h with rfl | h
          · exact absurd (List.isPrefixOf_iff_prefix.mpr hother) hhere
          · exact h
        constructor
        · rintro ⟨hneedle, hfound, hlongest⟩
          refine ⟨hneedle, (hends _ hneedle).mpr hfound, fun other hother hsuffix => ?_⟩
          exact hlongest other hother ((hends _ hother).mp hsuffix)
        · rintro ⟨hneedle, hfound, hlongest⟩
          refine ⟨hneedle, (hends _ hneedle).mp hfound, fun other hother hsuffix => ?_⟩
          exact hlongest other hother ((hends _ hother).mpr hsuffix)

/-- Where the needle stands first, the search stops. -/
theorem findFrom?_append {front back : List Char}
    (h : ∀ before behind, front ++ needle ++ back = before ++ needle ++ behind →
      front.length ≤ before.length) :
    findFrom? needle (front ++ needle ++ back) = some (needle ++ back) := by
  refine findFrom?_eq_some_iff.mpr ⟨List.prefix_append _ _, ⟨front, by simp⟩, ?_⟩
  rintro other ⟨behind, rfl⟩ ⟨before, hbefore⟩
  have hle := h before behind (by rw [← hbefore, List.append_assoc])
  have hlength := congrArg List.length hbefore
  simp only [List.length_append] at hlength ⊢
  omega

end PhpMigration.Text
