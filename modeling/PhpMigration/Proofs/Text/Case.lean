/-
Small forms of the parts of a text.

What a character becomes in small letters depends on its neighbours in one case only: a capital
sigma becomes one of two small ones.  Where the two are not told apart, every character has a small
form of its own (`map_lowerAfter`).  So a word without a sigma that is found in the small letters of
a text is found in those of every text around it (`infix_lower_append`).
-/
import PhpMigration.Text.Case
import PhpMigration.Proofs.Text.Search

namespace PhpMigration.Text

/-- The small sigma within a word. -/
def sigma : Char := Char.ofNat 0x3C3

/-- The small sigma at the end of a word. -/
def finalSigma : Char := Char.ofNat 0x3C2

/-- The character, with the final sigma taken for the other one. -/
def withoutFinal (c : Char) : Char := if c = finalSigma then sigma else c

/-- The small form of a character, with the final sigma taken for the other one. -/
def smallForm (c : Char) : List Char :=
  if c.toNat = 0x3A3 then [sigma] else (lowerChar c).map withoutFinal

variable {word cs : List Char}

/-- **Where the two small sigmas are not told apart, a text is lowered character by character.** -/
theorem map_lowerAfter (before cs : List Char) :
    (lowerAfter before cs).map withoutFinal = cs.flatMap smallForm := by
  induction cs generalizing before with
  | nil => rfl
  | cons c rest ih =>
      rw [lowerAfter, List.map_append, ih, List.flatMap_cons, smallForm]
      congr 1
      split
      · split
        · exact (by decide : [finalSigma].map withoutFinal = [sigma])
        · exact (by decide : [sigma].map withoutFinal = [sigma])
      · rfl

theorem map_withoutFinal (h : finalSigma ∉ cs) : cs.map withoutFinal = cs := by
  have hsame : ∀ c ∈ cs, withoutFinal c = id c := fun c hc =>
    if_neg fun (hfinal : c = finalSigma) => h (hfinal ▸ hc)
  rw [List.map_congr_left hsame, List.map_id]

/-- A word that holds no sigma is found where the two are not told apart if it is found at all. -/
theorem infix_map_withoutFinal_iff (hword : sigma ∉ word) (hfinal : finalSigma ∉ word) :
    word <:+: cs.map withoutFinal ↔ word <:+: cs := by
  constructor
  · intro h
    obtain ⟨part, hpart, rfl⟩ := List.infix_map_iff.mp h
    have hnone : finalSigma ∉ part := fun hmem =>
      hword (List.mem_map.mpr ⟨finalSigma, hmem, if_pos rfl⟩)
    rwa [map_withoutFinal hnone]
  · intro h
    rw [← map_withoutFinal hfinal]
    exact h.map withoutFinal

/-- **A word without a sigma that is found in the small letters of a text is found in those of
every text around it.** -/
theorem infix_lower_append (hword : sigma ∉ word) (hfinal : finalSigma ∉ word)
    {left text right : String} (h : word <:+: (lower text).toList) :
    word <:+: (lower (left ++ text ++ right)).toList := by
  have hiff : ∀ s : String, word <:+: (lower s).toList ↔ word <:+: s.toList.flatMap smallForm := by
    intro s
    rw [lower, String.toList_ofList, ← infix_map_withoutFinal_iff hword hfinal, map_lowerAfter]
  rw [hiff] at h ⊢
  rw [String.toList_append, String.toList_append, List.flatMap_append, List.flatMap_append]
  exact h.trans ⟨_, _, rfl⟩

end PhpMigration.Text
