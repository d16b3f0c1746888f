/-
The pieces of a text that is split.

A piece is a part of the text that holds no separator, and a part that holds none lies within one of
the pieces (`infix_of_mem_splitAt`, `exists_piece_of_part`).  So whatever can be said of some piece,
and then also of what the piece lies within, can be said of some part without a separator.
-/
import PhpMigration.Text.Search

namespace PhpMigration.Text

variable {separator c : Char} {cs part piece : List Char}

theorem splitAt_ne_nil (separator : Char) (cs : List Char) : splitAt separator cs ≠ [] := by
  cases cs with
  | nil => exact List.cons_ne_nil _ _
  | cons c rest =>
      rw [splitAt]
      split
      · exact List.cons_ne_nil _ _
      · split <;> exact List.cons_ne_nil _ _

theorem splitAt_append_cons (separator : Char) (front back : List Char) :
    splitAt separator (front ++ separator :: back) =
      splitAt separator front ++ splitAt separator back := by
  induction front with
  | nil =>
      rw [List.nil_append, splitAt, splitAt, if_pos rfl]
      rfl
  | cons c rest ih =>
      rw [List.cons_append, splitAt, splitAt, ih]
      by_cases hc : c = separator
      · rw [if_pos hc, if_pos hc, List.cons_append]
      · rw [if_neg hc, if_neg hc]
        obtain ⟨piece, pieces, hpieces⟩ := List.exists_cons_of_ne_nil (splitAt_ne_nil separator rest)
        rw [hpieces]
        rfl

/-- The first piece is the longest beginning without a separator, and the others are parts. -/
theorem exists_splitAt_eq (separator : Char) (cs : List Char) : ∃ first pieces,
    splitAt separator cs = first :: pieces ∧ first <+: cs ∧ (∀ piece ∈ pieces, piece <:+: cs) ∧
      ∀ part, part <+: cs → separator ∉ part → part <+: first := by
  induction cs with
  | nil => exact ⟨[], [], rfl, List.prefix_rfl, by simp, fun part hpart _ => hpart⟩
  | cons c rest ih =>
      obtain ⟨first, pieces, hsplit, hfirst, hpieces, hlongest⟩ := ih
      rw [splitAt, hsplit]
      by_cases hc : c = separator
      · rw [if_pos hc]
        refine ⟨[], first :: pieces, rfl, List.nil_prefix, ?_, ?_⟩
        · refine List.forall_mem_cons.mpr ⟨List.infix_cons hfirst.isInfix, ?_⟩
          exact fun piece hpiece => List.infix_cons (hpieces piece hpiece)
        · intro part hpart hnone
          cases part with
          | nil => exact List.prefix_rfl
          | cons d more =>
              obtain ⟨rfl, -⟩ := List.cons_prefix_cons.mp hpart
              exact absurd (hc ▸ List.mem_cons_self) hnone
      · rw [if_neg hc]
        refine ⟨c :: first, pieces, rfl, List.cons_prefix_cons.mpr ⟨rfl, hfirst⟩,
          fun piece hpiece => List.infix_cons (hpieces piece hpiece), ?_⟩
        intro part hpart hnone
        cases part with
        | nil => exact List.nil_prefix
        | cons d more =>
            obtain ⟨rfl, hmore⟩ := List.cons_prefix_cons.mp hpart
            exact List.cons_prefix_cons.mpr
              ⟨rfl, hlongest more hmore fun hmem => hnone (List.mem_cons_of_mem _ hmem)⟩

theorem infix_of_mem_splitAt (h : piece ∈ splitAt separator cs) : piece <:+: cs := by
  obtain ⟨first, pieces, hsplit, hfirst, hpieces, -⟩ := exists_splitAt_eq separator cs
  rw [hsplit] at h
  rcases List.mem_cons.mp h with rfl | h
  · exact hfirst.isInfix
  · exact hpieces piece h

/-- A part without a separator lies within one of the pieces. -/
theorem exists_piece_of_part (h : part <:+: cs) (hnone : separator ∉ part) :
    ∃ piece ∈ splitAt separator cs, part <:+: piece := by
  induction cs with
  | nil => exact ⟨[], List.mem_singleton.mpr rfl, h⟩
  | cons c rest ih =>
      rcases List.infix_cons_iff.mp h with hbegins | hlater
      · obtain ⟨first, pieces, hsplit, -, -, hlongest⟩ := exists_splitAt_eq separator (c :: rest)
        rw [hsplit]
        exact ⟨first, List.mem_cons_self, (hlongest part hbegins hnone).isInfix⟩
      · obtain ⟨piece, hpiece, hpart⟩ := ih hlater
        obtain ⟨first, pieces, hsplit⟩ := List.exists_cons_of_ne_nil (splitAt_ne_nil separator rest)
        rw [hsplit] at hpiece
        rw [splitAt, hsplit]
        split
        · exact ⟨piece, List.mem_cons_of_mem _ hpiece, hpart⟩
        · rcases List.mem_cons.mp hpiece with rfl | hpiece
          · exact ⟨_, List.mem_cons_self, List.infix_cons hpart⟩
          · exact ⟨piece, List.mem_cons_of_mem _ hpiece, hpart⟩

/-- A character that separates nothing is in one of the pieces. -/
theorem exists_piece (hmem : c ∈ cs) (hc : c ≠ separator) : ∃ piece ∈ splitAt separator cs, c ∈ piece := by
  obtain ⟨front, back, rfl⟩ := List.append_of_mem hmem
  have hpart : [c] <:+: front ++ c :: back := ⟨front, back, by simp⟩
  obtain ⟨piece, hpiece, hin⟩ := exists_piece_of_part hpart (by simpa using hc.symm)
  exact ⟨piece, hpiece, hin.subset List.mem_cons_self⟩

end PhpMigration.Text
