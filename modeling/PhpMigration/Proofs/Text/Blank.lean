/-
Trimmed texts.

What is cut from the ends of a text are blanks only, so what is left is a piece of the text, and
there is nothing more to cut from it.
-/
import PhpMigration.Text.Blank
import Mathlib.Data.List.DropRight

namespace PhpMigration.Text

/-- What is trimmed begins with no blank, and neither does any part from its beginning. -/
theorem trimStart_of_prefix {cs front : List Char} (h : front <+: trimStart cs) :
    trimStart front = front := by
  refine List.dropWhile_eq_self_iff.mpr fun hpos => ?_
  have hpos' : 0 < (trimStart cs).length := Nat.lt_of_lt_of_le hpos (List.IsPrefix.length_le h)
  have hhead : front[0] = (trimStart cs)[0] := List.IsPrefix.getElem h hpos
  rw [hhead]
  exact List.dropWhile_get_zero_not isBlank cs hpos'

theorem trim_trim (cs : List Char) : trim (trim cs) = trim cs := by
  have hstart : trimStart (trim cs) = trim cs :=
    trimStart_of_prefix (List.rdropWhile_prefix isBlank (trimStart cs))
  rw [show trim (trim cs) = trimEnd (trimStart (trim cs)) from rfl, hstart]
  exact List.rdropWhile_idempotent isBlank (trimStart cs)

theorem strip_strip (s : String) : strip (strip s) = strip s := by
  unfold strip
  rw [String.toList_ofList, trim_trim]

/-- What is trimmed stands in the text. -/
theorem trim_isInfix (cs : List Char) : trim cs <:+: cs :=
  (List.rdropWhile_prefix isBlank (trimStart cs)).isInfix.trans
    (List.dropWhile_suffix isBlank).isInfix

/-- Nothing is left of a text exactly if it is blank. -/
theorem isEmpty_strip (s : String) : (strip s).isEmpty = isBlankText s := by
  have htrim : trim s.toList = [] ↔ ∀ c ∈ s.toList, isBlank c = true := by
    unfold trim trimEnd trimStart
    rw [List.reverse_eq_nil_iff, List.dropWhile_eq_nil_iff]
    constructor
    · intro h c hc
      rw [← List.takeWhile_append_dropWhile (p := isBlank) (l := s.toList)] at hc
      rcases List.mem_append.mp hc with hc | hc
      · exact List.mem_takeWhile_imp hc
      · exact h c (List.mem_reverse.mpr hc)
    · intro h c hc
      exact h c ((List.dropWhile_suffix isBlank).subset (List.mem_reverse.mp hc))
  unfold strip isBlankText
  rw [Bool.eq_iff_iff, String.isEmpty_iff, List.all_eq_true, ← htrim, ← String.toList_inj,
    String.toList_ofList]
  rfl

end PhpMigration.Text
