/-
The digits of a number.

A number is written with digits only, at least one, without a needless zero before them, and it can
be read back from them.  The library says so of lists of characters; here it is said of texts.
-/
namespace PhpMigration.Text

theorem toList_toString (n : Nat) : (toString n).toList = Nat.toDigits 10 n := by
  rw [Nat.toString_eq_ofList_toDigits, String.toList_ofList]

theorem isDigit_of_mem_toDigits {n : Nat} {c : Char} (h : c ∈ Nat.toDigits 10 n) :
    c.isDigit = true :=
  Nat.isDigit_of_mem_toDigits (by decide) (by decide) h

theorem isDigit_of_mem_toString {n : Nat} {c : Char} (h : c ∈ (toString n).toList) :
    c.isDigit = true :=
  isDigit_of_mem_toDigits (toList_toString n ▸ h)

/-- A number begins with a digit. -/
theorem toString_head (n : Nat) : ∃ c cs, (toString n).toList = c :: cs ∧ c.isDigit = true := by
  obtain ⟨c, cs, hcs⟩ := List.exists_cons_of_ne_nil (Nat.toDigits_ne_nil (n := n) (b := 10))
  refine ⟨c, cs, by rw [toList_toString, hcs], isDigit_of_mem_toDigits (n := n) ?_⟩
  rw [hcs]
  exact List.mem_cons_self

theorem toString_head_ne {d : Char} (n : Nat) (hd : d.isDigit = false) :
    (toString n).toList.head? ≠ some d := by
  obtain ⟨c, cs, hcs, hc⟩ := toString_head n
  rw [hcs]
  intro h
  obtain rfl := Option.some.inj h
  rw [hc] at hd
  cases hd

/-- A number other than zero begins with another digit. -/
theorem toDigits_head_ne_zero {n : Nat} (hn : 0 < n) : (Nat.toDigits 10 n).head? ≠ some '0' := by
  induction n using Nat.strongRecOn with
  | ind n ih =>
      rcases Nat.lt_or_ge n 10 with hlt | hge
      · rw [Nat.toDigits_of_lt_base hlt]
        exact (by decide : ∀ m < 10, 0 < m → [m.digitChar].head? ≠ some '0') n hlt hn
      · have hfront := ih (n / 10) (by omega) (by omega)
        rw [Nat.toDigits_of_base_le (by decide) hge, List.head?_append]
        cases hhead : (Nat.toDigits 10 (n / 10)).head? with
        | none => exact absurd (List.head?_eq_none_iff.mp hhead) Nat.toDigits_ne_nil
        | some c => simpa [hhead] using hfront

theorem ofDigitChars_toString (n : Nat) : Nat.ofDigitChars 10 (toString n).toList 0 = n := by
  rw [toList_toString, Nat.ofDigitChars_ten_toDigits]

theorem toString_injective {m n : Nat} (h : toString m = toString n) : m = n := by
  rw [← ofDigitChars_toString m, h, ofDigitChars_toString]

end PhpMigration.Text
