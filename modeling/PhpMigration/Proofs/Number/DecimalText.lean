/-
The text of a decimal.

A decimal is written with its digits at their places, or with a point behind the first digit and an
exponent.  Either way the text has three parts: the digits before the point, the digits behind it and
the exponent, of which the last two may be missing.  What a text with such parts denotes is said once
(`DecimalParts.decimal`), and both ways of writing denote the decimal that is written.
-/
import PhpMigration.Proofs.Number.Shortest
import PhpMigration.Proofs.Text.Digits

namespace PhpMigration

/-- The parts of the text of a decimal; a point is written if digits stand behind it. -/
structure DecimalParts where
  whole : List Char
  fraction : List Char
  /-- The sign and the digits. -/
  exponent : Option (Bool × List Char)

namespace DecimalParts

/-- The text of an exponent. -/
def exponentChars : Option (Bool × List Char) → List Char
  | none => []
  | some (negative, digits) => 'e' :: (if negative then '-' else '+') :: digits

/-- The number of an exponent. -/
def exponentValue : Option (Bool × List Char) → Int
  | none => 0
  | some (negative, digits) => Double.signed negative (Nat.ofDigitChars 10 digits 0)

/-- The text. -/
def chars (p : DecimalParts) : List Char :=
  p.whole ++ (if p.fraction.isEmpty then [] else '.' :: p.fraction) ++ exponentChars p.exponent

/-- The decimal that the text denotes. -/
def decimal (p : DecimalParts) : Decimal :=
  ⟨Nat.ofDigitChars 10 (p.whole ++ p.fraction) 0, exponentValue p.exponent - p.fraction.length⟩

/-- The digits are digits, at least one before the point and in the exponent, and no needless zero
comes first. -/
structure IsWellFormed (p : DecimalParts) : Prop where
  whole_ne_nil : p.whole ≠ []
  whole : ∀ c ∈ p.whole, c.isDigit = true
  no_needless_zero : 1 < p.whole.length → p.whole.head? ≠ some '0'
  fraction : ∀ c ∈ p.fraction, c.isDigit = true
  exponent : ∀ negative digits, p.exponent = some (negative, digits) →
    digits ≠ [] ∧ ∀ c ∈ digits, c.isDigit = true
  /-- There is a point or an exponent. -/
  marked : p.fraction ≠ [] ∨ p.exponent ≠ none

end DecimalParts

namespace Double

/-! ### Digits at their places -/

/-- The parts of digits with a point behind the first `whole` of them. -/
def positionalParts (digits : List Char) (whole : Int) : DecimalParts :=
  if whole ≤ 0 then ⟨['0'], List.replicate whole.natAbs '0' ++ digits, none⟩
  else
    ⟨digits.take whole.natAbs ++ List.replicate (whole.natAbs - digits.length) '0',
      if (digits.drop whole.natAbs).isEmpty then ['0'] else digits.drop whole.natAbs, none⟩

/-- The parts of digits with a point behind the first, and the exponent. -/
def scientificParts (first : Char) (rest : List Char) (e : Int) : DecimalParts :=
  ⟨[first], rest, some (decide (e < 0),
    if (Nat.toDigits 10 e.natAbs).length < 2 then '0' :: Nat.toDigits 10 e.natAbs
    else Nat.toDigits 10 e.natAbs)⟩

variable {digits rest : List Char} {first : Char}

theorem chars_positionalParts (hne : digits ≠ []) (whole : Int) :
    (positionalParts digits whole).chars = positional digits whole := by
  unfold positionalParts positional
  split
  · simp [DecimalParts.chars, DecimalParts.exponentChars, hne]
  · by_cases hdrop : (digits.drop whole.natAbs).isEmpty = true
    · simp [DecimalParts.chars, DecimalParts.exponentChars, hdrop]
    · simp [DecimalParts.chars, DecimalParts.exponentChars, hdrop]

theorem chars_scientificParts (first : Char) (rest : List Char) (e : Int) :
    (scientificParts first rest e).chars = scientific (first :: rest) e := by
  cases rest <;> simp [scientificParts, scientific, DecimalParts.chars,
    DecimalParts.exponentChars, exponentText]

theorem isWellFormed_positionalParts (hne : digits ≠ []) (hdigits : ∀ c ∈ digits, c.isDigit = true)
    (hhead : digits.head? ≠ some '0') (whole : Int) : (positionalParts digits whole).IsWellFormed := by
  have hzeros : ∀ n, ∀ c ∈ List.replicate n '0', c.isDigit = true := by
    intro n c hc
    rw [List.eq_of_mem_replicate hc]
    rfl
  unfold positionalParts
  split
  · refine ⟨by simp, by simp, by simp, ?_, by simp, .inl (by simp [hne])⟩
    exact fun c hc => (List.mem_append.mp hc).elim (hzeros _ c) (hdigits c)
  · obtain ⟨first, rest, rfl⟩ := List.exists_cons_of_ne_nil hne
    obtain ⟨k, hk⟩ := Nat.exists_eq_add_of_lt (show 0 < whole.natAbs by omega)
    rw [Nat.zero_add] at hk
    refine ⟨by simp [hk], ?_, ?_, ?_, by simp, .inl ?_⟩
    · exact fun c hc => (List.mem_append.mp hc).elim
        (fun hmem => hdigits c (List.mem_of_mem_take hmem)) (hzeros _ c)
    · intro _
      simpa [hk] using hhead
    · dsimp only
      split
      · simp
      · exact fun c hc => hdigits c (List.mem_of_mem_drop hc)
    · dsimp only
      split
      · simp
      · rename_i hdrop
        exact fun hnil => hdrop (by rw [hnil]; rfl)

theorem isWellFormed_scientificParts (hdigits : ∀ c ∈ first :: rest, c.isDigit = true) (e : Int) :
    (scientificParts first rest e).IsWellFormed := by
  have hexponent : ∀ c ∈ Nat.toDigits 10 e.natAbs, c.isDigit = true :=
    fun c => Text.isDigit_of_mem_toDigits
  unfold scientificParts
  refine ⟨by simp, ?_, by simp, fun c hc => hdigits c (by simp [hc]), ?_, .inr (by simp)⟩
  · simpa using hdigits first (by simp)
  · rintro negative digits h
    obtain ⟨-, rfl⟩ := Prod.mk.inj (Option.some.inj h)
    split
    · simpa using hexponent
    · exact ⟨Nat.toDigits_ne_nil, hexponent⟩

/-- Zeros behind the digits multiply the number. -/
theorem ofDigitChars_append_zeros (digits : List Char) (n : Nat) :
    Nat.ofDigitChars 10 (digits ++ List.replicate n '0') 0 = 10 ^ n * Nat.ofDigitChars 10 digits 0 := by
  rw [Nat.ofDigitChars_append, Nat.ofDigitChars_replicate_zero]

/-- **The point stands where it belongs.** -/
theorem value_positionalParts (digits : List Char) (whole : Int) :
    (positionalParts digits whole).decimal.value =
      Nat.ofDigitChars 10 digits 0 * 10 ^ (whole - digits.length) := by
  unfold positionalParts
  split
  · -- All digits stand behind the point, with zeros between.
    rename_i hwhole
    have hnumber : Nat.ofDigitChars 10 (['0'] ++ (List.replicate whole.natAbs '0' ++ digits)) 0 =
        Nat.ofDigitChars 10 digits 0 := by
      rw [Nat.ofDigitChars_append, Nat.ofDigitChars_append, Nat.ofDigitChars_replicate_zero]
      rfl
    unfold DecimalParts.decimal Decimal.value DecimalParts.exponentValue
    dsimp only
    rw [hnumber, List.length_append, List.length_replicate]
    congr 2
    omega
  · rename_i hwhole
    by_cases hdrop : (digits.drop whole.natAbs).isEmpty = true
    · -- All digits stand before the point, with zeros behind them.
      have hlength : digits.length ≤ whole.natAbs := by simpa using hdrop
      rw [if_pos hdrop, List.take_of_length_le hlength]
      unfold DecimalParts.decimal Decimal.value DecimalParts.exponentValue
      dsimp only
      have hzeros : (10 : ℚ) ^ (whole - digits.length) = 10 ^ (whole.natAbs - digits.length) := by
        rw [← zpow_natCast, Nat.cast_sub hlength]
        congr 1
        omega
      rw [show (['0'] : List Char) = List.replicate 1 '0' from rfl, ofDigitChars_append_zeros,
        ofDigitChars_append_zeros, hzeros]
      push_cast
      rw [show (0 : Int) - (['0'].length : Nat) = -1 from rfl, zpow_neg_one]
      field_simp
    · have hlength : whole.natAbs < digits.length := by simpa using hdrop
      rw [if_neg hdrop]
      unfold DecimalParts.decimal Decimal.value DecimalParts.exponentValue
      dsimp only
      rw [Nat.sub_eq_zero_of_le hlength.le, List.replicate_zero, List.append_nil,
        List.take_append_drop, List.length_drop]
      congr 2
      omega

theorem value_scientificParts (first : Char) (rest : List Char) (e : Int) :
    (scientificParts first rest e).decimal.value =
      Nat.ofDigitChars 10 (first :: rest) 0 * 10 ^ (e - rest.length) := by
  have hexponent : DecimalParts.exponentValue (scientificParts first rest e).exponent = e := by
    have hvalue : Nat.ofDigitChars 10 (if (Nat.toDigits 10 e.natAbs).length < 2
        then '0' :: Nat.toDigits 10 e.natAbs else Nat.toDigits 10 e.natAbs) 0 = e.natAbs := by
      split
      · rw [Nat.ofDigitChars_cons]
        exact Nat.ofDigitChars_ten_toDigits
      · exact Nat.ofDigitChars_ten_toDigits
    unfold scientificParts DecimalParts.exponentValue signed
    dsimp only
    rw [hvalue]
    rcases Int.lt_or_le e 0 with he | he
    · rw [decide_eq_true he, if_pos rfl]
      omega
    · rw [decide_eq_false (by omega), if_neg (by decide)]
      omega
  unfold DecimalParts.decimal Decimal.value
  rw [hexponent]
  rfl

/-- **The text of a decimal denotes the decimal.** -/
theorem exists_parts {d : Decimal} (hd : d.digits ≠ 0) :
    ∃ p : DecimalParts, p.chars = decimalText d ∧ p.IsWellFormed ∧ p.decimal.value = d.value := by
  have hdigits : ∀ c ∈ Nat.toDigits 10 d.digits, c.isDigit = true :=
    fun c => Text.isDigit_of_mem_toDigits
  have hvalue : d.value = Nat.ofDigitChars 10 (Nat.toDigits 10 d.digits) 0 * 10 ^ d.exponent := by
    rw [Nat.ofDigitChars_ten_toDigits]
    rfl
  have hhead := Text.toDigits_head_ne_zero (Nat.pos_of_ne_zero hd)
  obtain ⟨first, rest, hcons⟩ :=
    List.exists_cons_of_ne_nil (Nat.toDigits_ne_nil (n := d.digits) (b := 10))
  unfold decimalText
  dsimp only
  rw [hvalue]
  rw [hcons] at hdigits hhead ⊢
  split
  · refine ⟨_, chars_positionalParts (by simp) _,
      isWellFormed_positionalParts (by simp) hdigits hhead _, ?_⟩
    rw [value_positionalParts]
    congr 2
    omega
  · refine ⟨_, chars_scientificParts first rest _, isWellFormed_scientificParts hdigits _, ?_⟩
    rw [value_scientificParts, List.length_cons]
    congr 2
    push_cast
    omega

end Double

end PhpMigration
