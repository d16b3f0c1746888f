/-
Rounding to the nearest double.

What rounds to a double is an interval around it, which the model describes in quarters of the last
place.  Rounding works with two logarithms and one division of integers; here it is measured
against the interval: a number in the interval of a double rounds to that double
(`ofRatio_of_roundsTo`).

Two numbers below which a power of two lies do not say yet what the exponent is, so it is found by
its binade (`binade_spec`).  The ends need care in one place: below a power of two the doubles are
twice as close, and the interval of the power reaches into their binade.
-/
import Mathlib.Algebra.Order.Field.Rat
import Mathlib.Algebra.Order.Field.Power
import Mathlib.Data.Nat.Cast.Field
import Mathlib.Tactic.FieldSimp
import Mathlib.Tactic.Linarith
import Mathlib.Tactic.NormNum
import Mathlib.Tactic.Positivity
import Mathlib.Tactic.Ring
import PhpMigration.Number.Shortest

namespace PhpMigration

/-- The value of a decimal. -/
def Decimal.value (d : Decimal) : ℚ := d.digits * 10 ^ d.exponent

namespace Double

/-! ### Quotients as values -/

/-- The quotient of a pair. -/
def quotient (p : Nat × Nat) : ℚ := p.1 / p.2

theorem ratio_pos (m : Nat) (e : Int) : 0 < (ratio m e).2 := by
  unfold ratio
  dsimp only
  split
  · exact Nat.pow_pos (by decide)
  · exact Nat.one_pos

theorem zpow_natAbs_of_neg {b : ℚ} {e : Int} (he : e < 0) : b ^ e = (b ^ e.natAbs)⁻¹ := by
  rw [← zpow_natCast, ← zpow_neg]
  congr 1
  omega

theorem zpow_natAbs_of_nonneg {b : ℚ} {e : Int} (he : 0 ≤ e) : b ^ e = b ^ e.natAbs := by
  rw [← zpow_natCast]
  congr 1
  omega

theorem quotient_ratio (m : Nat) (e : Int) : quotient (ratio m e) = m * 2 ^ e := by
  unfold ratio quotient
  by_cases he : e < 0
  · rw [if_pos he, zpow_natAbs_of_neg he, div_eq_mul_inv]
    push_cast [Nat.pow_eq]
    rfl
  · rw [if_neg he, zpow_natAbs_of_nonneg (by omega)]
    push_cast [Nat.pow_eq]
    rw [div_one]

theorem powerOfTen_pos (e : Int) : 0 < (powerOfTen e).1 ∧ 0 < (powerOfTen e).2 := by
  have hpos : 0 < Nat.pow 10 e.natAbs := Nat.pow_pos (by decide)
  unfold powerOfTen
  dsimp only
  split
  · exact ⟨Nat.one_pos, hpos⟩
  · exact ⟨hpos, Nat.one_pos⟩

theorem quotient_powerOfTen (e : Int) : quotient (powerOfTen e) = 10 ^ e := by
  unfold powerOfTen quotient
  by_cases he : e < 0
  · rw [if_pos he, zpow_natAbs_of_neg he]
    push_cast [Nat.pow_eq]
    rw [one_div]
  · rw [if_neg he, zpow_natAbs_of_nonneg (by omega)]
    push_cast [Nat.pow_eq]
    rw [div_one]

theorem scaleDown_pos {num den : Nat} (hden : 0 < den) (e : Int) : 0 < (scaleDown num den e).2 := by
  have hpos : 0 < Nat.pow 2 e.natAbs := Nat.pow_pos (by decide)
  unfold scaleDown
  dsimp only
  split
  · exact hden
  · exact Nat.mul_pos hden hpos

theorem quotient_scaleDown (num den : Nat) (e : Int) :
    quotient (scaleDown num den e) = num / den / 2 ^ e := by
  unfold scaleDown quotient
  by_cases he : e < 0
  · rw [if_pos he, zpow_natAbs_of_neg he]
    push_cast [Nat.pow_eq]
    rw [div_inv_eq_mul, div_mul_eq_mul_div]
  · rw [if_neg he, zpow_natAbs_of_nonneg (by omega)]
    push_cast [Nat.pow_eq]
    rw [div_div]

/-- A double that is an integer has the value of that integer. -/
theorem natAbs_of_toInt? {negative : Bool} {m : Nat} {e n : Int}
    (h : (finite negative m e).toInt? = some n) :
    (n.natAbs : ℚ) = m * 2 ^ e ∧ n = signed negative n.natAbs := by
  have hden : ((ratio m e).2 : ℚ) ≠ 0 := by exact_mod_cast (ratio_pos m e).ne'
  unfold toInt? at h
  dsimp only at h
  split at h
  · rename_i hdvd
    obtain rfl := Option.some.inj h
    have hnatAbs : (signed negative ((ratio m e).1 / (ratio m e).2)).natAbs =
        (ratio m e).1 / (ratio m e).2 := by
      cases negative
      · exact Int.natAbs_natCast _
      · exact (Int.natAbs_neg _).trans (Int.natAbs_natCast _)
    rw [hnatAbs, Nat.cast_div (Nat.dvd_of_mod_eq_zero hdvd) hden, ← quotient_ratio]
    exact ⟨rfl, rfl⟩
  · cases h

/-! ### The interval of a double -/

/-- The mantissa and the exponent are those of a double that is not zero: the mantissa fills its
bits unless the exponent is the least one. -/
structure IsNormal (m : Nat) (e : Int) : Prop where
  pos : 0 < m
  lt_bound : m < mantissaBound
  min_le : minExponent ≤ e
  le_max : e ≤ maxExponent
  full : e = minExponent ∨ mantissaBound / 2 ≤ m

/-- The number, in quarters of the last place, lies in the interval of `m · 2 ^ e`.  The ends belong
to it if the mantissa is even. -/
def RoundsTo (m : Nat) (e : Int) (x : ℚ) : Prop :=
  let quarters := 4 * x / 2 ^ e
  if m % 2 = 0 then
    ((roundingInterval m e).1 : ℚ) ≤ quarters ∧ quarters ≤ (roundingInterval m e).2
  else ((roundingInterval m e).1 : ℚ) < quarters ∧ quarters < (roundingInterval m e).2

theorem two_zpow_pos (e : Int) : (0 : ℚ) < 2 ^ e := zpow_pos (by norm_num) e

/-- How far the interval goes down, in units of the last place. -/
def reach (m : Nat) (e : Int) : ℚ :=
  if m = mantissaBound / 2 ∧ minExponent < e then 1 / 4 else 1 / 2

/-- The interval in units of the last place. -/
theorem roundsTo_iff {m : Nat} {e : Int} (hm : 0 < m) (x : ℚ) :
    RoundsTo m e x ↔ if m % 2 = 0 then m - reach m e ≤ x / 2 ^ e ∧ x / 2 ^ e ≤ m + 1 / 2
      else m - reach m e < x / 2 ^ e ∧ x / 2 ^ e < m + 1 / 2 := by
  have hlow : ((roundingInterval m e).1 : ℚ) = 4 * (m - reach m e) := by
    unfold roundingInterval reach
    dsimp only
    split
    · rw [Nat.cast_sub (by omega)]
      push_cast
      ring
    · rw [Nat.cast_sub (by omega)]
      push_cast
      ring
  have hhigh : ((roundingInterval m e).2 : ℚ) = 4 * (m + 1 / 2) := by
    unfold roundingInterval
    push_cast
    ring
  unfold RoundsTo
  rw [hlow, hhigh, mul_div_assoc]
  simp only [mul_le_mul_iff_of_pos_left (show (0 : ℚ) < 4 by norm_num),
    mul_lt_mul_iff_of_pos_left (show (0 : ℚ) < 4 by norm_num)]

/-- What lies in the interval is near, and no nearer to another double; where it is as near to
another one, the mantissa is even. -/
theorem RoundsTo.near {m : Nat} {e : Int} {x : ℚ} (h : RoundsTo m e x) (hm : 0 < m) :
    m - reach m e ≤ x / 2 ^ e ∧ x / 2 ^ e ≤ m + 1 / 2 ∧
      (x / 2 ^ e = m - reach m e ∨ x / 2 ^ e = m + 1 / 2 → m % 2 = 0) := by
  rw [roundsTo_iff hm] at h
  split at h
  · exact ⟨h.1, h.2, fun _ => ‹_›⟩
  · exact ⟨h.1.le, h.2.le, fun htie => (htie.elim (fun heq => h.1.ne heq.symm) h.2.ne).elim⟩

/-- What lies strictly between the ends lies in the interval. -/
theorem RoundsTo.of_lt {m : Nat} {e : Int} {x : ℚ} (hm : 0 < m) (hlow : m - reach m e < x / 2 ^ e)
    (hhigh : x / 2 ^ e < m + 1 / 2) : RoundsTo m e x := by
  rw [roundsTo_iff hm]
  split
  · exact ⟨hlow.le, hhigh.le⟩
  · exact ⟨hlow, hhigh⟩

theorem reach_pos (m : Nat) (e : Int) : 0 < reach m e := by
  unfold reach
  split <;> norm_num

theorem reach_le (m : Nat) (e : Int) : reach m e ≤ 1 / 2 := by
  unfold reach
  split <;> norm_num

/-- A double rounds to itself. -/
theorem RoundsTo.refl {m : Nat} (e : Int) (hm : 0 < m) : RoundsTo m e (m * 2 ^ e) := by
  have hvalue : (m : ℚ) * 2 ^ e / 2 ^ e = m := mul_div_cancel_right₀ _ (two_zpow_pos e).ne'
  refine .of_lt hm ?_ ?_
  · rw [hvalue]
    linarith [reach_pos m e]
  · rw [hvalue]
    linarith

/-- The test of the model compares with the ends of the interval. -/
theorem readsBack_iff (m : Nat) (e : Int) (d : Decimal) :
    readsBack m e d = true ↔ RoundsTo m e d.value := by
  have hpower := quotient_ratio 1 e
  have hten := quotient_powerOfTen d.exponent
  have hden : (0 : ℚ) < (ratio 1 e).2 := by exact_mod_cast ratio_pos 1 e
  have hdown : (0 : ℚ) < (powerOfTen d.exponent).2 := by
    exact_mod_cast (powerOfTen_pos d.exponent).2
  rw [Nat.cast_one, one_mul] at hpower
  have hnum : (0 : ℚ) < (ratio 1 e).1 := by
    have hpos := two_zpow_pos e
    rw [← hpower, quotient] at hpos
    exact (div_pos_iff_of_pos_right hden).mp hpos
  have hvalue : 4 * d.value / 2 ^ e = (4 * d.digits * (powerOfTen d.exponent).1 * (ratio 1 e).2 : ℕ) /
      ((ratio 1 e).1 * (powerOfTen d.exponent).2 : ℕ) := by
    rw [Decimal.value, ← hpower, ← hten, quotient, quotient]
    push_cast
    field_simp
  have hscale : (0 : ℚ) < ((ratio 1 e).1 * (powerOfTen d.exponent).2 : ℕ) := by
    push_cast
    positivity
  unfold readsBack RoundsTo
  simp only [hvalue, le_div_iff₀ hscale, div_le_iff₀ hscale, lt_div_iff₀ hscale, div_lt_iff₀ hscale]
  norm_cast
  simp only [Nat.mul_assoc]
  split <;> simp

/-! ### The nearest integer -/

/-- **A quotient at most one half away from an integer rounds to it**, if it is even where the
distance is one half. -/
theorem roundQuotient_eq {n d k : Nat} (hd : 0 < d) (hlow : 2 * k * d ≤ 2 * n + d)
    (hhigh : 2 * n ≤ 2 * k * d + d) (heven : 2 * k * d = 2 * n + d ∨ 2 * n = 2 * k * d + d → k % 2 = 0) :
    roundQuotient n d = k := by
  have hdivision := Nat.div_add_mod n d
  have hrest := Nat.mod_lt n hd
  unfold roundQuotient
  dsimp only
  generalize n / d = q at *
  generalize n % d = r at *
  have hle : k ≤ q + 1 := by
    by_contra hlt
    have hmul : (q + 2) * d ≤ k * d := Nat.mul_le_mul_right d (by omega)
    rw [Nat.add_mul, Nat.mul_comm q d] at hmul
    rw [Nat.mul_assoc] at hlow
    omega
  have hge : q ≤ k := by
    by_contra hlt
    have hmul : (k + 1) * d ≤ q * d := Nat.mul_le_mul_right d (by omega)
    rw [Nat.add_mul, Nat.one_mul, Nat.mul_comm q d] at hmul
    rw [Nat.mul_assoc] at hhigh
    omega
  rw [Nat.mul_assoc] at hlow hhigh heven
  rcases Nat.lt_or_eq_of_le hge with hlt | rfl
  · obtain rfl : k = q + 1 := by omega
    rw [Nat.add_mul, Nat.one_mul, Nat.mul_comm q d] at hlow hhigh heven
    split
    · omega
    · split <;> omega
  · rw [Nat.mul_comm q d] at hlow hhigh heven
    split
    · rfl
    · split <;> omega

/-- The same of values. -/
theorem roundQuotient_of_value {n d k : Nat} (hd : 0 < d) (hlow : (k : ℚ) - 1 / 2 ≤ n / d)
    (hhigh : (n : ℚ) / d ≤ k + 1 / 2)
    (heven : (n : ℚ) / d = k - 1 / 2 ∨ (n : ℚ) / d = k + 1 / 2 → k % 2 = 0) :
    roundQuotient n d = k := by
  have hpos : (0 : ℚ) < d := by exact_mod_cast hd
  rw [le_div_iff₀ hpos] at hlow
  rw [div_le_iff₀ hpos] at hhigh
  rw [div_eq_iff hpos.ne', div_eq_iff hpos.ne'] at heven
  refine roundQuotient_eq hd ?_ ?_ ?_
  · have : (2 * k * d : ℚ) ≤ 2 * n + d := by linarith
    exact_mod_cast this
  · have : (2 * n : ℚ) ≤ 2 * k * d + d := by linarith
    exact_mod_cast this
  · rintro (htie | htie)
    · have : (2 * k * d : ℚ) = 2 * n + d := by exact_mod_cast htie
      exact heven (.inl (by linarith))
    · have : (2 * n : ℚ) = 2 * k * d + d := by exact_mod_cast htie
      exact heven (.inr (by linarith))

/-! ### The binade -/

/-- A quotient lies between the powers of two that its logarithms give. -/
theorem quotient_between {num den : Nat} (hnum : 0 < num) (hden : 0 < den) :
    (2 : ℚ) ^ ((num.log2 : Int) - den.log2 - 1) < num / den ∧
      (num : ℚ) / den < 2 ^ ((num.log2 : Int) - den.log2 + 1) := by
  have hbounds : ∀ {n : Nat}, 0 < n →
      (2 : ℚ) ^ (n.log2 : Int) ≤ n ∧ (n : ℚ) < 2 ^ ((n.log2 : Int) + 1) := by
    intro n hn
    have hlow := Nat.log2_self_le hn.ne'
    have hhigh := @Nat.lt_log2_self n
    constructor
    · rw [zpow_natCast]
      exact_mod_cast hlow
    · rw [← Nat.cast_one, ← Nat.cast_add, zpow_natCast]
      exact_mod_cast hhigh
  obtain ⟨hnlow, hnhigh⟩ := hbounds hnum
  obtain ⟨hdlow, hdhigh⟩ := hbounds hden
  have hpos : (0 : ℚ) < den := by exact_mod_cast hden
  constructor
  · rw [lt_div_iff₀ hpos]
    calc (2 : ℚ) ^ ((num.log2 : Int) - den.log2 - 1) * den
        < 2 ^ ((num.log2 : Int) - den.log2 - 1) * 2 ^ ((den.log2 : Int) + 1) :=
          mul_lt_mul_of_pos_left hdhigh (two_zpow_pos _)
      _ = 2 ^ (num.log2 : Int) := by
          rw [← zpow_add₀ (by norm_num)]
          congr 1
          ring
      _ ≤ num := hnlow
  · rw [div_lt_iff₀ hpos]
    calc (num : ℚ) < 2 ^ ((num.log2 : Int) + 1) := hnhigh
      _ = 2 ^ ((num.log2 : Int) - den.log2 + 1) * 2 ^ (den.log2 : Int) := by
          rw [← zpow_add₀ (by norm_num)]
          congr 1
          ring
      _ ≤ 2 ^ ((num.log2 : Int) - den.log2 + 1) * den :=
          mul_le_mul_of_nonneg_left hdlow (two_zpow_pos _).le

/-- The exponent that rounding starts from. -/
def binade (num den : Nat) : Int :=
  let low : Int := (num.log2 : Int) - den.log2 - 53
  let scaled := scaleDown num den low
  if scaled.1 / scaled.2 < mantissaBound then low else low + 1

/-- The number fills the mantissa just at this exponent. -/
theorem binade_spec {num den : Nat} (hnum : 0 < num) (hden : 0 < den) :
    (2 : ℚ) ^ (binade num den + 52) ≤ num / den ∧
      (num : ℚ) / den < 2 ^ (binade num den + 53) := by
  obtain ⟨hlow, hhigh⟩ := quotient_between hnum hden
  unfold binade
  dsimp only
  generalize hstart : (num.log2 : Int) - den.log2 - 53 = low
  have hd : (0 : ℚ) < (scaleDown num den low).2 := by exact_mod_cast scaleDown_pos hden low
  have hscaled := quotient_scaleDown num den low
  have hsmall : (scaleDown num den low).1 / (scaleDown num den low).2 < mantissaBound ↔
      (num : ℚ) / den < 2 ^ (low + 53) := by
    rw [Nat.div_lt_iff_lt_mul (scaleDown_pos hden low), zpow_add₀ (by norm_num),
      mul_comm ((2 : ℚ) ^ low), ← div_lt_iff₀ (two_zpow_pos low), ← hscaled, quotient, div_lt_iff₀ hd]
    norm_cast
  have hlow : (2 : ℚ) ^ (low + 52) < num / den := by
    refine lt_of_eq_of_lt ?_ hlow
    congr 1
    omega
  have hhigh : (num : ℚ) / den < 2 ^ (low + 1 + 53) := by
    refine lt_of_lt_of_eq hhigh ?_
    congr 1
    omega
  split
  · exact ⟨hlow.le, hsmall.mp ‹_›⟩
  · refine ⟨?_, hhigh⟩
    have hge := not_lt.mp (mt hsmall.mpr ‹_›)
    refine le_of_eq_of_le ?_ hge
    congr 1
    omega

theorem ofRatio_eq {negative : Bool} {num den : Nat} (hnum : 0 < num) :
    ofRatio negative num den =
      let e := max (binade num den) minExponent
      carry negative (roundQuotient (scaleDown num den e).1 (scaleDown num den e).2) e := by
  rw [ofRatio, if_neg hnum.ne']
  rfl

/-- There is one exponent at which a number fills the mantissa. -/
theorem binade_eq {num den : Nat} {e : Int} (hnum : 0 < num) (hden : 0 < den)
    (hlow : (2 : ℚ) ^ (e + 52) ≤ num / den) (hhigh : (num : ℚ) / den < 2 ^ (e + 53)) :
    binade num den = e := by
  obtain ⟨hlow', hhigh'⟩ := binade_spec hnum hden
  have hle : binade num den + 52 < e + 53 :=
    (zpow_lt_zpow_iff_right₀ (by norm_num)).mp (hlow'.trans_lt hhigh)
  have hge : e + 52 < binade num den + 53 :=
    (zpow_lt_zpow_iff_right₀ (by norm_num)).mp (hlow.trans_lt hhigh')
  omega

/-- Below the binade of the least exponent rounding starts from the least exponent. -/
theorem max_binade_eq {num den : Nat} (hnum : 0 < num) (hden : 0 < den)
    (hhigh : (num : ℚ) / den < 2 ^ (minExponent + 53)) :
    max (binade num den) minExponent = minExponent := by
  have hle : binade num den + 52 < minExponent + 53 :=
    (zpow_lt_zpow_iff_right₀ (by norm_num)).mp ((binade_spec hnum hden).1.trans_lt hhigh)
  omega

/-- Rounding from an exponent on yields the integer that is nearest to the quotient there. -/
theorem roundQuotient_scaleDown {num den k : Nat} {e : Int} (hden : 0 < den)
    (hlow : (k : ℚ) - 1 / 2 ≤ num / den / 2 ^ e) (hhigh : (num : ℚ) / den / 2 ^ e ≤ k + 1 / 2)
    (heven : (num : ℚ) / den / 2 ^ e = k - 1 / 2 ∨ (num : ℚ) / den / 2 ^ e = k + 1 / 2 →
      k % 2 = 0) :
    roundQuotient (scaleDown num den e).1 (scaleDown num den e).2 = k := by
  rw [← quotient_scaleDown, quotient] at hlow hhigh heven
  exact roundQuotient_of_value (scaleDown_pos hden e) hlow hhigh heven

section

variable {m num den : Nat} {e : Int}

/-- What rounds to a double is not zero, and the mantissa does not overflow. -/
theorem RoundsTo.pos_and_lt (h : RoundsTo m e (num / den)) (hm : IsNormal m e) :
    0 < num ∧ (num : ℚ) / den < 2 ^ (e + 53) := by
  obtain ⟨hlow, hhigh, -⟩ := h.near hm.pos
  have hpos : (1 : ℚ) ≤ m := by exact_mod_cast hm.pos
  have hbound : (m : ℚ) + 1 ≤ 2 ^ 53 := by exact_mod_cast hm.lt_bound
  constructor
  · by_contra hzero
    have hvalue : (0 : ℚ) < num / den / 2 ^ e := by linarith [reach_le m e]
    rw [Nat.eq_zero_of_not_pos hzero, Nat.cast_zero, zero_div, zero_div] at hvalue
    exact lt_irrefl _ hvalue
  · rw [zpow_add₀ (by norm_num), mul_comm, ← div_lt_iff₀ (two_zpow_pos e)]
    have : (2 : ℚ) ^ (53 : Int) = 2 ^ 53 := by norm_cast
    linarith

/-- Where the number fills the mantissa, or the exponent is the least one, rounding starts from the
right exponent, and the mantissa is the nearest integer. -/
theorem ofRatio_of_full (hm : IsNormal m e) (hden : 0 < den) (h : RoundsTo m e (num / den))
    (hfull : (2 : ℚ) ^ (e + 52) ≤ num / den ∨ e = minExponent) (negative : Bool) :
    ofRatio negative num den = .finite negative m e := by
  obtain ⟨hlow, hhigh, heven⟩ := h.near hm.pos
  obtain ⟨hnum, hless⟩ := h.pos_and_lt hm
  have he : max (binade num den) minExponent = e := by
    rcases hfull with hfull | rfl
    · rw [binade_eq hnum hden hfull hless]
      exact max_eq_left hm.min_le
    · exact max_binade_eq hnum hden hless
  have hround : roundQuotient (scaleDown num den e).1 (scaleDown num den e).2 = m := by
    refine roundQuotient_scaleDown hden (by linarith [reach_le m e]) hhigh ?_
    rintro (htie | htie)
    · exact heven (.inl (le_antisymm (by linarith [reach_le m e]) hlow))
    · exact heven (.inr htie)
  rw [ofRatio_eq hnum]
  simp only [he, hround, carry, if_neg hm.lt_bound.ne, if_neg (not_lt.mpr hm.le_max)]

/-- Below the power of two only a quarter belongs to the interval, and only of the power itself. -/
theorem RoundsTo.below (h : RoundsTo m e (num / den)) (hm : IsNormal m e) (hmin : minExponent < e)
    (hbelow : (num : ℚ) / den / 2 ^ e < 2 ^ 52) :
    m = mantissaBound / 2 ∧ (2 : ℚ) ^ 52 - 1 / 4 ≤ num / den / 2 ^ e := by
  obtain ⟨hlow, -, -⟩ := h.near hm.pos
  have hmantissa : m = mantissaBound / 2 := by
    have hge := hm.full.resolve_left hmin.ne'
    have hlt : (m : ℚ) < (mantissaBound / 2 + 1 : ℕ) := by
      have hcast : ((mantissaBound / 2 + 1 : ℕ) : ℚ) = 2 ^ 52 + 1 := by norm_cast
      rw [hcast]
      linarith [reach_le m e]
    have hlt : m < mantissaBound / 2 + 1 := by exact_mod_cast hlt
    omega
  refine ⟨hmantissa, ?_⟩
  have hreach : reach m e = 1 / 4 := if_pos ⟨hmantissa, hmin⟩
  have hcast : (m : ℚ) = 2 ^ 52 := by
    rw [hmantissa]
    norm_cast
  rw [hreach, hcast] at hlow
  exact hlow

/-- Where the number lies below the power of two, rounding starts in the binade before, and carries
up. -/
theorem ofRatio_of_below (hm : IsNormal m e) (hden : 0 < den) (h : RoundsTo m e (num / den))
    (hbelow : (num : ℚ) / den < 2 ^ (e + 52)) (hmin : minExponent < e) (negative : Bool) :
    ofRatio negative num den = .finite negative m e := by
  have hunits : (num : ℚ) / den / 2 ^ e < 2 ^ 52 := by
    rw [div_lt_iff₀ (two_zpow_pos e), mul_comm]
    rw [zpow_add₀ (by norm_num)] at hbelow
    exact_mod_cast hbelow
  obtain ⟨hmantissa, hquarter⟩ := h.below hm hmin hunits
  obtain ⟨hnum, -⟩ := h.pos_and_lt hm
  have hhalf : (num : ℚ) / den / 2 ^ (e - 1) = 2 * (num / den / 2 ^ e) := by
    rw [zpow_sub_one₀ (by norm_num)]
    field_simp
  have he : max (binade num den) minExponent = e - 1 := by
    rw [binade_eq (e := e - 1) hnum hden ?_ ?_]
    · omega
    · rw [zpow_add₀ (by norm_num), mul_comm, ← le_div_iff₀ (two_zpow_pos _), hhalf]
      have : (2 : ℚ) ^ (52 : Int) = 2 ^ 52 := by norm_cast
      linarith
    · rw [zpow_add₀ (by norm_num), mul_comm, ← div_lt_iff₀ (two_zpow_pos _), hhalf]
      have : (2 : ℚ) ^ (53 : Int) = 2 * 2 ^ 52 := by norm_cast
      linarith
  have hround : roundQuotient (scaleDown num den (e - 1)).1 (scaleDown num den (e - 1)).2 =
      mantissaBound := by
    have hcast : (mantissaBound : ℚ) = 2 * 2 ^ 52 := by norm_cast
    refine roundQuotient_scaleDown hden ?_ ?_ fun _ => by decide
    · rw [hhalf, hcast]
      linarith
    · rw [hhalf, hcast]
      linarith
  rw [ofRatio_eq hnum]
  simp only [he, hround, carry, if_true, sub_add_cancel, if_neg (not_lt.mpr hm.le_max), hmantissa]

/-- **What lies in the interval of a double rounds to it.** -/
theorem ofRatio_of_roundsTo (hm : IsNormal m e) (hden : 0 < den) (h : RoundsTo m e (num / den))
    (negative : Bool) : ofRatio negative num den = .finite negative m e := by
  by_cases hfull : (2 : ℚ) ^ (e + 52) ≤ num / den ∨ e = minExponent
  · exact ofRatio_of_full hm hden h hfull negative
  · obtain ⟨hbelow, hmin⟩ := not_or.mp hfull
    exact ofRatio_of_below hm hden h (not_le.mp hbelow) (lt_of_le_of_ne hm.min_le (Ne.symm hmin))
      negative

end

/-- The nearest integer is one of the two that are next. -/
theorem roundQuotient_between (n d : Nat) :
    n / d ≤ roundQuotient n d ∧ roundQuotient n d ≤ n / d + 1 := by
  unfold roundQuotient
  dsimp only
  split
  · omega
  · split <;> omega

/-! ### Canonical doubles -/

/-- The only zero of a sign, a mantissa with all its bits, or no finite double. -/
def IsCanonical : Double → Prop
  | .finite _ m e => m = 0 ∧ e = minExponent ∨ IsNormal m e
  | _ => True

end Double

/-- The double nearest to a decimal with a sign. -/
def Decimal.nearest (negative : Bool) (d : Decimal) : Double :=
  .ofRatio negative (d.digits * (Double.powerOfTen d.exponent).1) (Double.powerOfTen d.exponent).2

theorem Decimal.nearest_eq {m : Nat} {e : Int} {d : Decimal} (hm : Double.IsNormal m e)
    (h : Double.RoundsTo m e d.value) (negative : Bool) :
    d.nearest negative = .finite negative m e := by
  refine Double.ofRatio_of_roundsTo hm (Double.powerOfTen_pos _).2 ?_ negative
  have hvalue : ((d.digits * (Double.powerOfTen d.exponent).1 : ℕ) : ℚ) /
      (Double.powerOfTen d.exponent).2 = d.value := by
    rw [Decimal.value, ← Double.quotient_powerOfTen, Double.quotient]
    push_cast
    rw [mul_div_assoc]
  rw [hvalue]
  exact h

end PhpMigration
