/-
The shortest decimal of a double reads back as the double.

The search goes through ever finer grids and stops at the first on which a neighbour of the double
lies in its interval.  On the grid with seventeen digits one does (`isSome_onGrid?`), because that
grid is narrower than the interval: the last of seventeen digits counts for less than the last place
of a mantissa, and less than half of it where the interval is short on one side.  So all that has
to be known of the leading digit is that the power of ten is not above the double, and the estimate
by binary logarithms is checked for that over the range of the exponents.
-/
import PhpMigration.Proofs.Number.Rounding

namespace PhpMigration.Double

variable {m : Nat} {e : Int}

/-! ### The grid -/

/-- A hit on a grid reads back. -/
theorem readsBack_of_onGrid? {g : Int} {d : Decimal} (h : onGrid? m e g = some d) :
    readsBack m e d = true := by
  unfold onGrid? at h
  dsimp only at h
  split at h
  · split at h <;> cases h <;> assumption
  · cases h
    assumption
  · cases h
    assumption
  · cases h

/-- The neighbour below on a grid. -/
def neighbour (m : Nat) (e g : Int) : Nat :=
  ((ratio m e).1 * (powerOfTen g).2) / ((ratio m e).2 * (powerOfTen g).1)

theorem neighbour_between (m : Nat) (e g : Int) :
    (neighbour m e g : ℚ) * 10 ^ g ≤ m * 2 ^ e ∧
      (m : ℚ) * 2 ^ e < (neighbour m e g + 1 : ℕ) * 10 ^ g := by
  have hratio := quotient_ratio m e
  have hten := quotient_powerOfTen g
  have hden : (0 : ℚ) < (ratio m e).2 := by exact_mod_cast ratio_pos m e
  have hup : (0 : ℚ) < (powerOfTen g).1 := by exact_mod_cast (powerOfTen_pos g).1
  have hdown : (0 : ℚ) < (powerOfTen g).2 := by exact_mod_cast (powerOfTen_pos g).2
  have hd : 0 < (ratio m e).2 * (powerOfTen g).1 :=
    Nat.mul_pos (ratio_pos m e) (powerOfTen_pos g).1
  rw [← hratio, ← hten, quotient, quotient]
  obtain ⟨q, hq⟩ : ∃ q, q = neighbour m e g := ⟨_, rfl⟩
  rw [← hq]
  constructor
  · rw [mul_div_assoc', div_le_div_iff₀ hdown hden]
    have hle : q * ((ratio m e).2 * (powerOfTen g).1) ≤ (ratio m e).1 * (powerOfTen g).2 := by
      rw [hq]
      exact Nat.div_mul_le_self _ _
    calc (q : ℚ) * (powerOfTen g).1 * (ratio m e).2
        = (q * ((ratio m e).2 * (powerOfTen g).1) : ℕ) := by
          push_cast
          ring
      _ ≤ ((ratio m e).1 * (powerOfTen g).2 : ℕ) := by exact_mod_cast hle
      _ = (ratio m e).1 * (powerOfTen g).2 := by push_cast; rfl
  · rw [mul_div_assoc', div_lt_div_iff₀ hden hdown]
    have hlt : (ratio m e).1 * (powerOfTen g).2 < (q + 1) * ((ratio m e).2 * (powerOfTen g).1) := by
      rw [Nat.mul_comm (q + 1), hq]
      exact Nat.lt_mul_div_succ _ hd
    calc ((ratio m e).1 : ℚ) * (powerOfTen g).2
        = ((ratio m e).1 * (powerOfTen g).2 : ℕ) := by push_cast; rfl
      _ < ((q + 1) * ((ratio m e).2 * (powerOfTen g).1) : ℕ) := by exact_mod_cast hlt
      _ = (q + 1 : ℕ) * (powerOfTen g).1 * (ratio m e).2 := by
          push_cast
          ring

/-- The last of seventeen digits counts for less than the interval is wide. -/
theorem step_lt {g : Int} (hm : IsNormal m e) (hg : (10 : ℚ) ^ (g + 16) ≤ m * 2 ^ e) :
    (10 : ℚ) ^ g / 2 ^ e < 2 * reach m e := by
  have hstep : (10 : ℚ) ^ g / 2 ^ e * 10 ^ 16 ≤ m := by
    rw [zpow_add₀ (by norm_num)] at hg
    rw [div_mul_eq_mul_div, div_le_iff₀ (two_zpow_pos e)]
    exact_mod_cast hg
  unfold reach
  split
  · rename_i hpower
    have hcast : (m : ℚ) = 2 ^ 52 := by
      rw [hpower.1]
      norm_cast
    rw [hcast] at hstep
    linarith
  · have hcast : (m : ℚ) < 2 ^ 53 := by exact_mod_cast hm.lt_bound
    linarith

/-- The nearer one of two neighbours reads back. -/
theorem readsBack_or {q : Nat} {g : Int} (hm : 0 < m) (hlow : (q : ℚ) * 10 ^ g ≤ m * 2 ^ e)
    (hhigh : (m : ℚ) * 2 ^ e < (q + 1 : ℕ) * 10 ^ g)
    (hstep : (10 : ℚ) ^ g / 2 ^ e < 2 * reach m e) :
    readsBack m e ⟨q, g⟩ = true ∨ readsBack m e ⟨q + 1, g⟩ = true := by
  have hpower := two_zpow_pos e
  have hreach := reach_le m e
  have hpos := reach_pos m e
  have hlow : (q : ℚ) * 10 ^ g / 2 ^ e ≤ m := by rwa [div_le_iff₀ hpower]
  have hhigh : (m : ℚ) < (q + 1 : ℕ) * 10 ^ g / 2 ^ e := by rwa [lt_div_iff₀ hpower]
  have hnext : ((q + 1 : ℕ) : ℚ) * 10 ^ g / 2 ^ e = q * 10 ^ g / 2 ^ e + 10 ^ g / 2 ^ e := by
    push_cast
    ring
  rw [readsBack_iff, readsBack_iff]
  show RoundsTo m e (q * 10 ^ g) ∨ RoundsTo m e ((q + 1 : ℕ) * 10 ^ g)
  by_cases hnear : (m : ℚ) - reach m e < q * 10 ^ g / 2 ^ e
  · exact .inl (.of_lt hm hnear (by linarith))
  · exact .inr (.of_lt hm (by linarith) (by linarith))

/-- **A grid that is narrow enough has a hit.** -/
theorem isSome_onGrid? {g : Int} (hm : IsNormal m e) (hg : (10 : ℚ) ^ (g + 16) ≤ m * 2 ^ e) :
    (onGrid? m e g).isSome = true := by
  obtain ⟨hlow, hhigh⟩ := neighbour_between m e g
  have hhit := readsBack_or hm.pos hlow hhigh (step_lt hm hg)
  unfold neighbour at hhit
  unfold onGrid?
  dsimp only
  split
  · rfl
  · rfl
  · rfl
  · rename_i hbelow habove
    rw [hbelow, habove] at hhit
    simp at hhit

/-! ### The search -/

/-- The search reads back if the leading digit is not above that of the double. -/
theorem readsBack_searchGrids {leading : Int} (hm : IsNormal m e)
    (hleading : (10 : ℚ) ^ leading ≤ m * 2 ^ e) {fuel used : Nat} (hfuel : fuel + used = 18)
    (hused : used ≤ 17) : readsBack m e (searchGrids m e leading fuel used) = true := by
  induction fuel generalizing used with
  | zero => omega
  | succ fuel ih =>
      unfold searchGrids
      split
      · rename_i d hd
        exact readsBack_of_onGrid? hd
      · rename_i hnone
        refine ih (by omega) ?_
        by_contra hlast
        obtain rfl : used = 17 := by omega
        have hsome := isSome_onGrid? (g := leading - (17 : Nat) + 1) hm (by
          refine le_of_eq_of_le ?_ hleading
          congr 1
          omega)
        rw [hnone] at hsome
        cases hsome

theorem value_dropZeros (fuel : Nat) (d : Decimal) : (dropZeros fuel d).value = d.value := by
  induction fuel generalizing d with
  | zero => rfl
  | succ fuel ih =>
      unfold dropZeros
      split
      · rename_i hzero
        rw [ih]
        obtain ⟨digits, exponent⟩ := d
        have hdigits : (digits : ℚ) = (digits / 10 : ℕ) * 10 := by
          exact_mod_cast (Nat.div_mul_cancel (Nat.dvd_of_mod_eq_zero hzero.2)).symm
        rw [Decimal.value, Decimal.value, zpow_add_one₀ (by norm_num)]
        dsimp only
        rw [hdigits]
        ring
      · rfl

/-! ### The leading digit -/

theorem leadingExponentFrom_le {num den : Nat} (hden : 0 < den) (fuel : Nat) {e : Int}
    (h : (10 : ℚ) ^ e ≤ num / den) : (10 : ℚ) ^ leadingExponentFrom num den fuel e ≤ num / den := by
  induction fuel generalizing e with
  | zero => exact h
  | succ fuel ih =>
      unfold leadingExponentFrom
      dsimp only
      split
      · rename_i hstep
        refine ih ?_
        have hpos : (0 : ℚ) < den := by exact_mod_cast hden
        have hdown : (0 : ℚ) < (powerOfTen (e + 1)).2 := by
          exact_mod_cast (powerOfTen_pos (e + 1)).2
        rw [← quotient_powerOfTen, quotient, div_le_div_iff₀ hdown hpos]
        exact_mod_cast hstep
      · exact h

/-- The estimate of the decimal logarithm of a power of two, one below. -/
def estimate (k : Int) : Int := (k * 30103).fdiv 100000 - 1

/-- The decimal logarithm of a power of two, rounded either way. -/
theorem pow_between : ∀ n < 1100, 10 ^ (30103 * n / 100000 - 1) ≤ 2 ^ n ∧
    2 ^ n ≤ 10 ^ ((30103 * n + 99999) / 100000 + 1) := by
  decide +kernel

/-- Over the range of the exponents the estimate is not above the power of two. -/
theorem estimate_le {k : Int} (hlow : -1100 < k) (hhigh : k < 1100) :
    (10 : ℚ) ^ estimate k ≤ 2 ^ k := by
  unfold estimate
  rw [Int.fdiv_eq_ediv_of_nonneg _ (by decide)]
  rcases Int.le_total 0 k with hk | hk
  · obtain ⟨n, rfl⟩ := Int.eq_ofNat_of_zero_le hk
    obtain ⟨hpow, -⟩ := pow_between n (by omega)
    calc (10 : ℚ) ^ ((n : Int) * 30103 / 100000 - 1)
        ≤ 10 ^ ((30103 * n / 100000 - 1 : ℕ) : Int) := by
          refine zpow_le_zpow_right₀ (by norm_num) ?_
          omega
      _ ≤ 2 ^ (n : Int) := by
          rw [zpow_natCast, zpow_natCast]
          exact_mod_cast hpow
  · obtain ⟨n, hn⟩ := Int.eq_ofNat_of_zero_le (Int.neg_nonneg.mpr hk)
    obtain ⟨-, hpow⟩ := pow_between n (by omega)
    have hexponent : k * 30103 / 100000 - 1 = -(((30103 * n + 99999) / 100000 + 1 : ℕ) : Int) := by
      omega
    rw [hexponent, show k = -(n : Int) by omega, zpow_neg, zpow_neg, zpow_natCast, zpow_natCast]
    exact inv_anti₀ (by positivity) (by exact_mod_cast hpow)

theorem ratio_fst_pos (hm : 0 < m) (e : Int) : 0 < (ratio m e).1 := by
  unfold ratio
  dsimp only
  split
  · exact hm
  · exact Nat.mul_pos hm (Nat.pow_pos (by decide))

/-- The numerator and the denominator of a double are of limited size. -/
theorem log2_ratio_lt (hm : IsNormal m e) :
    (ratio m e).1.log2 < 1024 ∧ (ratio m e).2.log2 < 1075 := by
  have hmantissa : m < 2 ^ 53 := hm.lt_bound
  have hmin : -1074 ≤ e := hm.min_le
  have hmax : e ≤ 971 := hm.le_max
  unfold ratio
  by_cases he : e < 0
  · have hlog := (Nat.log2_lt hm.pos.ne').mpr hmantissa
    have hpower : (Nat.pow 2 e.natAbs).log2 = e.natAbs := Nat.log2_two_pow
    rw [if_pos he]
    dsimp only
    rw [hpower]
    omega
  · have hproduct : m * Nat.pow 2 e.natAbs < 2 ^ (53 + e.natAbs) := by
      rw [Nat.pow_add]
      exact Nat.mul_lt_mul_of_pos_right hmantissa (Nat.two_pow_pos _)
    have hpos : 0 < m * Nat.pow 2 e.natAbs := Nat.mul_pos hm.pos (Nat.two_pow_pos _)
    have hlog := (Nat.log2_lt hpos.ne').mpr hproduct
    rw [if_neg he]
    dsimp only
    exact ⟨by omega, by decide⟩

/-- The leading digit is not above that of the double. -/
theorem leadingExponent_le (hm : IsNormal m e) :
    (10 : ℚ) ^ leadingExponent (ratio m e).1 (ratio m e).2 ≤ m * 2 ^ e := by
  have hnum := ratio_fst_pos hm.pos e
  have hden := ratio_pos m e
  obtain ⟨hnumlt, hdenlt⟩ := log2_ratio_lt hm
  rw [← quotient_ratio]
  refine leadingExponentFrom_le hden 5 (le_trans ?_ (quotient_between hnum hden).1.le)
  exact estimate_le (by omega) (by omega)

/-- **The shortest decimal reads back as the double.** -/
theorem readsBack_shortest (hm : IsNormal m e) : readsBack m e (shortest m e) = true := by
  rw [readsBack_iff]
  unfold shortest
  dsimp only
  rw [value_dropZeros, ← readsBack_iff]
  exact readsBack_searchGrids hm (leadingExponent_le hm) rfl (by decide)

/-- The shortest decimal is not zero. -/
theorem shortest_ne_zero (hm : IsNormal m e) : (shortest m e).digits ≠ 0 := by
  intro hzero
  have hreads := (readsBack_iff m e _).mp (readsBack_shortest hm)
  have hlow := (hreads.near hm.pos).1
  have hpos : (1 : ℚ) ≤ m := by exact_mod_cast hm.pos
  rw [Decimal.value, hzero, Nat.cast_zero, zero_mul, zero_div] at hlow
  linarith [reach_le m e]

end PhpMigration.Double
