/-
How far apart two doubles are.

A difference is rounded, so a limit that it keeps may be passed by the exact difference.  Where
rounding does no harm rests on one fact: rounding never passes a double (`atLeast_ofRatio`,
`atMost_ofRatio`).  So what is a double already is not changed, and that is the case for the
difference of two numbers neither of which is more than twice the other: it is a multiple of the
smaller last place, and there are not too many of them (`sub_spec`).  A difference beyond that is at
least the smaller number, also after rounding.
-/
import PhpMigration.Proofs.Number.Rounding

namespace PhpMigration

namespace Double

/-! ### Values -/

/-- The value of a finite double; the others have none, and count as zero. -/
def value : Double → ℚ
  | .finite negative m e => signed negative m * 2 ^ e
  | _ => 0

/-- A finite double, in the form that rounding yields. -/
def IsFinite : Double → Prop
  | .finite negative m e => (finite negative m e).IsCanonical
  | _ => False

/-- The double, which may be infinite, is no less than a number. -/
def AtLeast (d : Double) (x : ℚ) : Prop :=
  match d with
  | .nan => False
  | .infinite negative => negative = false
  | .finite negative m e => x ≤ (finite negative m e).value

/-- The double, which may be infinite, is no greater than a number. -/
def AtMost (d : Double) (x : ℚ) : Prop :=
  match d with
  | .nan => False
  | .infinite negative => negative = true
  | .finite negative m e => (finite negative m e).value ≤ x

theorem AtLeast.mono {d : Double} {x y : ℚ} (h : d.AtLeast y) (hle : x ≤ y) : d.AtLeast x := by
  cases d with
  | nan => exact h
  | infinite negative => exact h
  | finite negative m e => exact hle.trans h

theorem AtLeast.ne_nan {d : Double} {x : ℚ} (h : d.AtLeast x) : d ≠ .nan := by
  rintro rfl
  exact h

theorem cast_signed (negative : Bool) (n : Nat) :
    ((signed negative n : Int) : ℚ) = signed negative 1 * n := by
  cases negative <;> simp [signed]

theorem value_eq_ratio (negative : Bool) (m : Nat) (e : Int) :
    (finite negative m e).value = signed negative (ratio m e).1 / (ratio m e).2 := by
  have hquotient := quotient_ratio m e
  rw [quotient] at hquotient
  rw [value, cast_signed, cast_signed negative (ratio m e).1, mul_div_assoc, hquotient, mul_assoc]

theorem value_neg (d : Double) : d.neg.value = -d.value := by
  cases d with
  | nan => exact neg_zero.symm
  | infinite negative => exact neg_zero.symm
  | finite negative m e => cases negative <;> simp [neg, value, signed]

theorem value_ofInt_zero : (ofInt 0).value = 0 := by
  show (signed false 0 : ℚ) * 2 ^ minExponent = 0
  simp [signed]

theorem isFinite_ofInt_zero : (ofInt 0).IsFinite := .inl ⟨rfl, rfl⟩

/-- **Comparing finite doubles is comparing their values.** -/
theorem finite_lt_finite (s t : Bool) (m k : Nat) (e f : Int) :
    (finite s m e).lt (finite t k f) = true ↔ (finite s m e).value < (finite t k f).value := by
  have hleft : (0 : ℚ) < (ratio m e).2 := by exact_mod_cast ratio_pos m e
  have hright : (0 : ℚ) < (ratio k f).2 := by exact_mod_cast ratio_pos k f
  have hmul : ∀ (negative : Bool) (a b : Nat),
      ((signed negative (a * b) : Int) : ℚ) = signed negative a * b := by
    intro negative a b
    rw [cast_signed, cast_signed negative a]
    push_cast
    ring
  rw [value_eq_ratio, value_eq_ratio, div_lt_div_iff₀ hleft hright, ← hmul, ← hmul, Int.cast_lt]
  exact decide_eq_true_iff

theorem AtLeast.lt_eq_false {limit d : Double} {x : ℚ} (hlimit : limit.AtLeast x)
    (hd : d.AtMost x) : limit.lt d = false := by
  cases limit with
  | nan => exact hlimit.elim
  | infinite s =>
      obtain rfl : s = false := hlimit
      cases d <;> rfl
  | finite s m e =>
      cases d with
      | nan => exact hd.elim
      | infinite t =>
          obtain rfl : t = true := hd
          rfl
      | finite t k f =>
          rw [← Bool.not_eq_true, finite_lt_finite, not_lt]
          exact hd.trans hlimit

theorem AtLeast.lt_of_not {limit d : Double} {x : ℚ} (hd : d.AtLeast x) (hnan : limit ≠ .nan)
    (hlimit : ¬ limit.AtLeast x) : limit.lt d = true := by
  cases limit with
  | nan => exact absurd rfl hnan
  | infinite s =>
      obtain rfl : s = true := by simpa [AtLeast] using hlimit
      cases d with
      | nan => exact hd.elim
      | infinite t =>
          obtain rfl : t = false := hd
          rfl
      | finite t k f => rfl
  | finite s m e =>
      cases d with
      | nan => exact hd.elim
      | infinite t =>
          obtain rfl : t = false := hd
          rfl
      | finite t k f => exact (finite_lt_finite s t m k e f).mpr ((not_le.mp hlimit).trans_le hd)

/-! ### Rounding and the doubles -/

/-- A mantissa and an exponent within their bounds; the mantissa need not fill its bits. -/
structure Fits (m : Nat) (e : Int) : Prop where
  lt_bound : m < mantissaBound
  min_le : minExponent ≤ e
  le_max : e ≤ maxExponent

theorem IsFinite.fits {negative : Bool} {m : Nat} {e : Int} (h : (finite negative m e).IsFinite) :
    Fits m e := by
  rcases h with ⟨rfl, rfl⟩ | h
  · exact ⟨by decide, le_rfl, by decide⟩
  · exact ⟨h.lt_bound, h.min_le, h.le_max⟩

theorem le_roundQuotient {n d k : Nat} (hd : 0 < d) (h : k * d ≤ n) : k ≤ roundQuotient n d :=
  ((Nat.le_div_iff_mul_le hd).mpr h).trans (roundQuotient_between n d).1

theorem roundQuotient_le {n d k : Nat} (hd : 0 < d) (h : n ≤ k * d) : roundQuotient n d ≤ k := by
  have hle : n / d ≤ k := Nat.div_le_of_le_mul (by rwa [Nat.mul_comm])
  rcases Nat.lt_or_eq_of_le hle with hlt | heq
  · have hnext := (roundQuotient_between n d).2
    omega
  · have hdivision := Nat.div_add_mod n d
    rw [heq, Nat.mul_comm] at hdivision
    have hrest : n % d = 0 := by omega
    unfold roundQuotient
    simp only [hrest, heq]
    rw [if_pos (by omega)]

/-- The mantissa that rounding finds before it is carried, at the exponent that it starts from. -/
def rounded (num den : Nat) : Nat :=
  let e := max (binade num den) minExponent
  roundQuotient (scaleDown num den e).1 (scaleDown num den e).2

section

variable {num den m : Nat} {f : Int}

/-- Where the last place is that of the number or greater, both lie on one grid. -/
theorem exists_eq_mul_zpow (m : Nat) {e f : Int} (h : e ≤ f) :
    ∃ k : Nat, (m : ℚ) * 2 ^ f = k * 2 ^ e := by
  refine ⟨m * 2 ^ (f - e).toNat, ?_⟩
  push_cast
  rw [mul_assoc, ← zpow_natCast, Int.toNat_of_nonneg (by omega), ← zpow_add₀ (by norm_num)]
  congr 2
  omega

/-- A number with a smaller last place lies below the binade. -/
theorem Fits.lt_of_lt_exponent (hm : Fits m f) {e : Int} (h : f < e) :
    (m : ℚ) * 2 ^ f < 2 ^ (e + 52) := by
  have hbound : (m : ℚ) < 2 ^ (53 : Int) := by exact_mod_cast hm.lt_bound
  calc (m : ℚ) * 2 ^ f < 2 ^ (53 : Int) * 2 ^ f := mul_lt_mul_of_pos_right hbound (two_zpow_pos f)
    _ = 2 ^ (53 + f) := (zpow_add₀ (by norm_num) _ _).symm
    _ ≤ 2 ^ (e + 52) := zpow_le_zpow_right₀ (by norm_num) (by omega)

theorem le_rounded (hnum : 0 < num) (hden : 0 < den) (hm : Fits m f)
    (h : (m : ℚ) * 2 ^ f ≤ num / den) :
    (m : ℚ) * 2 ^ f ≤ rounded num den * 2 ^ max (binade num den) minExponent := by
  have hfull := (binade_spec hnum hden).1
  unfold rounded
  dsimp only
  generalize he : max (binade num den) minExponent = e at *
  have hd : (0 : ℚ) < (scaleDown num den e).2 := by exact_mod_cast scaleDown_pos hden e
  have hscaled := quotient_scaleDown num den e
  rw [quotient] at hscaled
  have hgrid : ∀ k : Nat, (k : ℚ) * 2 ^ e ≤ num / den →
      k ≤ roundQuotient (scaleDown num den e).1 (scaleDown num den e).2 := by
    intro k hk
    refine le_roundQuotient (scaleDown_pos hden e) ?_
    rw [← le_div_iff₀ (two_zpow_pos e), ← hscaled, le_div_iff₀ hd] at hk
    exact_mod_cast hk
  by_cases hle : e ≤ f
  · obtain ⟨k, hk⟩ := exists_eq_mul_zpow m hle
    rw [hk] at h ⊢
    exact mul_le_mul_of_nonneg_right (by exact_mod_cast hgrid k h) (two_zpow_pos e).le
  · obtain rfl : binade num den = e := by have := hm.min_le; omega
    have hpower : (2 : ℚ) ^ (binade num den + 52) = (2 ^ 52 : ℕ) * 2 ^ binade num den := by
      rw [zpow_add₀ (by norm_num), mul_comm]
      norm_cast
    refine (hm.lt_of_lt_exponent (not_le.mp hle)).le.trans ?_
    rw [hpower] at hfull ⊢
    exact mul_le_mul_of_nonneg_right (by exact_mod_cast hgrid _ hfull) (two_zpow_pos _).le

theorem rounded_le (hnum : 0 < num) (hden : 0 < den) (hm : Fits m f)
    (h : (num : ℚ) / den ≤ m * 2 ^ f) :
    max (binade num den) minExponent ≤ f ∧
      (rounded num den * 2 ^ max (binade num den) minExponent : ℚ) ≤ m * 2 ^ f := by
  have hfull := (binade_spec hnum hden).1
  unfold rounded
  dsimp only
  generalize he : max (binade num den) minExponent = e at *
  have hle : e ≤ f := by
    by_contra hlt
    obtain rfl : binade num den = e := by have := hm.min_le; omega
    exact absurd (hfull.trans h) (not_le.mpr (hm.lt_of_lt_exponent (not_le.mp hlt)))
  have hd : (0 : ℚ) < (scaleDown num den e).2 := by exact_mod_cast scaleDown_pos hden e
  have hscaled := quotient_scaleDown num den e
  rw [quotient] at hscaled
  obtain ⟨k, hk⟩ := exists_eq_mul_zpow m hle
  refine ⟨hle, ?_⟩
  rw [hk] at h ⊢
  rw [← div_le_iff₀ (two_zpow_pos e), ← hscaled, div_le_iff₀ hd] at h
  have hround := roundQuotient_le (scaleDown_pos hden e) (by exact_mod_cast h)
  exact mul_le_mul_of_nonneg_right (by exact_mod_cast hround) (two_zpow_pos e).le

/-- Carrying keeps the value, unless it is too large for a double. -/
theorem carry_spec (m : Nat) (e : Int) : ∃ k f,
    carry false m e = (if maxExponent < f then .infinite false else .finite false k f) ∧
      (k : ℚ) * 2 ^ f = m * 2 ^ e ∧ (f = e ∨ m = mantissaBound ∧ f = e + 1) := by
  unfold carry
  by_cases hcarry : m = mantissaBound
  · refine ⟨mantissaBound / 2, e + 1, by simp only [if_pos hcarry], ?_, .inr ⟨hcarry, rfl⟩⟩
    have hhalf : ((mantissaBound / 2 : ℕ) : ℚ) * 2 = mantissaBound := by norm_cast
    rw [zpow_add_one₀ (by norm_num), hcarry, ← hhalf]
    ring
  · exact ⟨m, e, by simp only [if_neg hcarry], rfl, .inl rfl⟩

/-- **Rounding does not pass a double below.** -/
theorem atLeast_ofRatio (hnum : 0 < num) (hden : 0 < den) (hm : Fits m f)
    (h : (m : ℚ) * 2 ^ f ≤ num / den) : (ofRatio false num den).AtLeast (m * 2 ^ f) := by
  have hle := le_rounded hnum hden hm h
  obtain ⟨k, g, hcarry, hvalue, -⟩ :=
    carry_spec (rounded num den) (max (binade num den) minExponent)
  rw [ofRatio_eq hnum]
  refine (congrArg (AtLeast · _) hcarry).mpr ?_
  split
  · rfl
  · show (m : ℚ) * 2 ^ f ≤ (signed false k : ℚ) * 2 ^ g
    rw [show ((signed false k : Int) : ℚ) = k from rfl, hvalue]
    exact hle

/-- **Rounding does not pass a double above.** -/
theorem atMost_ofRatio (hnum : 0 < num) (hden : 0 < den) (hm : Fits m f)
    (h : (num : ℚ) / den ≤ m * 2 ^ f) : (ofRatio false num den).AtMost (m * 2 ^ f) := by
  obtain ⟨hexponent, hle⟩ := rounded_le hnum hden hm h
  obtain ⟨k, g, hcarry, hvalue, hg⟩ :=
    carry_spec (rounded num den) (max (binade num den) minExponent)
  have hmax : g ≤ maxExponent := by
    rcases hg with rfl | ⟨hfull, rfl⟩
    · exact hexponent.trans hm.le_max
    · -- A mantissa that is carried is too large for the last place of the double above.
      refine le_trans ?_ hm.le_max
      by_contra hlt
      obtain rfl : max (binade num den) minExponent = f := by omega
      rw [hfull, mul_le_mul_iff_left₀ (two_zpow_pos _)] at hle
      exact absurd hm.lt_bound (not_lt.mpr (by exact_mod_cast hle))
  rw [ofRatio_eq hnum]
  refine (congrArg (AtMost · _) hcarry).mpr ?_
  rw [if_neg (not_lt.mpr hmax)]
  show (signed false k : ℚ) * 2 ^ g ≤ (m : ℚ) * 2 ^ f
  rw [show ((signed false k : Int) : ℚ) = k from rfl, hvalue]
  exact hle

end

/-! ### The difference -/

theorem add_eq_ofExact (s t : Bool) (m k : Nat) (e f : Int) : ∃ num den, 0 < den ∧
    (finite s m e).add (finite t k f) = ofExact (s && t) num den ∧
      (num : ℚ) / den = (finite s m e).value + (finite t k f).value := by
  have hleft : ((ratio m e).2 : ℚ) ≠ 0 := by exact_mod_cast (ratio_pos m e).ne'
  have hright : ((ratio k f).2 : ℚ) ≠ 0 := by exact_mod_cast (ratio_pos k f).ne'
  refine ⟨signed s ((ratio m e).1 * (ratio k f).2) + signed t ((ratio k f).1 * (ratio m e).2),
    (ratio m e).2 * (ratio k f).2, Nat.mul_pos (ratio_pos m e) (ratio_pos k f), rfl, ?_⟩
  rw [value_eq_ratio, value_eq_ratio, div_add_div _ _ hleft hright, Int.cast_add, cast_signed s,
    cast_signed t, cast_signed s (ratio m e).1, cast_signed t (ratio k f).1]
  push_cast
  congr 1
  ring

/-- Rounding the exact difference does not pass a double on either side. -/
theorem sub_between {a b : Double} (ha : a.IsFinite) (hb : b.IsFinite) (hle : b.value ≤ a.value)
    {m : Nat} {f : Int} (hm : Fits m f) :
    ((m : ℚ) * 2 ^ f ≤ a.value - b.value → (a.sub b).AtLeast (m * 2 ^ f)) ∧
      (a.value - b.value ≤ m * 2 ^ f → (a.sub b).AtMost (m * 2 ^ f)) := by
  obtain ⟨zero, num, den, hden, heq, hvalue⟩ : ∃ zero num den, 0 < den ∧
      a.sub b = ofExact zero num den ∧ (num : ℚ) / den = a.value - b.value := by
    cases a with
    | nan => exact ha.elim
    | infinite s => exact ha.elim
    | finite s k e =>
        cases b with
        | nan => exact hb.elim
        | infinite t => exact hb.elim
        | finite t l g =>
            obtain ⟨num, den, hden, heq, hvalue⟩ := add_eq_ofExact s (!t) k l e g
            refine ⟨_, num, den, hden, heq, ?_⟩
            rw [hvalue, sub_eq_add_neg, ← value_neg]
            rfl
  have hpos : (0 : ℚ) < den := by exact_mod_cast hden
  rw [← hvalue, heq, ofExact]
  split
  · rename_i hzero
    rw [hzero, Int.cast_zero, zero_div]
    have hnothing : (finite zero 0 minExponent).value = 0 := by cases zero <;> simp [value, signed]
    exact ⟨fun h => h.trans hnothing.ge, fun h => hnothing.le.trans h⟩
  · rename_i hne
    have hnum : 0 ≤ num := by
      have hdiff : (0 : ℚ) ≤ num / den := hvalue ▸ sub_nonneg.mpr hle
      rw [le_div_iff₀ hpos, zero_mul] at hdiff
      exact_mod_cast hdiff
    obtain ⟨n, rfl⟩ := Int.eq_ofNat_of_zero_le hnum
    have hn : 0 < n := by omega
    rw [decide_eq_false (not_lt.mpr hnum), Int.natAbs_natCast, Int.cast_natCast]
    exact ⟨atLeast_ofRatio hn hden hm, atMost_ofRatio hn hden hm⟩

theorem IsFinite.exists_fits {d : Double} (h : d.IsFinite) (hpos : 0 ≤ d.value) :
    ∃ m e, Fits m e ∧ d.value = m * 2 ^ e := by
  cases d with
  | nan => exact h.elim
  | infinite s => exact h.elim
  | finite s m e =>
      refine ⟨m, e, h.fits, ?_⟩
      cases s with
      | false => rfl
      | true =>
          have hnonneg : (0 : ℚ) ≤ m * 2 ^ e := mul_nonneg m.cast_nonneg (two_zpow_pos e).le
          have hvalue : (finite true m e).value = -(m * 2 ^ e) := by simp [value, signed]
          rw [hvalue] at hpos ⊢
          linarith

/-- **The difference of two doubles neither of which is more than twice the other is a double.**
It is a multiple of the smaller last place, and it is no greater than the number whose place this
is. -/
theorem exists_fits_sub {m k : Nat} {e f : Int} (hm : Fits m e) (hk : Fits k f)
    (hle : (k : ℚ) * 2 ^ f ≤ m * 2 ^ e) (htwice : (m : ℚ) * 2 ^ e ≤ 2 * (k * 2 ^ f)) :
    ∃ n g, Fits n g ∧ (m : ℚ) * 2 ^ e - k * 2 ^ f = n * 2 ^ g := by
  by_cases hexponent : e ≤ f
  · obtain ⟨l, hl⟩ := exists_eq_mul_zpow k hexponent
    rw [hl] at hle ⊢
    have hlm : l ≤ m := by exact_mod_cast (mul_le_mul_iff_left₀ (two_zpow_pos e)).mp hle
    refine ⟨m - l, e, ⟨(Nat.sub_le m l).trans_lt hm.lt_bound, hm.min_le, hm.le_max⟩, ?_⟩
    rw [Nat.cast_sub hlm, sub_mul]
  · obtain ⟨l, hl⟩ := exists_eq_mul_zpow m (not_le.mp hexponent).le
    rw [hl] at hle htwice ⊢
    have hkl : k ≤ l := by exact_mod_cast (mul_le_mul_iff_left₀ (two_zpow_pos f)).mp hle
    rw [← mul_assoc] at htwice
    have hlk : l ≤ 2 * k := by exact_mod_cast (mul_le_mul_iff_left₀ (two_zpow_pos f)).mp htwice
    refine ⟨l - k, f, ⟨lt_of_le_of_lt (by omega) hk.lt_bound, hk.min_le, hk.le_max⟩, ?_⟩
    rw [Nat.cast_sub hkl, sub_mul]

section

variable {limit a b : Double}

/-- **A limit that the difference keeps is kept by the exact difference**, if the smaller number is
zero or beyond the limit itself. -/
theorem atLeast_of_lt_sub_eq_false (ha : a.IsFinite) (hb : b.IsFinite) (hpos : 0 ≤ b.value)
    (hle : b.value ≤ a.value) (hlimit : limit ≠ .nan)
    (hbeyond : b.value = 0 ∨ ¬ limit.AtLeast b.value) (h : limit.lt (a.sub b) = false) :
    limit.AtLeast (a.value - b.value) := by
  obtain ⟨m, e, hm, hma⟩ := ha.exists_fits (hpos.trans hle)
  obtain ⟨k, f, hk, hkb⟩ := hb.exists_fits hpos
  by_contra hpassed
  have hexact : ∀ {n g}, Fits n g → a.value - b.value = n * 2 ^ g → False := by
    intro n g hn hdiff
    have hsub := (sub_between ha hb hle hn).1 hdiff.ge
    rw [← hdiff] at hsub
    exact absurd (hsub.lt_of_not hlimit hpassed) (Bool.eq_false_iff.mp h)
  rcases hbeyond with hzero | hbeyond
  · exact hexact hm (by rw [hzero, sub_zero, hma])
  · by_cases htwice : a.value ≤ 2 * b.value
    · rw [hma, hkb] at hexact htwice hle
      obtain ⟨n, g, hn, hdiff⟩ := exists_fits_sub hm hk hle htwice
      exact hexact hn hdiff
    · -- The difference is greater than the smaller number, which is beyond the limit.
      have hsub := (sub_between ha hb hle hk).1 (by rw [← hkb]; linarith)
      rw [← hkb] at hsub
      exact absurd (hsub.lt_of_not hlimit hbeyond) (Bool.eq_false_iff.mp h)

/-- A number whose difference passes a limit is itself beyond the limit. -/
theorem not_atLeast_of_lt_sub (ha : a.IsFinite) (hb : b.IsFinite) (hpos : 0 ≤ b.value)
    (hle : b.value ≤ a.value) (h : limit.lt (a.sub b) = true) : ¬ limit.AtLeast a.value := by
  obtain ⟨m, e, hm, hma⟩ := ha.exists_fits (hpos.trans hle)
  intro hlimit
  have hsub := (sub_between ha hb hle hm).2 (by rw [← hma]; linarith)
  rw [← hma] at hsub
  exact absurd (hlimit.lt_eq_false hsub) (by rw [h]; decide)

end

end Double

end PhpMigration
