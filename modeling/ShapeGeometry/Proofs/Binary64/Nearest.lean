import ShapeGeometry.Proofs.Binary64.Range
import ShapeGeometry.Proofs.Decimal.Nearest

namespace ShapeGeometry.Binary64

/-- The value of the number. -/
def Fields.value (v : Fields) : Rat :=
  (if v.negative then -1 else 1) * (v.significand * 2 ^ v.exponent)

theorem Fields.abs_value (v : Fields) : |v.value| = v.significand * 2 ^ v.exponent := by
  have hpos : (0 : Rat) ≤ v.significand * 2 ^ v.exponent := by positivity
  rw [value]
  split
  · rw [neg_one_mul, abs_neg, abs_of_nonneg hpos]
  · rw [one_mul, abs_of_nonneg hpos]

theorem Fields.value_eq (v : Fields) : v.value = (if v.negative then -1 else 1) * |v.value| := by
  rw [abs_value, value]

theorem Fields.denominator_pos (v : Fields) : 0 < v.denominator := by
  simp only [denominator, Nat.shiftLeft_eq]
  positivity

theorem Fields.abs_value_eq_ratio (v : Fields) : |v.value| = (v.numerator : Rat) / v.denominator := by
  rw [abs_value, numerator, denominator, zpow_toNat, Nat.shiftLeft_eq, Nat.shiftLeft_eq]
  push_cast
  rw [one_mul, mul_div_assoc]

theorem Fields.numerator_pos_iff {v : Fields} : 0 < v.numerator ↔ v.value ≠ 0 := by
  have hden : (0 : Rat) < v.denominator := by exact_mod_cast v.denominator_pos
  rw [← abs_pos, abs_value_eq_ratio, div_pos_iff_of_pos_right hden, Nat.cast_pos]

section Ratio

variable {num den : Nat}

/-- The ratio in units of `2 ^ e`. -/
theorem shifted_ratio (num den : Nat) (e : Int) :
    ((num <<< (-e).toNat : Nat) : Rat) / (den <<< e.toNat : Nat) = num / den / 2 ^ e := by
  rw [zpow_toNat, Nat.shiftLeft_eq, Nat.shiftLeft_eq]
  push_cast
  rw [div_div_div_eq]

theorem exponentOfRatio_bounds (hn : 0 < num) (hd : 0 < den) :
    let e := exponentOfRatio num den
    (num : Rat) / den < 2 ^ (e + 53) ∧ minExponent ≤ e
      ∧ (e = minExponent ∨ 2 ^ (e + 52) ≤ (num : Rat) / den) := by
  have hratio : (0 : Rat) < num / den := by positivity
  have hl := Int.zpow_log_le_self Nat.one_lt_two hratio
  have hu := Int.lt_zpow_succ_log_self Nat.one_lt_two ((num : Rat) / den)
  have hone : (1 : Rat) ≤ 2 := by norm_num
  rw [exponentOfRatio_eq hn hd]
  generalize Int.log 2 ((num : Rat) / den) = t at *
  rw [Nat.cast_ofNat] at hl hu
  refine ⟨hu.trans_le (zpow_le_zpow_right₀ hone (by omega)), by omega, ?_⟩
  rcases le_or_gt (t - 52) minExponent with ht | ht
  · exact .inl (max_eq_left ht)
  · right
    rwa [max_eq_right ht.le, Int.sub_add_cancel]

/-- The significand that a ratio is rounded to. -/
def significandOfRatio (num den : Nat) : Nat :=
  let e := exponentOfRatio num den
  roundHalfEven (num <<< (-e).toNat) (den <<< e.toNat)

theorem significandOfRatio_bounds (hn : 0 < num) (hd : 0 < den) :
    significandOfRatio num den ≤ 2 ^ 53
      ∧ (exponentOfRatio num den = minExponent ∨ 2 ^ 52 ≤ significandOfRatio num den) := by
  obtain ⟨hu, -, hl⟩ := exponentOfRatio_bounds hn hd
  exact ⟨significand_le hd hu, hl.imp_right (le_significand hd)⟩

theorem magnitudeBits_eq (hn : 0 < num) :
    magnitudeBits num den
      = (exponentOfRatio num den - minExponent).toNat <<< 52 + significandOfRatio num den := by
  rw [magnitudeBits, if_neg hn.ne']
  rfl

/-- A ratio in range is rounded to the number whose significand is the ratio in units of the last place,
rounded. Where that is `2 ^ 53` the number has the next exponent. -/
theorem exists_fields (hn : 0 < num) (hd : 0 < den) (hfinite : magnitudeBits num den < infinityBits)
    (negative : Bool) :
    ∃ v : Fields, v.Canonical ∧ v.negative = negative ∧ v.magnitude = magnitudeBits num den
      ∧ |v.value| = significandOfRatio num den * 2 ^ exponentOfRatio num den := by
  obtain ⟨-, hmin, -⟩ := exponentOfRatio_bounds hn hd
  obtain ⟨hle, hnormal⟩ := significandOfRatio_bounds hn hd
  rw [magnitudeBits_eq hn] at hfinite ⊢
  generalize exponentOfRatio num den = e at *
  generalize significandOfRatio num den = s at *
  rw [infinityBits, minExponent, Nat.shiftLeft_eq, Nat.shiftLeft_eq] at hfinite
  rw [minExponent] at hmin hnormal
  rcases hle.lt_or_eq with hlt | rfl
  · refine ⟨⟨negative, s, e⟩, ⟨hlt, hmin, ?_, hnormal.symm⟩, rfl, rfl, Fields.abs_value _⟩
    dsimp only
    omega
  · refine ⟨⟨negative, 2 ^ 52, e + 1⟩, ⟨by norm_num, ?_, ?_, .inl le_rfl⟩, rfl, ?_, ?_⟩
    · rw [minExponent]
      dsimp only
      omega
    · dsimp only
      omega
    · rw [Fields.magnitude, minExponent, Nat.shiftLeft_eq, Nat.shiftLeft_eq]
      dsimp only
      omega
    · rw [Fields.abs_value]
      dsimp only
      rw [zpow_add_one₀ (by norm_num)]
      push_cast
      ring

/-- Rounding is off by at most half a unit of the last place. -/
theorem abs_significandOfRatio_sub_le (hd : 0 < den) :
    |(significandOfRatio num den : Rat) * 2 ^ exponentOfRatio num den - num / den|
      ≤ 2 ^ exponentOfRatio num den / 2 := by
  have hpow : (0 : Rat) < 2 ^ exponentOfRatio num den := by positivity
  have hden : 0 < den <<< (exponentOfRatio num den).toNat := by
    rw [Nat.shiftLeft_eq]
    positivity
  have hround := abs_roundHalfEven_sub_le (num <<< (-exponentOfRatio num den).toNat) hden
  rw [shifted_ratio] at hround
  calc |(significandOfRatio num den : Rat) * 2 ^ exponentOfRatio num den - num / den|
      = |(significandOfRatio num den : Rat) - num / den / 2 ^ exponentOfRatio num den|
          * 2 ^ exponentOfRatio num den := by
        rw [← abs_of_pos hpow, ← abs_mul, abs_of_pos hpow, sub_mul, div_mul_cancel₀ _ hpow.ne']
    _ ≤ 1 / 2 * 2 ^ exponentOfRatio num den := mul_le_mul_of_nonneg_right hround hpow.le
    _ = 2 ^ exponentOfRatio num den / 2 := by ring

/-- Above the subnormal numbers half a unit is one part in `2 ^ 53`. -/
theorem abs_significandOfRatio_sub_le_mul (hn : 0 < num) (hd : 0 < den)
    (hnormal : 2 ^ (-1022 : Int) ≤ (num : Rat) / den) :
    |(significandOfRatio num den : Rat) * 2 ^ exponentOfRatio num den - num / den|
      ≤ num / den * 2 ^ (-53 : Int) := by
  have htwo : (2 : Rat) ≠ 0 := by norm_num
  have hunit : (2 : Rat) ^ (exponentOfRatio num den + 52) ≤ num / den := by
    rcases (exponentOfRatio_bounds hn hd).2.2 with he | hle
    · rw [he, minExponent]
      exact hnormal
    · exact hle
  calc |(significandOfRatio num den : Rat) * 2 ^ exponentOfRatio num den - num / den|
      ≤ 2 ^ exponentOfRatio num den / 2 := abs_significandOfRatio_sub_le hd
    _ = 2 ^ (exponentOfRatio num den + 52) * 2 ^ (-53 : Int) := by
        rw [← zpow_add₀ htwo, div_eq_mul_inv, ← zpow_sub_one₀ htwo]
        congr 1
        ring
    _ ≤ num / den * 2 ^ (-53 : Int) := mul_le_mul_of_nonneg_right hunit (by positivity)

/-- Larger ratios have larger numbers. -/
theorem magnitudeBits_mono {num' den' : Nat} (hd : 0 < den) (hd' : 0 < den')
    (h : (num : Rat) / den ≤ num' / den') : magnitudeBits num den ≤ magnitudeBits num' den' := by
  rcases Nat.eq_zero_or_pos num with rfl | hn
  · exact Nat.zero_le _
  have hratio : (0 : Rat) < num / den := by positivity
  have hn' : 0 < num' := num_pos_of_ratio (hratio.trans_le h) rfl
  have hexponent : exponentOfRatio num den ≤ exponentOfRatio num' den' := by
    have hlog : Int.log 2 ((num : Rat) / den) ≤ Int.log 2 ((num' : Rat) / den') :=
      Int.log_mono_right hratio h
    rw [exponentOfRatio_eq hn hd, exponentOfRatio_eq hn' hd']
    omega
  obtain ⟨hle, -⟩ := significandOfRatio_bounds hn hd
  obtain ⟨-, hnormal'⟩ := significandOfRatio_bounds hn' hd'
  have hmin := (exponentOfRatio_bounds hn hd).2.1
  rw [magnitudeBits_eq hn, magnitudeBits_eq hn', Nat.shiftLeft_eq, Nat.shiftLeft_eq]
  rcases hexponent.lt_or_eq with hlt | heq
  · -- the larger number has an exponent to itself
    omega
  · have hshift {d : Nat} (hpos : 0 < d) : 0 < d <<< (exponentOfRatio num den).toNat := by
      rw [Nat.shiftLeft_eq]
      positivity
    have hround : significandOfRatio num den ≤ significandOfRatio num' den' := by
      rw [significandOfRatio, significandOfRatio, ← heq]
      apply roundHalfEven_mono (hshift hd) (hshift hd')
      rw [shifted_ratio, shifted_ratio]
      exact div_le_div_of_nonneg_right h (by positivity)
    rw [← heq]
    omega

end Ratio

end ShapeGeometry.Binary64
