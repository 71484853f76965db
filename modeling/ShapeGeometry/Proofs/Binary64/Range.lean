import ShapeGeometry.Proofs.Binary64.Rounding

namespace ShapeGeometry

theorem le_roundHalfEven (num den : Nat) : num / den ≤ roundHalfEven num den := by
  simp only [roundHalfEven]
  split
  · omega
  split
  · omega
  · omega

theorem roundHalfEven_le (num den : Nat) : roundHalfEven num den ≤ num / den + 1 := by
  simp only [roundHalfEven]
  split
  · omega
  split
  · omega
  · omega

/-- An even bound is reached from half a unit below it on. -/
theorem le_roundHalfEven_iff {num den k : Nat} (hd : 0 < den) (hk : k % 2 = 0) :
    k ≤ roundHalfEven num den ↔ 2 * (k * den) ≤ 2 * num + den := by
  have hdiv := Nat.div_add_mod num den
  have hmod := Nat.mod_lt num hd
  have hl := le_roundHalfEven num den
  have hu := roundHalfEven_le num den
  rcases Nat.lt_trichotomy (num / den + 1) k with h | h | h
  · have hmul : (num / den + 2) * den ≤ k * den := Nat.mul_le_mul_right den h
    rw [Nat.add_mul, Nat.mul_comm (num / den)] at hmul
    omega
  · subst h
    simp only [roundHalfEven]
    rw [Nat.add_mul, Nat.mul_comm (num / den)]
    split
    · omega
    split
    · omega
    · omega
  · have hmul : k * den ≤ num / den * den := Nat.mul_le_mul_right den (by omega)
    rw [Nat.mul_comm (num / den)] at hmul
    omega

namespace Binary64

/-- Half a unit beyond the largest number. -/
def overflowBound : Nat :=
  (2 ^ 54 - 1) * 2 ^ 970

/-- The bound stands in the last binade below infinity. -/
theorem overflowBound_bounds :
    (2 : Rat) ^ (1023 : Int) ≤ overflowBound ∧ (overflowBound : Rat) ≤ 2 ^ (1024 : Int) := by
  have hpow : ∀ k : Nat, (2 : Rat) ^ ((k + 970 : Nat) : Int) = ((2 ^ k * 2 ^ 970 : Nat) : Rat) := by
    intro k
    rw [zpow_natCast, pow_add, Nat.cast_mul, Nat.cast_pow, Nat.cast_pow, Nat.cast_ofNat]
  have hl : (1023 : Int) = ((53 + 970 : Nat) : Int) := rfl
  have hu : (1024 : Int) = ((54 + 970 : Nat) : Int) := rfl
  rw [hl, hu, hpow, hpow, overflowBound, Nat.cast_le, Nat.cast_le]
  constructor
  · exact Nat.mul_le_mul_right _ (by omega)
  · exact Nat.mul_le_mul_right _ (by omega)

section Ratio

variable {num den : Nat}

/-- The significand that a ratio is rounded to, at the exponent `e`. -/
theorem significand_le (hd : 0 < den) {e : Int} (h : (num : Rat) / den < 2 ^ (e + 53)) :
    roundHalfEven (num <<< (-e).toNat) (den <<< e.toNat) ≤ 2 ^ 53 := by
  have hpow : (2 : Rat) ^ (e + 53) = ((2 ^ 53 : Nat) : Rat) * 2 ^ e := by
    rw [zpow_add₀ (by norm_num), mul_comm]
    norm_num
  have hden : 0 < den <<< e.toNat := by
    rw [Nat.shiftLeft_eq]
    positivity
  rw [hpow, ← not_le, ← mul_shiftLeft_le_iff hd, Nat.not_le] at h
  have hdiv := (Nat.div_lt_iff_lt_mul hden).mpr h
  have hround := roundHalfEven_le (num <<< (-e).toNat) (den <<< e.toNat)
  omega

theorem le_significand (hd : 0 < den) {e : Int} (h : 2 ^ (e + 52) ≤ (num : Rat) / den) :
    2 ^ 52 ≤ roundHalfEven (num <<< (-e).toNat) (den <<< e.toNat) := by
  have hpow : (2 : Rat) ^ (e + 52) = ((2 ^ 52 : Nat) : Rat) * 2 ^ e := by
    rw [zpow_add₀ (by norm_num), mul_comm]
    norm_num
  have hden : 0 < den <<< e.toNat := by
    rw [Nat.shiftLeft_eq]
    positivity
  rw [hpow, ← mul_shiftLeft_le_iff hd] at h
  have hdiv := (Nat.le_div_iff_mul_le hden).mpr h
  exact Nat.le_trans hdiv (le_roundHalfEven _ _)

/-- In the last binade below infinity the significand decides. -/
theorem infinityBits_le_iff_of_top (hd : 0 < den) :
    infinityBits ≤ 2045 <<< 52 + roundHalfEven num (den <<< 971)
      ↔ (overflowBound : Rat) ≤ (num : Rat) / den := by
  have hden : 0 < den <<< 971 := by
    rw [Nat.shiftLeft_eq]
    positivity
  have hrat : (overflowBound : Rat) ≤ (num : Rat) / den ↔ overflowBound * den ≤ num := by
    rw [le_div_iff₀ (by exact_mod_cast hd)]
    exact_mod_cast Iff.rfl
  have hround := @le_roundHalfEven_iff num (den <<< 971) (2 ^ 53) hden (by omega)
  have hshift : den <<< 971 = 2 * den <<< 970 := Nat.shiftLeft_succ den 970
  have hbound : overflowBound * den = (2 ^ 54 - 1) * den <<< 970 := by
    rw [overflowBound, Nat.shiftLeft_eq, Nat.mul_assoc, Nat.mul_comm den]
  rw [hrat, hbound]
  rw [hshift] at hround ⊢
  rw [infinityBits]
  generalize den <<< 970 = unit at *
  generalize roundHalfEven num (2 * unit) = significand at *
  omega

/-- A ratio is rounded to infinity from the bound on. -/
theorem infinityBits_le_iff (hn : 0 < num) (hd : 0 < den) :
    infinityBits ≤ magnitudeBits num den ↔ (overflowBound : Rat) ≤ (num : Rat) / den := by
  have hratio : (0 : Rat) < (num : Rat) / den := by positivity
  have hl := Int.zpow_log_le_self Nat.one_lt_two hratio
  have hu := Int.lt_zpow_succ_log_self Nat.one_lt_two ((num : Rat) / den)
  have hone : (1 : Rat) ≤ 2 := by norm_num
  simp only [magnitudeBits, if_neg (Nat.ne_of_gt hn), exponentOfRatio_eq hn hd, minExponent]
  generalize Int.log 2 ((num : Rat) / den) = t at *
  rw [Nat.cast_ofNat] at hl hu
  rcases lt_trichotomy t 1023 with ht | rfl | ht
  · have hsignificand := significand_le hd
      (hu.trans_le (zpow_le_zpow_right₀ hone (by omega : t + 1 ≤ max (-1074) (t - 52) + 53)))
    have hbound : (2 : Rat) ^ (t + 1) ≤ overflowBound :=
      (zpow_le_zpow_right₀ hone (by omega)).trans overflowBound_bounds.1
    refine iff_of_false ?_ (not_le.mpr (hu.trans_le hbound))
    rw [infinityBits]
    omega
  · exact infinityBits_le_iff_of_top hd
  · have he : max (-1074) (t - 52) = t - 52 := by omega
    have hsignificand := le_significand (e := t - 52) hd (by rwa [Int.sub_add_cancel])
    have hbound : (overflowBound : Rat) ≤ 2 ^ t :=
      overflowBound_bounds.2.trans (zpow_le_zpow_right₀ hone (by omega))
    refine iff_of_true ?_ (hbound.trans hl)
    rw [he, infinityBits]
    omega

end Ratio

end Binary64

/-- The value without its sign. -/
def Numeral.magnitude (n : Numeral) : Rat :=
  n.coefficient * 10 ^ n.exponent

theorem Numeral.magnitude_eq (n : Numeral) :
    n.magnitude = ((n.coefficient * Nat.pow 10 n.exponent.toNat : Nat) : Rat)
      / (Nat.pow 10 (-n.exponent).toNat : Nat) := by
  rw [magnitude, Binary64.zpow_toNat, ← mul_div_assoc]
  simp only [Nat.pow_eq, Nat.cast_mul, Nat.cast_pow, Nat.cast_ofNat]

namespace Binary64

theorem overflowBound_pos : (0 : Rat) < overflowBound :=
  lt_of_lt_of_le (by positivity) overflowBound_bounds.1

/-- Three hundred and nine places are more than a thousand and twenty-four bits, since twenty-eight are
more than ninety-three. -/
theorem two_zpow_le_ten_zpow : (2 : Rat) ^ (1024 : Int) ≤ 10 ^ (309 : Int) := by
  have hsplit : ∀ (base : Rat) (k : Nat),
      base ^ ((k * 11 + 1 : Nat) : Int) = (base ^ k) ^ 11 * base := by
    intro base k
    rw [zpow_natCast, pow_succ, pow_mul]
  have hstep : (2 : Rat) ^ 93 ≤ 10 ^ 28 := by norm_num
  have hpow := pow_le_pow_left₀ (by positivity) hstep 11
  calc (2 : Rat) ^ (1024 : Int) = (2 ^ 93) ^ 11 * 2 := hsplit 2 93
    _ ≤ (10 ^ 28) ^ 11 * 10 := mul_le_mul hpow (by norm_num) (by positivity) (by positivity)
    _ = 10 ^ (309 : Int) := (hsplit 10 28).symm

/-- Powers of ten beyond those of the largest number. -/
theorem overflowBound_le_magnitude {n : Numeral} (hc : 0 < n.coefficient)
    (he : 308 < n.exponent) : (overflowBound : Rat) ≤ n.magnitude := by
  have hone : (1 : Rat) ≤ n.coefficient := by exact_mod_cast hc
  have hten : (1 : Rat) ≤ 10 := by norm_num
  calc (overflowBound : Rat) ≤ 2 ^ (1024 : Int) := overflowBound_bounds.2
    _ ≤ 10 ^ (309 : Int) := two_zpow_le_ten_zpow
    _ ≤ 10 ^ n.exponent := zpow_le_zpow_right₀ hten (by omega)
    _ ≤ n.coefficient * 10 ^ n.exponent := le_mul_of_one_le_left (by positivity) hone

/-- A power of ten below one is at most as many powers of eight. -/
theorem ten_zpow_le {t : Int} (h : t ≤ 0) : (10 : Rat) ^ t ≤ 2 ^ (3 * t) := by
  obtain ⟨k, hk⟩ := Int.eq_ofNat_of_zero_le (Int.neg_nonneg_of_nonpos h)
  have ht : t = -(k : Int) := by omega
  have hthree : 3 * t = -((3 * k : Nat) : Int) := by omega
  have hpow : (2 : Rat) ^ (3 * k) ≤ 10 ^ k := by
    rw [pow_mul]
    exact pow_le_pow_left₀ (by norm_num) (by norm_num) k
  rw [hthree, ht, zpow_neg, zpow_neg, zpow_natCast, zpow_natCast]
  exact inv_anti₀ (by positivity) hpow

/-- Numerals so small that they are zero. -/
theorem magnitude_lt_overflowBound {n : Numeral}
    (hl : (n.coefficient.log2 : Int) + 1076 ≤ 3 * -n.exponent) :
    n.magnitude < overflowBound := by
  have htwo : (2 : Rat) ≠ 0 := by norm_num
  have hone : (1 : Rat) ≤ 2 := by norm_num
  have hlt : (n.coefficient : Rat) < 2 ^ ((n.coefficient.log2 + 1 : Nat) : Int) := by
    rw [zpow_natCast]
    exact_mod_cast (Nat.lt_log2_self : n.coefficient < 2 ^ (n.coefficient.log2 + 1))
  calc n.magnitude ≤ n.coefficient * 2 ^ (3 * n.exponent) :=
        mul_le_mul_of_nonneg_left (ten_zpow_le (by omega)) (by positivity)
    _ < 2 ^ ((n.coefficient.log2 + 1 : Nat) : Int) * 2 ^ (3 * n.exponent) :=
        mul_lt_mul_of_pos_right hlt (by positivity)
    _ = 2 ^ (((n.coefficient.log2 + 1 : Nat) : Int) + 3 * n.exponent) := (zpow_add₀ htwo _ _).symm
    _ ≤ 2 ^ (1023 : Int) := zpow_le_zpow_right₀ hone (by omega)
    _ ≤ overflowBound := overflowBound_bounds.1

/-- A numeral is out of range from the bound on. -/
theorem ofNumeral?_eq_none_iff (n : Numeral) :
    ofNumeral? n = none ↔ (overflowBound : Rat) ≤ n.magnitude := by
  unfold ofNumeral?
  split
  · next hc =>
    have hzero : n.magnitude = 0 := by
      rw [Numeral.magnitude, hc, Nat.cast_zero, zero_mul]
    rw [hzero]
    exact iff_of_false (Option.some_ne_none _) (not_le.mpr overflowBound_pos)
  next hc =>
  split
  · next he => exact iff_of_true rfl (overflowBound_le_magnitude (Nat.pos_of_ne_zero hc) he)
  split
  · next hl => exact iff_of_false (Option.some_ne_none _) (not_le.mpr (magnitude_lt_overflowBound hl))
  · have hnum : 0 < n.coefficient * Nat.pow 10 n.exponent.toNat :=
      Nat.mul_pos (Nat.pos_of_ne_zero hc) (Nat.pow_pos (by omega))
    have hden : 0 < Nat.pow 10 (-n.exponent).toNat := Nat.pow_pos (by omega)
    rw [n.magnitude_eq, ← infinityBits_le_iff hnum hden]
    simp only [ofRatio?]
    split
    · next h => exact iff_of_false (Option.some_ne_none _) (Nat.not_le.mpr h)
    · next h => exact iff_of_true rfl (Nat.not_lt.mp h)

end Binary64

end ShapeGeometry
