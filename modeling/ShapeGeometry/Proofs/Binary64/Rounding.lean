import Mathlib.Algebra.Order.Field.Power
import Mathlib.Data.Int.Log
import Mathlib.Data.Rat.Floor
import Mathlib.Tactic.NormNum
import Mathlib.Tactic.Positivity
import ShapeGeometry.Proofs.Binary64.Bits

namespace ShapeGeometry.Binary64

/-- A power as the quotient of two whole ones, of which one is `1`. -/
theorem zpow_toNat (base : Rat) (t : Int) : base ^ t = base ^ t.toNat / base ^ (-t).toNat := by
  rcases Int.le_total 0 t with h | h
  · obtain ⟨n, rfl⟩ := Int.eq_ofNat_of_zero_le h
    simp
  · obtain ⟨n, hn⟩ := Int.eq_ofNat_of_zero_le (Int.neg_nonneg_of_nonpos h)
    have ht : t = -(n : Int) := by omega
    subst ht
    simp

/-- Shifting is scaling. -/
theorem mul_shiftLeft_le_iff {num den : Nat} (hd : 0 < den) (k : Nat) (t : Int) :
    k * den <<< t.toNat ≤ num <<< (-t).toNat ↔ (k : Rat) * 2 ^ t ≤ num / den := by
  have hden : (0 : Rat) < den := by exact_mod_cast hd
  have hpow : (0 : Rat) < 2 ^ (-t).toNat := by positivity
  rw [zpow_toNat, ← mul_div_assoc, div_le_div_iff₀ hpow hden, Nat.shiftLeft_eq, Nat.shiftLeft_eq]
  rw [mul_comm den, ← mul_assoc]
  exact_mod_cast Iff.rfl

theorem ratio_bounds {num den : Nat} (hn : 0 < num) (hd : 0 < den) :
    (2 : Rat) ^ ((num.log2 : Int) - den.log2 - 1) ≤ num / den
      ∧ (num : Rat) / den < 2 ^ ((num.log2 : Int) - den.log2 + 1) := by
  have hden : (0 : Rat) < den := by exact_mod_cast hd
  have hnl : ((2 ^ num.log2 : Nat) : Rat) ≤ num :=
    Nat.cast_le.mpr (Nat.log2_self_le (Nat.ne_of_gt hn))
  have hdl : ((2 ^ den.log2 : Nat) : Rat) ≤ den :=
    Nat.cast_le.mpr (Nat.log2_self_le (Nat.ne_of_gt hd))
  have hnu : (num : Rat) < ((2 ^ (num.log2 + 1) : Nat) : Rat) :=
    Nat.cast_lt.mpr Nat.lt_log2_self
  have hdu : (den : Rat) < ((2 ^ (den.log2 + 1) : Nat) : Rat) :=
    Nat.cast_lt.mpr Nat.lt_log2_self
  push_cast at hnl hdl hnu hdu
  have htwo : (2 : Rat) ≠ 0 := by norm_num
  constructor
  · have hsub : (num.log2 : Int) - den.log2 - 1 = num.log2 - ((den.log2 + 1 : Nat) : Int) := by
      omega
    rw [hsub, zpow_sub₀ htwo, zpow_natCast, zpow_natCast]
    exact div_le_div₀ (by positivity) hnl hden hdu.le
  · have hadd : (num.log2 : Int) - den.log2 + 1 = ((num.log2 + 1 : Nat) : Int) - den.log2 := by
      omega
    rw [hadd, zpow_sub₀ htwo, zpow_natCast, zpow_natCast]
    exact div_lt_div₀ hnu hdl (by positivity) (by positivity)

/-- Between two powers that follow each other the logarithm is that of the lower one. -/
theorem log_eq {base : Nat} (hb : 1 < base) {value : Rat} (hv : 0 < value) {t : Int}
    (hl : (base : Rat) ^ t ≤ value) (hu : value < (base : Rat) ^ (t + 1)) : Int.log base value = t := by
  have hge := (Int.zpow_le_iff_le_log hb hv).mp hl
  have hlt := (Int.lt_zpow_iff_log_lt hb hv).mp hu
  omega

/-- The exponent of a ratio is read off the power of two that it reaches. -/
theorem exponentOfRatio_eq {num den : Nat} (hn : 0 < num) (hd : 0 < den) :
    exponentOfRatio num den = max minExponent (Int.log 2 ((num : Rat) / den) - 52) := by
  have hratio : (0 : Rat) < (num : Rat) / den := by positivity
  obtain ⟨hl, hu⟩ := ratio_bounds hn hd
  simp only [exponentOfRatio]
  generalize (num.log2 : Int) - den.log2 = top at *
  have hreached := @mul_shiftLeft_le_iff num den hd 1 top
  rw [Nat.one_mul, Nat.cast_one, one_mul] at hreached
  split
  · next h =>
    rw [log_eq Nat.one_lt_two hratio (mod_cast hreached.mp h) (mod_cast hu)]
  · next h =>
    have hlt : (num : Rat) / den < 2 ^ top := not_le.mp (mt hreached.mpr h)
    have htop : top - 1 + 1 = top := Int.sub_add_cancel top 1
    rw [log_eq Nat.one_lt_two hratio (mod_cast hl) (by rw [htop]; exact_mod_cast hlt)]
    congr 1
    omega

theorem log_scaled {significand : Nat} (hs : 0 < significand) (exponent : Int) :
    Int.log 2 ((significand : Rat) * 2 ^ exponent) = significand.log2 + exponent := by
  have hl : ((2 ^ significand.log2 : Nat) : Rat) ≤ significand :=
    Nat.cast_le.mpr (Nat.log2_self_le (Nat.ne_of_gt hs))
  have hu : (significand : Rat) < ((2 ^ (significand.log2 + 1) : Nat) : Rat) :=
    Nat.cast_lt.mpr Nat.lt_log2_self
  push_cast at hl hu
  have hpow : (0 : Rat) < 2 ^ exponent := by positivity
  have htwo : (2 : Rat) ≠ 0 := by norm_num
  apply log_eq Nat.one_lt_two (by positivity)
  · rw [Nat.cast_ofNat, zpow_add₀ htwo, zpow_natCast]
    exact mul_le_mul_of_nonneg_right hl hpow.le
  · have hsum : (significand.log2 : Int) + exponent + 1
        = ((significand.log2 + 1 : Nat) : Int) + exponent := by
      omega
    rw [Nat.cast_ofNat, hsum, zpow_add₀ htwo, zpow_natCast]
    exact mul_lt_mul_of_pos_right hu hpow

theorem Fields.Canonical.max_exponent {v : Fields} (h : v.Canonical) (hs : 0 < v.significand) :
    max minExponent ((v.significand.log2 : Int) + v.exponent - 52) = v.exponent := by
  have hle := h.le_exponent
  rcases h.normal with hn | he
  · have hlog : v.significand.log2 = 52 := by
      rw [Nat.log2_eq_iff (Nat.ne_of_gt hs)]
      exact ⟨hn, h.significand_lt⟩
    omega
  · have hlog : v.significand.log2 < 53 :=
      (Nat.log2_lt (Nat.ne_of_gt hs)).mpr h.significand_lt
    omega

theorem num_pos_of_ratio {num den : Nat} {value : Rat} (hv : 0 < value) (h : (num : Rat) / den = value) :
    0 < num := by
  apply Nat.pos_of_ne_zero
  rintro rfl
  rw [Nat.cast_zero, zero_div] at h
  exact hv.ne h

section Exact

/-! A ratio that is the value of canonical fields. -/

variable {v : Fields} {num den : Nat}

theorem exponentOfRatio_exact (h : v.Canonical) (hs : 0 < v.significand) (hd : 0 < den)
    (hr : (num : Rat) / den = v.significand * 2 ^ v.exponent) :
    exponentOfRatio num den = v.exponent := by
  rw [exponentOfRatio_eq (num_pos_of_ratio (by positivity) hr) hd, hr, log_scaled hs, h.max_exponent hs]

/-- Nothing is left to round. -/
theorem shifted_exact (hd : 0 < den)
    (hr : (num : Rat) / den = v.significand * 2 ^ v.exponent) :
    num <<< (-v.exponent).toNat = v.significand * den <<< v.exponent.toNat := by
  have hden : (den : Rat) ≠ 0 := by positivity
  have hpow : (2 : Rat) ^ (-v.exponent).toNat ≠ 0 := by positivity
  rw [zpow_toNat, ← mul_div_assoc, div_eq_div_iff hden hpow] at hr
  have hnat : num * 2 ^ (-v.exponent).toNat = v.significand * 2 ^ v.exponent.toNat * den := by
    exact_mod_cast hr
  rw [Nat.shiftLeft_eq, Nat.shiftLeft_eq, hnat, mul_assoc, mul_comm den]

theorem magnitudeBits_exact (h : v.Canonical) (hs : 0 < v.significand) (hd : 0 < den)
    (hr : (num : Rat) / den = v.significand * 2 ^ v.exponent) : magnitudeBits num den = v.magnitude := by
  have hden : 0 < den <<< v.exponent.toNat := by
    rw [Nat.shiftLeft_eq]
    positivity
  have hnum : num ≠ 0 := (num_pos_of_ratio (by positivity) hr).ne'
  simp only [magnitudeBits, if_neg hnum, exponentOfRatio_exact h hs hd hr, shifted_exact hd hr,
    roundHalfEven_mul v.significand hden, Fields.magnitude]

/-- The number nearest to a ratio that is a number is that number. -/
theorem ofRatio?_exact (h : v.Canonical) (hs : 0 < v.significand) (hd : 0 < den)
    (hr : (num : Rat) / den = v.significand * 2 ^ v.exponent) :
    ofRatio? v.negative num den = some (ofMagnitudeBits v.negative v.magnitude) := by
  simp only [ofRatio?, magnitudeBits_exact h hs hd hr, if_pos h.magnitude_lt]

end Exact

end ShapeGeometry.Binary64
