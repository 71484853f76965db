import ShapeGeometry.Proofs.Binary64.Nearest
import ShapeGeometry.Proofs.Decimal.Positional

namespace ShapeGeometry.Decimal

open Binary64

theorem digits_length_pos (n : Nat) : 0 < (digits n).length :=
  List.length_pos_iff.mpr Nat.toDigits_ne_nil

theorem lt_pow_digits_length (n : Nat) : n < 10 ^ (digits n).length :=
  (Nat.length_toDigits_le_iff (by omega) (digits_length_pos n)).mp le_rfl

theorem pow_digits_length_le {n : Nat} (h : 0 < n) : 10 ^ ((digits n).length - 1) ≤ n := by
  rcases (Nat.succ_le_of_lt (digits_length_pos n)).eq_or_lt with hone | hlt
  · rw [← hone]
    exact h
  · by_contra hn
    have hle := (Nat.length_toDigits_le_iff (by omega) (by omega)).mpr (not_le.mp hn)
    simp only [digits] at hle hlt
    omega

/-- The integer logarithm of a ratio is read off its integer part, or below one off that of its inverse. -/
theorem leadingExponent_eq {num den : Nat} (hn : 0 < num) (hd : 0 < den) :
    leadingExponent num den = Int.log 10 ((num : Rat) / den) := by
  have hratio : (0 : Rat) < num / den := by positivity
  have hnum : (0 : Rat) < num := by exact_mod_cast hn
  have hden : (0 : Rat) < den := by exact_mod_cast hd
  have hten : 1 < 10 := by norm_num
  symm
  rw [leadingExponent]
  split
  · next hle =>
    have hquotient : 0 < num / den := Nat.div_pos hle hd
    have hlow := (Nat.le_div_iff_mul_le hd).mp (pow_digits_length_le hquotient)
    have hhigh := (Nat.div_lt_iff_lt_mul hd).mp (lt_pow_digits_length (num / den))
    obtain ⟨k, hk⟩ := Nat.exists_eq_succ_of_ne_zero (digits_length_pos (num / den)).ne'
    rw [hk] at hlow hhigh ⊢
    have hexponent : ((k.succ : Nat) : Int) - 1 = k := by omega
    rw [hexponent]
    apply log_eq hten hratio
    · rw [zpow_natCast, le_div_iff₀ hden]
      exact_mod_cast hlow
    · rw [div_lt_iff₀ hden]
      exact_mod_cast hhigh
  · next hlt =>
    have hinverse : 0 < (den - 1) / num := Nat.div_pos (by omega) hn
    have hlow := (Nat.le_div_iff_mul_le hn).mp (pow_digits_length_le hinverse)
    have hhigh := (Nat.div_lt_iff_lt_mul hn).mp (lt_pow_digits_length ((den - 1) / num))
    obtain ⟨k, hk⟩ := Nat.exists_eq_succ_of_ne_zero (digits_length_pos ((den - 1) / num)).ne'
    rw [hk] at hlow hhigh ⊢
    have hexponent : -((k.succ : Nat) : Int) + 1 = -(k : Int) := by omega
    apply log_eq hten hratio
    · rw [zpow_neg, zpow_natCast, inv_le_iff_one_le_mul₀ (by positivity), div_mul_eq_mul_div,
        le_div_iff₀ hden, one_mul, mul_comm (num : Rat)]
      have hscaled : den ≤ 10 ^ k.succ * num := by omega
      exact_mod_cast hscaled
    · rw [hexponent, zpow_neg, zpow_natCast, lt_inv_comm₀ hratio (by positivity), inv_div, lt_div_iff₀ hnum]
      have hscaled : 10 ^ k * num < den := by
        rw [Nat.succ_sub_one] at hlow
        omega
      exact_mod_cast hscaled

end ShapeGeometry.Decimal
