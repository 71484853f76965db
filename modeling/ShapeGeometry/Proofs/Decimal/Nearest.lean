import Mathlib.Algebra.Order.Field.Power
import Mathlib.Data.Rat.Floor
import Mathlib.Tactic.Linarith
import Mathlib.Tactic.NormNum
import Mathlib.Tactic.Positivity
import ShapeGeometry.Decimal.Digits

namespace ShapeGeometry

section Ratio

variable {num den : Nat}

/-- The rounding is at most half a denominator away, and even where it is that far. -/
theorem roundHalfEven_bounds (num : Nat) (hd : 0 < den) :
    let rounded := roundHalfEven num den * den
    2 * rounded ≤ 2 * num + den ∧ 2 * num ≤ 2 * rounded + den
      ∧ (2 * rounded = 2 * num + den ∨ 2 * num = 2 * rounded + den → roundHalfEven num den % 2 = 0) := by
  have hdiv := Nat.div_add_mod num den
  have hmod := Nat.mod_lt num hd
  simp only [roundHalfEven]
  generalize num % den = rest at *
  generalize num / den = low at *
  rw [Nat.mul_comm den] at hdiv
  split
  · omega
  split
  · rw [Nat.add_mul]
    omega
  · rcases Nat.mod_two_eq_zero_or_one low with hparity | hparity
    · rw [hparity, Nat.add_zero]
      omega
    · rw [hparity, Nat.add_mul]
      omega

theorem abs_roundHalfEven_sub_le (num : Nat) (hd : 0 < den) :
    |(roundHalfEven num den : Rat) - num / den| ≤ 1 / 2 := by
  have hden : (0 : Rat) < den := by exact_mod_cast hd
  obtain ⟨hlow, hhigh, -⟩ := roundHalfEven_bounds num hd
  generalize roundHalfEven num den = rounded at *
  have hlow' : 2 * ((rounded : Rat) * den) ≤ 2 * num + den := by exact_mod_cast hlow
  have hhigh' : 2 * (num : Rat) ≤ 2 * (rounded * den) + den := by exact_mod_cast hhigh
  rw [abs_le, neg_le_sub_iff_le_add, sub_le_iff_le_add]
  constructor
  · rw [div_le_iff₀ hden]
    linarith
  · rw [← sub_le_iff_le_add', le_div_iff₀ hden]
    linarith

/-- A tie goes to an even neighbour. -/
theorem roundHalfEven_even (hd : 0 < den) (h : |(roundHalfEven num den : Rat) - num / den| = 1 / 2) :
    roundHalfEven num den % 2 = 0 := by
  have hden : (den : Rat) ≠ 0 := by positivity
  obtain ⟨-, -, heven⟩ := roundHalfEven_bounds num hd
  apply heven
  have hcancel : (num : Rat) / den * den = num := div_mul_cancel₀ _ hden
  rcases (abs_eq (by norm_num)).mp h with htie | htie
  · left
    have hscaled : 2 * ((roundHalfEven num den : Rat) * den) = 2 * num + den := by
      rw [sub_eq_iff_eq_add.mp htie, add_mul, hcancel]
      ring
    exact_mod_cast hscaled
  · right
    have hscaled : 2 * (num : Rat) = 2 * (roundHalfEven num den * den) + den := by
      rw [sub_eq_iff_eq_add.mp htie, add_mul, hcancel]
      ring
    exact_mod_cast hscaled

/-- An integer that is less than half away is the rounding. -/
theorem roundHalfEven_eq (hd : 0 < den) {n : Nat} (h : |(n : Rat) - num / den| < 1 / 2) :
    roundHalfEven num den = n := by
  have hround := abs_roundHalfEven_sub_le num hd
  have hdistance : |(roundHalfEven num den : Rat) - n| < 1 := by
    calc |(roundHalfEven num den : Rat) - n|
        ≤ |(roundHalfEven num den : Rat) - num / den| + |(num / den : Rat) - n| := abs_sub_le _ _ _
      _ < 1 / 2 + 1 / 2 := by
        rw [abs_sub_comm (num / den : Rat)]
        exact add_lt_add_of_le_of_lt hround h
      _ = 1 := by norm_num
  have hint : |(roundHalfEven num den : Int) - n| < 1 := by exact_mod_cast hdistance
  have := Int.abs_lt_one_iff.mp hint
  omega

theorem roundHalfEven_mono {num' den' : Nat} (hd : 0 < den) (hd' : 0 < den')
    (h : (num : Rat) / den ≤ num' / den') : roundHalfEven num den ≤ roundHalfEven num' den' := by
  by_contra hlt
  have hcast : (roundHalfEven num' den' : Rat) + 1 ≤ roundHalfEven num den := by
    exact_mod_cast Nat.not_le.mp hlt
  have hfirst := abs_le.mp (abs_roundHalfEven_sub_le num hd)
  have hsecond := abs_le.mp (abs_roundHalfEven_sub_le num' hd')
  -- both are ties, and neighbours are not both even
  have htie : (roundHalfEven num den : Rat) - num / den = 1 / 2 := by linarith
  have htie' : (roundHalfEven num' den' : Rat) - num' / den' = -(1 / 2) := by linarith
  have heven := roundHalfEven_even hd ((abs_eq (by norm_num)).mpr (.inl htie))
  have heven' := roundHalfEven_even hd' ((abs_eq (by norm_num)).mpr (.inr htie'))
  have hnext : (roundHalfEven num den : Rat) = (roundHalfEven num' den' + 1 : Nat) := by
    push_cast
    linarith
  have hnat : roundHalfEven num den = roundHalfEven num' den' + 1 := by exact_mod_cast hnext
  omega

theorem roundHalfEven_le_of_le (hd : 0 < den) {n : Nat} (h : (num : Rat) / den ≤ n) :
    roundHalfEven num den ≤ n := by
  rw [← roundHalfEven_one n]
  exact roundHalfEven_mono hd Nat.one_pos (by simpa using h)

theorem le_roundHalfEven_of_le (hd : 0 < den) {n : Nat} (h : (n : Rat) ≤ num / den) :
    n ≤ roundHalfEven num den := by
  rw [← roundHalfEven_one n]
  exact roundHalfEven_mono Nat.one_pos hd (by simpa using h)

end Ratio

end ShapeGeometry
