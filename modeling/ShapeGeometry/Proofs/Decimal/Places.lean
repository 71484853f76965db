import ShapeGeometry.Proofs.Decimal.Exponent
import ShapeGeometry.Proofs.Decimal.Plain

namespace ShapeGeometry.Decimal

open Binary64

/-- The magnitude, rounded to some places. -/
def rounded (v : Fields) (places : Nat) : Rat :=
  roundToPlaces v places / 10 ^ places

variable {u v : Fields} {places : Nat}

theorem ratio_in_units (v : Fields) (places : Nat) :
    ((v.numerator * Nat.pow 10 places : Nat) : Rat) / v.denominator = |v.value| * 10 ^ places := by
  rw [v.abs_value_eq_ratio]
  push_cast [Nat.pow_eq]
  ring

theorem rounded_nonneg (v : Fields) (places : Nat) : 0 ≤ rounded v places := by
  rw [rounded]
  positivity

/-- The rounding is at most half a unit of the last place away. -/
theorem abs_rounded_sub_le (v : Fields) (places : Nat) :
    |(rounded v places - |v.value|)| ≤ 1 / 10 ^ places / 2 := by
  have hunit : (0 : Rat) < 10 ^ places := by positivity
  have hround := abs_roundHalfEven_sub_le (v.numerator * Nat.pow 10 places) v.denominator_pos
  rw [ratio_in_units] at hround
  calc |(rounded v places - |v.value|)|
      = |((roundToPlaces v places : Rat) - |v.value| * 10 ^ places) / 10 ^ places| := by
        rw [sub_div, mul_div_cancel_right₀ _ hunit.ne', rounded]
    _ = |(roundToPlaces v places : Rat) - |v.value| * 10 ^ places| / 10 ^ places := by
        rw [abs_div, abs_of_pos hunit]
    _ ≤ 1 / 2 / 10 ^ places := div_le_div_of_nonneg_right hround hunit.le
    _ = 1 / 10 ^ places / 2 := div_right_comm _ _ _

theorem rounded_mono (h : |u.value| ≤ |v.value|) (places : Nat) : rounded u places ≤ rounded v places := by
  have hround : roundToPlaces u places ≤ roundToPlaces v places := by
    apply roundHalfEven_mono u.denominator_pos v.denominator_pos
    rw [ratio_in_units, ratio_in_units]
    exact mul_le_mul_of_nonneg_right h (by positivity)
  exact div_le_div_of_nonneg_right (by exact_mod_cast hround) (by positivity)

/-- A decimal with as many places that is less than half a unit away is the rounding. -/
theorem rounded_eq {n : Nat} (h : |((n : Rat) / 10 ^ places - |v.value|)| < 1 / 10 ^ places / 2) :
    rounded v places = n / 10 ^ places := by
  have hunit : (0 : Rat) < 10 ^ places := by positivity
  have hround : roundToPlaces v places = n := by
    apply roundHalfEven_eq v.denominator_pos
    rw [ratio_in_units]
    calc |(n : Rat) - |v.value| * 10 ^ places|
        = |((n : Rat) / 10 ^ places - |v.value|) * 10 ^ places| := by rw [sub_mul, div_mul_cancel₀ _ hunit.ne']
      _ = |((n : Rat) / 10 ^ places - |v.value|)| * 10 ^ places := by rw [abs_mul, abs_of_pos hunit]
      _ < 1 / 10 ^ places / 2 * 10 ^ places := mul_lt_mul_of_pos_right h hunit
      _ = 1 / 2 := by field_simp
  rw [rounded, hround]

section Power

/-! Powers of ten that are among the decimals with so many places. -/

variable {k : Int}

theorem exists_units (hk : -(places : Int) ≤ k) : ∃ n : Nat, (n : Rat) / 10 ^ places = 10 ^ k := by
  refine ⟨10 ^ (k + places).toNat, ?_⟩
  have hten : (10 : Rat) ≠ 0 := by norm_num
  have htoNat : ((k + places).toNat : Int) = k + places := Int.toNat_of_nonneg (by omega)
  rw [div_eq_iff (by positivity), Nat.cast_pow, Nat.cast_ofNat, ← zpow_natCast, htoNat, zpow_add₀ hten,
    zpow_natCast]

theorem rounded_le_pow (hk : -(places : Int) ≤ k) (h : |v.value| ≤ 10 ^ k) : rounded v places ≤ 10 ^ k := by
  obtain ⟨n, hn⟩ := exists_units hk
  have hunit : (0 : Rat) < 10 ^ places := by positivity
  rw [← hn, rounded]
  apply div_le_div_of_nonneg_right _ hunit.le
  have hround : roundToPlaces v places ≤ n := by
    apply roundHalfEven_le_of_le v.denominator_pos
    rwa [ratio_in_units, ← le_div_iff₀ hunit, hn]
  exact_mod_cast hround

theorem pow_le_rounded (hk : -(places : Int) ≤ k) (h : 10 ^ k ≤ |v.value|) : 10 ^ k ≤ rounded v places := by
  obtain ⟨n, hn⟩ := exists_units hk
  have hunit : (0 : Rat) < 10 ^ places := by positivity
  rw [← hn, rounded]
  apply div_le_div_of_nonneg_right _ hunit.le
  have hround : n ≤ roundToPlaces v places := by
    apply le_roundHalfEven_of_le v.denominator_pos
    rwa [ratio_in_units, ← div_le_iff₀ hunit, hn]
  exact_mod_cast hround

/-- The magnitude is a power of ten up to one part in `10 ^ 14`. -/
def NearPower (value : Rat) (k : Int) : Prop :=
  |value - 10 ^ k| ≤ 10 ^ k / 10 ^ 14

/-- Next to a power of ten the logarithm is its exponent, or one less. -/
theorem NearPower.log {value : Rat} (h : NearPower value k) :
    Int.log 10 value = k ∨ Int.log 10 value = k - 1 := by
  have hpow : (0 : Rat) < 10 ^ k := by positivity
  have hten : (10 : Rat) ≠ 0 := by norm_num
  obtain ⟨hlow, hhigh⟩ := abs_le.mp h
  have hvalue : 0 < value := by linarith
  rcases le_or_gt (10 ^ k) value with hle | hlt
  · left
    apply log_eq (by norm_num) hvalue (by exact_mod_cast hle)
    rw [Nat.cast_ofNat, zpow_add_one₀ hten]
    linarith
  · right
    apply log_eq (by norm_num) hvalue
    · rw [Nat.cast_ofNat, zpow_sub_one₀ hten]
      linarith
    · rw [Int.sub_add_cancel]
      exact_mod_cast hlt

/-- Next to a power of ten all roundings to eight figures or fewer are that power. -/
theorem rounded_eq_of_near (h : NearPower |v.value| k) (hk : -(places : Int) ≤ k)
    (hp : (places : Int) ≤ 7 - k) : rounded v places = 10 ^ k := by
  obtain ⟨n, hn⟩ := exists_units hk
  have hten : (10 : Rat) ≠ 0 := by norm_num
  have hunit : (10 : Rat) ^ k / 10 ^ 7 ≤ 1 / 10 ^ places := by
    rw [one_div, ← zpow_natCast, ← zpow_natCast, ← zpow_sub₀ hten, ← zpow_neg]
    exact zpow_le_zpow_right₀ (by norm_num) (by push_cast; omega)
  have hpow : (0 : Rat) < 10 ^ k := by positivity
  rw [← hn]
  apply rounded_eq
  rw [hn, abs_sub_comm]
  calc |(|v.value| - 10 ^ k)| ≤ 10 ^ k / 10 ^ 14 := h
    _ < 10 ^ k / 10 ^ 7 / 2 := by linarith
    _ ≤ 1 / 10 ^ places / 2 := by linarith

end Power

end ShapeGeometry.Decimal
