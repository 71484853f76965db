import Mathlib.Analysis.SpecialFunctions.Complex.Arg
import ShapeGeometry.Path.Tracer
import ShapeGeometry.Svg.PathData

/-!
The real numbers as the scalar: arithmetic without rounding, in which every numeral has its value and nothing
is out of range.
-/

namespace ShapeGeometry.Exact

/-- The integer part of a quotient, cut toward zero. -/
noncomputable def truncate (x : ℝ) : ℤ :=
  if 0 ≤ x then ⌊x⌋ else ⌈x⌉

noncomputable scoped instance : Scalar ℝ where
  beq x y := decide (x = y)
  decidableLT := inferInstance
  decidableLE := inferInstance
  isNaN _ := false
  abs x := |x|
  sqrt := Real.sqrt
  sin := Real.sin
  cos := Real.cos
  tan := Real.tan
  atan2 y x := Complex.arg ⟨x, y⟩
  remainder x y := x - y * truncate (x / y)
  pi := Real.pi
  ofNumeral? n := some ((if n.negative then -1 else 1) * n.coefficient * 10 ^ n.exponent)

open Real

theorem tau_eq : (Scalar.tau : ℝ) = 2 * π := by
  change ((2 : ℕ) : ℝ) * π = 2 * π
  norm_num

theorem degreesToRadians_eq (angle : ℝ) : Angle.degreesToRadians angle = angle * (π / 180) := by
  change angle * (π / ((180 : ℕ) : ℝ)) = angle * (π / 180)
  norm_num

theorem radiansToDegrees_eq (angle : ℝ) : Angle.radiansToDegrees angle = angle * (180 / π) := by
  change angle * (((180 : ℕ) : ℝ) / π) = angle * (180 / π)
  norm_num

theorem abs_degreesToRadians_le {angle : ℝ} (h : |angle| ≤ 360) :
    |Angle.degreesToRadians angle| ≤ 2 * π := by
  have hdegree : 0 < π / 180 := div_pos pi_pos (by norm_num)
  calc |Angle.degreesToRadians angle|
      = |angle| * (π / 180) := by rw [degreesToRadians_eq, abs_mul, abs_of_pos hdegree]
    _ ≤ 360 * (π / 180) := mul_le_mul_of_nonneg_right h hdegree.le
    _ = 2 * π := by ring

theorem joinTolerance_eq : (Svg.PathData.joinTolerance : ℝ) = 1e-6 :=
  rfl

theorem ofNat_eq (n : ℕ) : @OfNat.ofNat ℝ n (Scalar.instOfNat n) = (n : ℝ) :=
  rfl

theorem scalar_min_eq (x y : ℝ) : Scalar.min x y = min x y := by
  change (if false = true then y else if false = true then x else if x < y then x else y) = min x y
  rw [if_neg Bool.false_ne_true, if_neg Bool.false_ne_true, min_def_lt]

theorem scalar_max_eq (x y : ℝ) : Scalar.max x y = max x y := by
  change (if false = true then y else if false = true then x else if y < x then x else y) = max x y
  rw [if_neg Bool.false_ne_true, if_neg Bool.false_ne_true, max_comm, max_def_lt]

theorem axisScale_none (shapeExtent : ℝ) : Tracer.axisScale none shapeExtent = 1 :=
  Nat.cast_one

theorem axisScale_some {extent : ℝ} (h : 0 < extent) (shapeExtent : ℝ) :
    Tracer.axisScale (some extent) shapeExtent = shapeExtent / extent := by
  rw [Tracer.axisScale, ofNat_eq, Nat.cast_zero]
  exact if_pos h

theorem isDegenerate_iff (widthRadius heightRadius sweep : ℝ) :
    Tracer.isDegenerate widthRadius heightRadius sweep = false
      ↔ 0 < widthRadius ∧ 0 < heightRadius ∧ 1e-10 ≤ |sweep| := by
  change (decide (widthRadius ≤ ((0 : ℕ) : ℝ)) || decide (heightRadius ≤ ((0 : ℕ) : ℝ))
    || decide (|sweep| < 1e-10)) = false ↔ _
  simp [and_assoc]

theorem beq_zero_of_ne {x : ℝ} (h : x ≠ 0) : (x == @OfNat.ofNat ℝ 0 (Scalar.instOfNat 0)) = false := by
  rw [ofNat_eq, Nat.cast_zero]
  exact decide_eq_false h

/-- What is left after cutting toward zero is less than the divisor, on either side of zero. -/
theorem abs_remainder_lt (x : ℝ) {y : ℝ} (hy : 0 < y) : |(Scalar.remainder x y : ℝ)| < y := by
  have hscaled : (Scalar.remainder x y : ℝ) = y * (x / y - truncate (x / y)) := by
    change x - y * (truncate (x / y) : ℝ) = _
    rw [mul_sub, mul_div_cancel₀ _ hy.ne']
  have hcut : |x / y - truncate (x / y)| < 1 := by
    rw [truncate, abs_lt]
    split
    · have := Int.floor_le (x / y)
      have := Int.lt_floor_add_one (x / y)
      constructor <;> linarith
    · have := Int.le_ceil (x / y)
      have := Int.ceil_lt_add_one (x / y)
      constructor <;> linarith
  rw [hscaled, abs_mul, abs_of_pos hy]
  exact mul_lt_of_lt_one_right hy hcut

/-- The remainder that is never negative is the representative of the dividend from zero up. -/
theorem euclideanRemainder_eq_toIcoMod (x : ℝ) {y : ℝ} (hy : 0 < y) :
    Scalar.euclideanRemainder x y = toIcoMod hy 0 x := by
  obtain ⟨hlow, hhigh⟩ := abs_lt.mp (abs_remainder_lt x hy)
  have hwhole : x = Scalar.remainder x y + truncate (x / y) • y := by
    change x = x - y * (truncate (x / y) : ℝ) + truncate (x / y) • y
    rw [zsmul_eq_mul]
    ring
  have hvalue : Scalar.euclideanRemainder x y
      = if (Scalar.remainder x y : ℝ) < 0 then Scalar.remainder x y + |y| else Scalar.remainder x y := by
    unfold Scalar.euclideanRemainder
    rw [ofNat_eq, Nat.cast_zero]
    rfl
  rw [hvalue, abs_of_pos hy, eq_comm, toIcoMod_eq_iff, zero_add]
  split
  case isTrue hneg =>
    refine ⟨⟨by linarith, by linarith⟩, truncate (x / y) - 1, ?_⟩
    rw [sub_smul, one_smul]
    linarith
  case isFalse hneg => exact ⟨⟨not_lt.mp hneg, hhigh⟩, truncate (x / y), hwhole⟩

theorem euclideanRemainder_of_lt {x y : ℝ} (hx : 0 ≤ x) (hy : x < y) :
    Scalar.euclideanRemainder x y = x := by
  rw [euclideanRemainder_eq_toIcoMod x (hx.trans_lt hy), toIcoMod_eq_self, zero_add]
  exact ⟨hx, hy⟩

theorem euclideanRemainder_bounds (x : ℝ) {y : ℝ} (hy : 0 < y) :
    0 ≤ Scalar.euclideanRemainder x y ∧ Scalar.euclideanRemainder x y ≤ y := by
  have hmem := toIcoMod_mem_Ico hy 0 x
  rw [zero_add] at hmem
  rw [euclideanRemainder_eq_toIcoMod x hy]
  exact ⟨hmem.1, hmem.2.le⟩

/-- No sweep is more than one turn. -/
theorem abs_normalizedSweep_le (start finish : ℝ) (counterclockwise : Bool) :
    |Svg.normalizedSweep start finish counterclockwise| ≤ 2 * π := by
  have hturn : |2 * π| ≤ 2 * π := (abs_of_pos two_pi_pos).le
  have hbounds (x : ℝ) : |Scalar.euclideanRemainder x (2 * π)| ≤ 2 * π := by
    obtain ⟨hlow, hhigh⟩ := euclideanRemainder_bounds x two_pi_pos
    rwa [abs_of_nonneg hlow]
  unfold Svg.normalizedSweep
  simp only [tau_eq]
  split
  · split
    · rwa [abs_neg]
    · rw [abs_neg]
      exact hbounds _
  · split
    · exact hturn
    · exact hbounds _

/-- A sweep of at most one turn comes back from its two angles and its direction. -/
theorem normalizedSweep_add {start sweep : ℝ} (h : |sweep| ≤ 2 * π) :
    Svg.normalizedSweep start (start + sweep) (sweep < 0) = sweep := by
  obtain ⟨hlow, hhigh⟩ := abs_le.mp h
  have hdelta : start + sweep - start = sweep := add_sub_cancel_left start sweep
  unfold Svg.normalizedSweep
  simp only [hdelta, tau_eq, decide_eq_true_eq]
  by_cases hneg : sweep < 0
  · rw [if_pos hneg]
    split
    case isTrue hturn => exact le_antisymm hlow hturn
    case isFalse hturn =>
      rw [euclideanRemainder_of_lt (neg_nonneg.mpr hneg.le) (neg_lt.mp (not_le.mp hturn)), neg_neg]
  · rw [if_neg hneg]
    split
    case isTrue hturn => exact le_antisymm hturn hhigh
    case isFalse hturn => exact euclideanRemainder_of_lt (not_lt.mp hneg) (not_le.mp hturn)

theorem isFullTurn_iff (sweep : ℝ) :
    Svg.PathData.isFullTurn sweep = true ↔ 2 * π - 1e-6 ≤ |sweep| := by
  rw [Svg.PathData.isFullTurn, tau_eq, joinTolerance_eq, decide_eq_true_eq]
  rfl

theorem length_sub_self (p : Point ℝ) : (p - p).length = 0 := by
  change √((p.x - p.x) * (p.x - p.x) + (p.y - p.y) * (p.y - p.y)) = 0
  simp

theorem ellipsePoint_eq (center radii : Point ℝ) (angle : ℝ) :
    Svg.ellipsePoint center radii 0 angle = center + radii * Point.ofAngle angle := by
  have hturn : Point.ofAngle (0 : ℝ) = ⟨1, 0⟩ := congrArg₂ Point.mk cos_zero sin_zero
  have hrotate (p : Point ℝ) : Point.rotate ⟨1, 0⟩ p = p := by
    change Point.mk (1 * p.x - 0 * p.y) (0 * p.x + 1 * p.y) = p
    simp
  rw [Svg.ellipsePoint, hturn, hrotate]

end ShapeGeometry.Exact
