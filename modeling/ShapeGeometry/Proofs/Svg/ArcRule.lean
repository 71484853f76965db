import Mathlib.Analysis.SpecialFunctions.Trigonometric.Basic
import ShapeGeometry.Svg.PathData

/-!
The rule by which a reader of path data draws an arc segment: its centre is not written, but implied by the ends,
the radii, the rotation and the two flags.
-/

namespace ShapeGeometry.Svg

open Real

/-- A turn about a centre, from an angle and by a sweep of some sign. -/
structure Turn where
  center : Point ℝ
  start : ℝ
  sweep : ℝ

namespace Turn

/-- Where the turn is after a part of its sweep, on the ellipse about its centre with given radii and with its
first axis turned by `rotation` degrees. -/
noncomputable def point (turn : Turn) (radii : Point ℝ) (rotation part : ℝ) : Point ℝ :=
  let tilt := rotation * (π / 180)
  let angle := turn.start + part * turn.sweep
  { x := turn.center.x + (cos tilt * (radii.x * cos angle) - sin tilt * (radii.y * sin angle))
    y := turn.center.y + (sin tilt * (radii.x * cos angle) + cos tilt * (radii.y * sin angle)) }

/-- The rule of SVG: of the turns from the one end of an arc segment to the other, on ellipses with its radii and
its rotation, its flags select one. A half turn counts as large and as small, and there is no turn where the ends
coincide. -/
structure IsSelected (turn : Turn) (radii : Point ℝ) (rotation : ℝ) (large sweep : Bool)
    (first last : Point ℝ) : Prop where
  apart : first ≠ last
  starts : turn.point radii rotation 0 = first
  ends : turn.point radii rotation 1 = last
  lt_turn : |turn.sweep| < 2 * π
  direction : 0 < turn.sweep ↔ sweep = true
  size : if large then π ≤ |turn.sweep| else |turn.sweep| ≤ π

section Chord

variable (turn : Turn) (radii : Point ℝ) (rotation : ℝ)

/-- The angle half way. -/
noncomputable def middle : ℝ :=
  turn.start + turn.sweep / 2

/-- The chord of the turn along the axes of the ellipse. It is as long as the sine of half the sweep, and
perpendicular to the direction half way. -/
theorem chord :
    let tilt := rotation * (π / 180)
    let first := turn.point radii rotation 0
    let last := turn.point radii rotation 1
    cos tilt * (last.x - first.x) + sin tilt * (last.y - first.y)
        = radii.x * (2 * sin (turn.sweep / 2) * -sin turn.middle)
      ∧ cos tilt * (last.y - first.y) - sin tilt * (last.x - first.x)
        = radii.y * (2 * sin (turn.sweep / 2) * cos turn.middle) := by
  intro tilt first last
  have hunit := cos_sq_add_sin_sq tilt
  have hsum : (turn.start + 1 * turn.sweep + (turn.start + 0 * turn.sweep)) / 2 = turn.middle := by
    rw [middle]
    ring
  have hdifference : (turn.start + 1 * turn.sweep - (turn.start + 0 * turn.sweep)) / 2 = turn.sweep / 2 := by ring
  have hcos := cos_sub_cos (turn.start + 1 * turn.sweep) (turn.start + 0 * turn.sweep)
  have hsin := sin_sub_sin (turn.start + 1 * turn.sweep) (turn.start + 0 * turn.sweep)
  rw [hsum, hdifference] at hcos hsin
  dsimp only [first, last, point]
  constructor
  · linear_combination radii.x * hcos
      + radii.x * (cos (turn.start + 1 * turn.sweep) - cos (turn.start + 0 * turn.sweep)) * hunit
  · linear_combination radii.y * hsin
      + radii.y * (sin (turn.start + 1 * turn.sweep) - sin (turn.start + 0 * turn.sweep)) * hunit

theorem point_zero_eq_one (h : turn.sweep = 0) : turn.point radii rotation 0 = turn.point radii rotation 1 := by
  rw [point, point, h, mul_zero, mul_zero]

/-- The angle half way and the sweep say where the turn is. -/
theorem angle_eq (part : ℝ) : turn.start + part * turn.sweep = turn.middle + (part - 1 / 2) * turn.sweep := by
  rw [middle]
  ring

/-- The square of the sine of half the sweep, from the chord. -/
theorem sq_sin_half :
    sin (turn.sweep / 2) ^ 2 = ((2 * sin (turn.sweep / 2) * -sin turn.middle) ^ 2
      + (2 * sin (turn.sweep / 2) * cos turn.middle) ^ 2) / 4 := by
  have hunit := sin_sq_add_cos_sq turn.middle
  linear_combination (-sin (turn.sweep / 2) ^ 2) * hunit

theorem sin_half_ne_zero (hlt : |turn.sweep| < 2 * π) (hne : turn.sweep ≠ 0) : sin (turn.sweep / 2) ≠ 0 := by
  obtain ⟨hlow, hhigh⟩ := abs_lt.mp hlt
  rw [Ne, sin_eq_zero_iff_of_lt_of_lt (by linarith) (by linarith)]
  exact div_ne_zero hne two_ne_zero

/-- The ends of less than a turn are apart. -/
theorem point_zero_ne_one (hx : radii.x ≠ 0) (hy : radii.y ≠ 0) (hlt : |turn.sweep| < 2 * π)
    (hne : turn.sweep ≠ 0) : turn.point radii rotation 0 ≠ turn.point radii rotation 1 := by
  intro hsame
  obtain ⟨halong, hacross⟩ := turn.chord radii rotation
  have hchord : 2 * sin (turn.sweep / 2) ≠ 0 := mul_ne_zero two_ne_zero (turn.sin_half_ne_zero hlt hne)
  rw [hsame, sub_self, sub_self, mul_zero, mul_zero, add_zero, zero_eq_mul, or_iff_right hx, mul_eq_zero,
    or_iff_right hchord, neg_eq_zero] at halong
  rw [hsame, sub_self, sub_self, mul_zero, mul_zero, sub_zero, zero_eq_mul, or_iff_right hy, mul_eq_zero,
    or_iff_right hchord] at hacross
  have hunit := sin_sq_add_cos_sq turn.middle
  rw [halong, hacross] at hunit
  norm_num at hunit

end Chord

/-- A turn is selected by flags that say its size and its direction. -/
theorem isSelected {radii : Point ℝ} (turn : Turn) (rotation : ℝ) {large : Bool} (hx : radii.x ≠ 0)
    (hy : radii.y ≠ 0) (hlt : |turn.sweep| < 2 * π) (hne : turn.sweep ≠ 0)
    (hsize : if large then π ≤ |turn.sweep| else |turn.sweep| ≤ π) :
    turn.IsSelected radii rotation large (decide (0 < turn.sweep)) (turn.point radii rotation 0)
      (turn.point radii rotation 1) :=
  ⟨turn.point_zero_ne_one radii rotation hx hy hlt hne, rfl, rfl, hlt, decide_eq_true_iff.symm, hsize⟩

/-- Sweeps of one size, both small or both large, whose chords are equally long are equal. -/
theorem abs_sweep_eq {first second : ℝ} {large : Bool} (hfirst : |first| < 2 * π) (hsecond : |second| < 2 * π)
    (hsize : if large then π ≤ |first| else |first| ≤ π)
    (hsize' : if large then π ≤ |second| else |second| ≤ π) (h : sin (first / 2) ^ 2 = sin (second / 2) ^ 2) :
    |first| = |second| := by
  have hcos : cos |first| = cos |second| := by
    rw [sin_sq_eq_half_sub, sin_sq_eq_half_sub, mul_div_cancel₀ _ (two_ne_zero' ℝ),
      mul_div_cancel₀ _ (two_ne_zero' ℝ)] at h
    rw [cos_abs, cos_abs]
    linarith
  cases large with
  | false =>
    simp only [Bool.false_eq_true, ↓reduceIte] at hsize hsize'
    exact injOn_cos ⟨abs_nonneg _, hsize⟩ ⟨abs_nonneg _, hsize'⟩ hcos
  | true =>
    -- the rest of the turn is small
    simp only [↓reduceIte] at hsize hsize'
    rw [← cos_two_pi_sub, ← cos_two_pi_sub |second|] at hcos
    have hrest : 2 * π - |first| = 2 * π - |second| :=
      injOn_cos ⟨by linarith, by linarith⟩ ⟨by linarith, by linarith⟩ hcos
    linarith

namespace IsSelected

variable {turn turn' : Turn} {radii first last : Point ℝ} {rotation : ℝ} {large sweep : Bool}

theorem sweep_ne_zero (h : turn.IsSelected radii rotation large sweep first last) : turn.sweep ≠ 0 := by
  intro hzero
  apply h.apart
  rw [← h.starts, ← h.ends, turn.point_zero_eq_one radii rotation hzero]

theorem sweep_eq (hsin : sin (turn.sweep / 2) ^ 2 = sin (turn'.sweep / 2) ^ 2)
    (h : turn.IsSelected radii rotation large sweep first last)
    (h' : turn'.IsSelected radii rotation large sweep first last) : turn.sweep = turn'.sweep := by
  have habs := abs_sweep_eq h.lt_turn h'.lt_turn h.size h'.size hsin
  have hdirection : 0 < turn.sweep ↔ 0 < turn'.sweep := h.direction.trans h'.direction.symm
  rcases lt_or_gt_of_ne h.sweep_ne_zero with hneg | hpos
  · have hneg' : turn'.sweep ≤ 0 := not_lt.mp (mt hdirection.mpr (not_lt.mpr hneg.le))
    rw [abs_of_neg hneg, abs_of_nonpos hneg'] at habs
    exact neg_injective habs
  · rw [abs_of_pos hpos, abs_of_pos (hdirection.mp hpos)] at habs
    exact habs

/-- The flags leave one curve. Turns between the same ends have equal chords, so equal sweeps and equal directions
half way, and then the same centre. -/
theorem point_eq (hx : radii.x ≠ 0) (hy : radii.y ≠ 0)
    (h : turn.IsSelected radii rotation large sweep first last)
    (h' : turn'.IsSelected radii rotation large sweep first last) :
    turn.point radii rotation = turn'.point radii rotation := by
  obtain ⟨halong, hacross⟩ := turn.chord radii rotation
  obtain ⟨halong', hacross'⟩ := turn'.chord radii rotation
  rw [h.starts, h.ends] at halong hacross
  rw [h'.starts, h'.ends] at halong' hacross'
  have hsine : 2 * sin (turn.sweep / 2) * -sin turn.middle = 2 * sin (turn'.sweep / 2) * -sin turn'.middle :=
    mul_left_cancel₀ hx (halong.symm.trans halong')
  have hcosine : 2 * sin (turn.sweep / 2) * cos turn.middle = 2 * sin (turn'.sweep / 2) * cos turn'.middle :=
    mul_left_cancel₀ hy (hacross.symm.trans hacross')
  have hlength : sin (turn.sweep / 2) ^ 2 = sin (turn'.sweep / 2) ^ 2 := by
    rw [turn.sq_sin_half, turn'.sq_sin_half, hsine, hcosine]
  have hsweep := sweep_eq hlength h h'
  rw [← hsweep] at hsine hcosine
  have hchord : 2 * sin (turn.sweep / 2) ≠ 0 :=
    mul_ne_zero two_ne_zero (turn.sin_half_ne_zero h.lt_turn h.sweep_ne_zero)
  have hsin : sin turn.middle = sin turn'.middle := neg_injective (mul_left_cancel₀ hchord hsine)
  have hcos : cos turn.middle = cos turn'.middle := mul_left_cancel₀ hchord hcosine
  have hdirection (part : ℝ) : cos (turn.start + part * turn.sweep) = cos (turn'.start + part * turn'.sweep)
      ∧ sin (turn.start + part * turn.sweep) = sin (turn'.start + part * turn'.sweep) := by
    rw [angle_eq, angle_eq, cos_add, cos_add, sin_add, sin_add, hsin, hcos, hsweep]
    exact ⟨rfl, rfl⟩
  have hcenter : turn.center = turn'.center := by
    have hstart := h.starts.trans h'.starts.symm
    rw [point, point, (hdirection 0).1, (hdirection 0).2, Point.mk.injEq] at hstart
    exact Point.mk.injEq .. ▸ ⟨add_right_cancel hstart.1, add_right_cancel hstart.2⟩
  funext part
  rw [point, point, (hdirection part).1, (hdirection part).2, hcenter]

end IsSelected

end Turn

/-- The curves that a reader draws for arc segments, one after the other, each from the end of the one before. -/
inductive Draws : Point ℝ → List (Segment ℝ) → List (ℝ → Point ℝ) → Prop
  | nil (first : Point ℝ) : Draws first [] []
  | arcTo {first last radii : Point ℝ} {rotation : ℝ} {large sweep : Bool} {turn : Turn}
    {segments : List (Segment ℝ)} {curves : List (ℝ → Point ℝ)}
    (selected : turn.IsSelected radii rotation large sweep first last) (rest : Draws last segments curves) :
    Draws first (.arcTo radii rotation large sweep last :: segments) (turn.point radii rotation :: curves)

theorem draws_nil_iff {first : Point ℝ} {curves : List (ℝ → Point ℝ)} :
    Draws first [] curves ↔ curves = [] := by
  constructor
  · rintro ⟨⟩
    rfl
  · rintro rfl
    exact .nil first

/-- A turn that is selected is what is drawn. -/
theorem draws_cons_iff {turn : Turn} {first last radii : Point ℝ} {rotation : ℝ} {large sweep : Bool}
    {segments : List (Segment ℝ)} {curves : List (ℝ → Point ℝ)} (hx : radii.x ≠ 0) (hy : radii.y ≠ 0)
    (h : turn.IsSelected radii rotation large sweep first last) :
    Draws first (.arcTo radii rotation large sweep last :: segments) curves
      ↔ ∃ rest, Draws last segments rest ∧ curves = turn.point radii rotation :: rest := by
  constructor
  · intro hdraws
    cases hdraws with
    | arcTo selected rest => exact ⟨_, rest, by rw [selected.point_eq hx hy h]⟩
  · rintro ⟨rest, hrest, rfl⟩
    exact .arcTo h hrest

end ShapeGeometry.Svg
