import Mathlib.Data.Real.Basic
import Mathlib.Tactic.FieldSimp
import Mathlib.Tactic.Linarith
import Mathlib.Tactic.NormNum
import Mathlib.Tactic.Positivity
import Mathlib.Tactic.Ring
import Mathlib.Tactic.WLOG

namespace ShapeGeometry.Catalogue

/-- The inset of the text in parts of which the size has 24, where the handle stands at a share of its range. -/
noncomputable def hexagonInset (share : ℝ) : ℝ :=
  if share ≤ 0.5 then 4 * (share + 0.5) else 4 + 6 * share

/-- The same as a length, along a side of the shape. -/
noncomputable def hexagonMargin (length share : ℝ) : ℝ :=
  length * hexagonInset share / 24

section Inset

variable {length s t : ℝ}

theorem hexagonInset_of_le (h : s ≤ 1 / 2) : hexagonInset s = 2 + 4 * s := by
  rw [hexagonInset, if_pos (h.trans (by norm_num))]
  ring

theorem hexagonInset_of_lt (h : 1 / 2 < s) : hexagonInset s = 4 + 6 * s :=
  if_neg (lt_of_eq_of_lt (by norm_num) h).not_ge

theorem hexagonInset_mem (hs : 0 ≤ s ∧ s ≤ 1) : 2 ≤ hexagonInset s ∧ hexagonInset s ≤ 10 := by
  by_cases hmiddle : s ≤ 1 / 2
  · rw [hexagonInset_of_le hmiddle]
    constructor <;> linarith
  · rw [hexagonInset_of_lt (not_le.mp hmiddle)]
    constructor <;> linarith

theorem abs_hexagonMargin_sub (hl : 0 < length) :
    |hexagonMargin length s - hexagonMargin length t| = length / 24 * |hexagonInset s - hexagonInset t| := by
  have hsub : hexagonMargin length s - hexagonMargin length t
      = length / 24 * (hexagonInset s - hexagonInset t) := by
    rw [hexagonMargin, hexagonMargin]
    ring
  rw [hsub, abs_mul, abs_of_pos (by positivity)]

/-- On one side of the middle the inset is linear, at one of the two slopes. -/
theorem abs_hexagonInset_sub_le (h : s ≤ 1 / 2 ↔ t ≤ 1 / 2) :
    |hexagonInset s - hexagonInset t| ≤ 6 * |s - t| := by
  by_cases hs : s ≤ 1 / 2
  · have hsub : hexagonInset s - hexagonInset t = 4 * (s - t) := by
      rw [hexagonInset_of_le hs, hexagonInset_of_le (h.mp hs)]
      ring
    rw [hsub, abs_mul, abs_of_pos four_pos]
    gcongr
    norm_num
  · have hsub : hexagonInset s - hexagonInset t = 6 * (s - t) := by
      rw [hexagonInset_of_lt (not_le.mp hs), hexagonInset_of_lt (not_le.mp (hs ∘ h.mpr))]
      ring
    rw [hsub, abs_mul, abs_of_pos (by norm_num)]

/-- The two slopes do not meet: over the middle the inset gains two to three parts beyond the steeper one. -/
theorem hexagonInset_sub_mem (hs0 : 0 ≤ s) (hs : s ≤ 1 / 2) (ht : 1 / 2 < t) :
    6 * (t - s) + 2 ≤ hexagonInset t - hexagonInset s
      ∧ hexagonInset t - hexagonInset s ≤ 6 * (t - s) + 3 := by
  rw [hexagonInset_of_le hs, hexagonInset_of_lt ht]
  constructor <;> linarith

theorem abs_hexagonInset_sub_mem (hs0 : 0 ≤ s) (ht0 : 0 ≤ t) (h : ¬ (s ≤ 1 / 2 ↔ t ≤ 1 / 2)) :
    6 * |s - t| + 2 ≤ |hexagonInset s - hexagonInset t|
      ∧ |hexagonInset s - hexagonInset t| ≤ 6 * |s - t| + 3 := by
  wlog hst : s ≤ t generalizing s t
  · rw [abs_sub_comm s t, abs_sub_comm (hexagonInset s)]
    exact this ht0 hs0 (fun hiff => h hiff.symm) (not_le.mp hst).le
  have hs : s ≤ 1 / 2 := by
    by_contra hs
    exact h (iff_of_false hs fun ht => hs (hst.trans ht))
  have ht : 1 / 2 < t := not_le.mp fun ht => h (iff_of_true hs ht)
  have hmem := hexagonInset_sub_mem hs0 hs ht
  have hpos : 0 ≤ hexagonInset t - hexagonInset s := by linarith
  rwa [abs_sub_comm s t, abs_sub_comm (hexagonInset s), abs_of_nonneg (sub_nonneg.mpr hst), abs_of_nonneg hpos]

/-- On either side of the middle the inset moves no faster than by its steeper slope. -/
theorem abs_hexagonMargin_sub_le (hl : 0 < length) (h : s ≤ 1 / 2 ↔ t ≤ 1 / 2) :
    |hexagonMargin length s - hexagonMargin length t| ≤ length / 4 * |s - t| := by
  rw [abs_hexagonMargin_sub hl]
  calc length / 24 * |hexagonInset s - hexagonInset t| ≤ length / 24 * (6 * |s - t|) := by
        gcongr
        exact abs_hexagonInset_sub_le h
    _ = length / 4 * |s - t| := by ring

/-- Over the middle it moves farther than that, by a twelfth to an eighth of the length. -/
theorem abs_hexagonMargin_sub_mem (hl : 0 < length) (hs0 : 0 ≤ s) (ht0 : 0 ≤ t)
    (h : ¬ (s ≤ 1 / 2 ↔ t ≤ 1 / 2)) :
    length / 4 * |s - t| + length / 12 ≤ |hexagonMargin length s - hexagonMargin length t|
      ∧ |hexagonMargin length s - hexagonMargin length t| ≤ length / 4 * |s - t| + length / 8 := by
  obtain ⟨hleast, hmost⟩ := abs_hexagonInset_sub_mem hs0 ht0 h
  have hunit : 0 ≤ length / 24 := by positivity
  rw [abs_hexagonMargin_sub hl]
  constructor
  · linarith [mul_le_mul_of_nonneg_left hleast hunit]
  · linarith [mul_le_mul_of_nonneg_left hmost hunit]

end Inset

/-- The guides of the inset, for an adjust value in its range. The fifth has a condition that never holds, so that the
sixth does not switch with the third and the fourth. -/
theorem inset_eq_hexagonInset {range a q1 q2 q3 q4 q5 q6 q7 q8 : ℝ} (hrange : 0 < range)
    (hq1 : q1 = -range / 2) (hq2 : q2 = a + q1) (hq3 : q3 = if 0 < q2 then 4 else 2)
    (hq4 : q4 = if 0 < q2 then 3 else 2) (hq5 : q5 = if 0 < q1 then 24 else 0) (hq6 : q6 = (a + q5) / q1)
    (hq7 : q7 = q6 * q4 / -1) (hq8 : q8 = q3 + q7) : q8 = hexagonInset (a / range) := by
  have hq1_neg : q1 < 0 := by linarith
  have hq6_eq : q6 = -2 * (a / range) := by
    rw [hq6, hq5, if_neg hq1_neg.not_gt, add_zero, hq1]
    field_simp
  have hmiddle : a / range ≤ 1 / 2 ↔ ¬ 0 < q2 := by
    rw [div_le_iff₀ hrange, hq2, hq1, not_lt]
    constructor <;> intro h <;> linarith
  rw [hq8, hq7, hq6_eq, hq4, hq3]
  by_cases hq2_pos : 0 < q2
  · have hshare : 1 / 2 < a / range := not_le.mp fun h => hmiddle.mp h hq2_pos
    rw [hexagonInset_of_lt hshare, if_pos hq2_pos, if_pos hq2_pos]
    ring
  · rw [hexagonInset_of_le (hmiddle.mpr hq2_pos), if_neg hq2_pos, if_neg hq2_pos]
    ring

end ShapeGeometry.Catalogue
