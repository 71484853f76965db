import ShapeGeometry.Proofs.Shape.Catalogue.Inset
import ShapeGeometry.Proofs.Shape.Catalogue.Sketches

namespace ShapeGeometry

/-- The greatest stretch of the hexagon is `2 / √3`, rounded down. -/
theorem IsStretch.mul_sqrt_three_mem {stretch : ℝ} (h : IsStretch stretch) :
    0 ≤ stretch * √3 ∧ stretch * √3 ≤ 200000 := by
  have hsqrt : √3 ≤ 1.732051 := Real.sqrt_le_iff.mpr (by norm_num)
  refine ⟨mul_nonneg h.1 (Real.sqrt_nonneg 3), ?_⟩
  calc stretch * √3 ≤ 115470 * 1.732051 := mul_le_mul h.2 hsqrt (Real.sqrt_nonneg 3) (by norm_num)
    _ ≤ 200000 := by norm_num

namespace Catalogue

open Exact

theorem rect_fits : (rect : Preset ℝ).Fits := by
  refine Preset.fits_of_shape (by simp [rect]) ?_
  intro env width height hs
  refine (rect_sketch hs).within ?_
  intro _
  simp [List.Forall, hs.width_pos.le, hs.height_pos.le]

theorem roundRect_fits : (roundRect : Preset ℝ).Fits := by
  refine Preset.fits_of_shape (by simp [roundRect]) ?_
  intro env width height hs
  refine (roundRect_sketch hs).within ?_
  intro hguides
  obtain ⟨ha, hx1, hx2, hy2, hil, hir, hib⟩ := hguides
  simp only [Rect.Within, Point.Within, List.Forall]
  obtain ⟨hss, hshort_width, hshort_height⟩ := hs.short
  have hpin := mul_mem hss.le (pin_mem (by norm_num) ha)
  and_intros <;> linarith

theorem ellipse_fits : (ellipse : Preset ℝ).Fits := by
  refine Preset.fits_of_shape (by simp [ellipse]) ?_
  intro env width height hs
  refine (ellipse_sketch hs).within ?_
  intro hguides
  obtain ⟨hidx, hidy, hil, hir, hit, hib⟩ := hguides
  simp only [Rect.Within, Point.Within, List.Forall]
  have hw := hs.width_pos
  have hh := hs.height_pos
  have hangle : (2700000 : ℝ) / 60000 * (Real.pi / 180) = Real.pi / 4 := by ring
  rw [hangle, Real.cos_pi_div_four] at hidx
  rw [hangle, Real.sin_pi_div_four] at hidy
  have hhalf : 0 ≤ √2 / 2 ∧ √2 / 2 ≤ 1 :=
    ⟨by positivity, Real.cos_pi_div_four ▸ Real.cos_le_one (Real.pi / 4)⟩
  have hidx_mem := mul_mem (half_pos hw).le hhalf
  have hidy_mem := mul_mem (half_pos hh).le hhalf
  and_intros <;> linarith

theorem triangle_fits : (triangle : Preset ℝ).Fits := by
  refine Preset.fits_of_shape (by simp [triangle]) ?_
  intro env width height hs
  refine (triangle_sketch hs).within ?_
  intro hguides
  obtain ⟨ha, hx1, hx2, hx3⟩ := hguides
  simp only [Rect.Within, Point.Within, List.Forall]
  have hw := hs.width_pos
  have hh := hs.height_pos
  have hpin := mul_mem hw.le (pin_mem (by norm_num) ha)
  and_intros <;> linarith

theorem rtTriangle_fits : (rtTriangle : Preset ℝ).Fits := by
  refine Preset.fits_of_shape (by simp [rtTriangle]) ?_
  intro env width height hs
  refine (rtTriangle_sketch hs).within ?_
  intro hguides
  obtain ⟨hit, hir, hib⟩ := hguides
  simp only [Rect.Within, Point.Within, List.Forall]
  have hw := hs.width_pos
  have hh := hs.height_pos
  and_intros <;> linarith

theorem diamond_fits : (diamond : Preset ℝ).Fits := by
  refine Preset.fits_of_shape (by simp [diamond]) ?_
  intro env width height hs
  refine (diamond_sketch hs).within ?_
  intro hguides
  obtain ⟨hir, hib⟩ := hguides
  simp only [Rect.Within, Point.Within, List.Forall]
  have hw := hs.width_pos
  have hh := hs.height_pos
  and_intros <;> linarith

theorem parallelogram_fits : (parallelogram : Preset ℝ).Fits := by
  refine Preset.fits_of_shape (by simp [parallelogram]) ?_
  intro env width height hs
  refine (parallelogram_sketch hs).within ?_
  intro hguides
  obtain ⟨hmaxAdj, ha, hx1, hx2, hx6, hx5, hq1, hq2, hil, hit, hir, hib⟩ := hguides
  simp only [Rect.Within, Point.Within, List.Forall]
  have hw := hs.width_pos
  have hh := hs.height_pos
  have hpin := hs.mul_pin_mem (by positivity) hmaxAdj ha
  have hmax := hs.measure_pos (by positivity) hmaxAdj
  have hq1_mem : 0 ≤ env "q1" ∧ env "q1" ≤ 5 := by
    rw [hq1]
    exact proportion_mem (by norm_num) hmax (pin_mem hmax.le ha)
  have hq2_mem : 0 ≤ env "q2" ∧ env "q2" ≤ 1 / 2 := by
    constructor <;> linarith
  have hil_mem := mul_mem hw.le hq2_mem
  have hit_mem := mul_mem hh.le hq2_mem
  rw [mul_comm, ← hil] at hil_mem
  rw [mul_comm, ← hit] at hit_mem
  and_intros <;> linarith

theorem trapezoid_fits : (trapezoid : Preset ℝ).Fits := by
  refine Preset.fits_of_shape (by simp [trapezoid]) ?_
  intro env width height hs
  refine (trapezoid_sketch hs).within ?_
  intro hguides
  obtain ⟨hmaxAdj, ha, hx1, hx2, hx3, hx4, hil, hit, hir⟩ := hguides
  simp only [Rect.Within, Point.Within, List.Forall]
  have hw := hs.width_pos
  have hh := hs.height_pos
  have hpin := hs.mul_pin_mem (by positivity) hmaxAdj ha
  have hmax := hs.measure_pos (by positivity) hmaxAdj
  have hadjust := pin_mem hmax.le ha
  have hil_mem : 0 ≤ env "il" ∧ env "il" ≤ width / 3 := by
    rw [hil]
    exact proportion_mem (by positivity) hmax hadjust
  have hit_mem : 0 ≤ env "it" ∧ env "it" ≤ height / 3 := by
    rw [hit]
    exact proportion_mem (by positivity) hmax hadjust
  and_intros <;> linarith

theorem hexagon_fits : (hexagon : Preset ℝ).Fits := by
  refine Preset.fits_of_shape (by simp [hexagon]) ?_
  intro env width height hs
  refine (hexagon_sketch hs).within ?_
  intro hguides
  obtain ⟨hmaxAdj, ha, hshd2, hx1, hx2, hdy1, hy1, hy2, hq1, hq2, hq3, hq4, hq5, hq6, hq7, hq8, hil, hit, hir, hib⟩ :=
    hguides
  simp only [Rect.Within, Point.Within, List.Forall]
  have hw := hs.width_pos
  have hh := hs.height_pos
  have hpin := hs.mul_pin_mem (by positivity) hmaxAdj ha
  have hmax := hs.measure_pos (by positivity) hmaxAdj
  have hadjust := pin_mem hmax.le ha
  have hdy1_mem : 0 ≤ env "dy1" ∧ env "dy1" ≤ height / 2 := by
    have hangle : (3600000 : ℝ) / 60000 * (Real.pi / 180) = Real.pi / 3 := by ring
    have hdy1 : env "dy1" = height / 2 * (env "vf" * √3) / 200000 := by
      rw [hdy1, hshd2, hangle, Real.sin_pi_div_three]
      ring
    rw [hdy1]
    exact proportion_mem (half_pos hh).le (by norm_num) hs.stretch.mul_sqrt_three_mem
  -- the adjust value is pinned so that the text is inset by less than half of the shape
  have hq8_mem : 0 ≤ env "q8" ∧ env "q8" ≤ 12 := by
    have hshare : 0 ≤ env "a" / env "maxAdj" ∧ env "a" / env "maxAdj" ≤ 1 :=
      ⟨div_nonneg hadjust.1 hmax.le, (div_le_one hmax).mpr hadjust.2⟩
    rw [inset_eq_hexagonInset hmax hq1 hq2 hq3 hq4 hq5 hq6 hq7 hq8]
    obtain ⟨hleast, hmost⟩ := hexagonInset_mem hshare
    constructor <;> linarith
  have hil_mem := mul_mem hw.le hq8_mem
  have hit_mem := mul_mem hh.le hq8_mem
  and_intros <;> linarith

theorem octagon_fits : (octagon : Preset ℝ).Fits := by
  refine Preset.fits_of_shape (by simp [octagon]) ?_
  intro env width height hs
  refine (octagon_sketch hs).within ?_
  intro hguides
  obtain ⟨ha, hx1, hx2, hy2, hil, hir, hib⟩ := hguides
  simp only [Rect.Within, Point.Within, List.Forall]
  obtain ⟨hss, hshort_width, hshort_height⟩ := hs.short
  have hpin := mul_mem hss.le (pin_mem (by norm_num) ha)
  and_intros <;> linarith

theorem plus_fits : (plus : Preset ℝ).Fits := by
  refine Preset.fits_of_shape (by simp [plus]) ?_
  intro env width height hs
  refine (plus_sketch hs).within ?_
  intro hguides
  obtain ⟨ha, hx1, hx2, hy2, hd, hil, hir, hit, hib⟩ := hguides
  simp only [Rect.Within, Point.Within, List.Forall]
  obtain ⟨hss, hshort_width, hshort_height⟩ := hs.short
  have hpin := mul_mem hss.le (pin_mem (by norm_num) ha)
  -- the text takes the longer bar
  by_cases hwide : 0 < env "d"
  · rw [if_pos hwide] at hil hir hit hib
    and_intros <;> linarith
  · rw [if_neg hwide] at hil hir hit hib
    and_intros <;> linarith

theorem homePlate_fits : (homePlate : Preset ℝ).Fits := by
  refine Preset.fits_of_shape (by simp [homePlate]) ?_
  intro env width height hs
  refine (homePlate_sketch hs).within ?_
  intro hguides
  obtain ⟨hmaxAdj, ha, hdx1, hx1, hir⟩ := hguides
  simp only [Rect.Within, Point.Within, List.Forall]
  have hw := hs.width_pos
  have hh := hs.height_pos
  have hpin := hs.mul_pin_mem (by positivity) hmaxAdj ha
  and_intros <;> linarith

theorem chevron_fits : (chevron : Preset ℝ).Fits := by
  refine Preset.fits_of_shape (by simp [chevron]) ?_
  intro env width height hs
  refine (chevron_sketch hs).within ?_
  intro hguides
  obtain ⟨hmaxAdj, ha, hx1, hx2, hdx, hil, hir⟩ := hguides
  simp only [Rect.Within, Point.Within, List.Forall]
  have hw := hs.width_pos
  have hh := hs.height_pos
  have hpin := hs.mul_pin_mem (by positivity) hmaxAdj ha
  -- the text stands between the notches if there is place
  by_cases hpositive : 0 < env "dx"
  · rw [if_pos hpositive] at hil hir
    and_intros <;> linarith
  · rw [if_neg hpositive] at hil hir
    and_intros <;> linarith

theorem rightArrow_fits : (rightArrow : Preset ℝ).Fits := by
  refine Preset.fits_of_shape (by simp [rightArrow]) ?_
  intro env width height hs
  refine (rightArrow_sketch hs).within ?_
  intro hguides
  obtain ⟨hmaxAdj2, ha1, ha2, hdx1, hx1, hdy1, hy1, hy2, hdx2, hx2⟩ := hguides
  simp only [Rect.Within, Point.Within, List.Forall]
  have hw := hs.width_pos
  have hh := hs.height_pos
  have hpin := hs.mul_pin_mem (by positivity) hmaxAdj2 ha2
  have hstem := mul_mem hh.le (pin_mem (by norm_num) ha1)
  -- where the stem meets the head, the text ends between the start of the head and its tip
  have htext : 0 ≤ env "dx2" ∧ env "dx2" ≤ env "dx1" := by
    have hy1_mem : 0 ≤ env "y1" ∧ env "y1" ≤ height / 2 := by
      constructor <;> linarith
    rw [hdx2, mul_comm]
    exact proportion_mem (by linarith) (half_pos hh) hy1_mem
  and_intros <;> linarith

theorem line_fits : (line : Preset ℝ).Fits := by
  refine Preset.fits_of_shape (by simp [line]) ?_
  intro env width height hs
  refine (line_sketch hs).within ?_
  intro _
  simp [List.Forall, hs.width_pos.le, hs.height_pos.le]

theorem can_fits : (can : Preset ℝ).Fits := by
  refine Preset.fits_of_shape (by simp [can]) ?_
  intro env width height hs
  refine (can_sketch hs).within ?_
  intro hguides
  obtain ⟨hmaxAdj, ha, hy1, hy2, hy3⟩ := hguides
  simp only [Rect.Within, Point.Within, List.Forall]
  have hw := hs.width_pos
  have hh := hs.height_pos
  have hpin := hs.mul_pin_mem (by positivity) hmaxAdj ha
  and_intros <;> linarith

theorem flowChartProcess_fits : (flowChartProcess : Preset ℝ).Fits := by
  refine Preset.fits_of_space 1 one_pos (List.forall_mem_singleton.mpr ⟨rfl, rfl⟩) ?_
  intro env width height hs
  refine (flowChartProcess_sketch hs).within ?_
  intro _
  simp [List.Forall, hs.width_pos.le, hs.height_pos.le]

theorem flowChartDecision_fits : (flowChartDecision : Preset ℝ).Fits := by
  refine Preset.fits_of_space 2 two_pos (List.forall_mem_singleton.mpr ⟨rfl, rfl⟩) ?_
  intro env width height hs
  refine (flowChartDecision_sketch hs).within ?_
  intro hguides
  obtain ⟨hir, hib⟩ := hguides
  simp only [Rect.Within, Point.Within, List.Forall, Nat.cast_ofNat]
  have hw := hs.width_pos
  have hh := hs.height_pos
  and_intros <;> linarith

theorem flowChartDocument_fits : (flowChartDocument : Preset ℝ).Fits := by
  refine Preset.fits_of_space 21600 (by decide) (List.forall_mem_singleton.mpr ⟨rfl, rfl⟩) ?_
  intro env width height hs
  refine (flowChartDocument_sketch hs).within ?_
  intro hguides
  obtain ⟨hy1, hy2⟩ := hguides
  simp only [Rect.Within, Point.Within, List.Forall, Nat.cast_ofNat]
  have hw := hs.width_pos
  have hh := hs.height_pos
  and_intros <;> linarith

theorem fits_of_mem : ∀ preset ∈ (presets : List (Preset ℝ)), preset.Fits := by
  simp only [presets, List.forall_mem_cons]
  exact ⟨rect_fits, roundRect_fits, ellipse_fits, triangle_fits, rtTriangle_fits, diamond_fits,
    parallelogram_fits, trapezoid_fits, hexagon_fits, octagon_fits, plus_fits, homePlate_fits,
    chevron_fits, rightArrow_fits, line_fits, can_fits, flowChartProcess_fits, flowChartDecision_fits,
    flowChartDocument_fits, nofun⟩

theorem ordered_of_mem : ∀ preset ∈ (presets : List (Preset ℝ)), Guide.Ordered preset.guides := by
  decide +kernel

theorem keepsBuiltins_of_mem : ∀ preset ∈ (presets : List (Preset ℝ)), preset.KeepsBuiltins := by
  have hchecked : ∀ preset ∈ (presets : List (Preset ℝ)),
      (∀ name ∈ (Builtin.guides (0 : ℝ) 0).map Prod.fst,
        name ∉ preset.adjustDefaults.map Guide.name ∧ name ∉ preset.guides.map Guide.name)
      ∧ (∀ guide ∈ preset.adjustDefaults, guide.name = "vf" → guide.formula = "val 115470")
      ∧ "vf" ∉ preset.guides.map Guide.name := by
    decide +kernel
  intro preset hm
  obtain ⟨hapart, hstretch, hnotMem⟩ := hchecked preset hm
  exact ⟨hapart, hstretch, hnotMem⟩

/-- The layout of a preset lies within its shape, whatever its adjust values are overridden with. -/
theorem layout_within {preset : Preset ℝ} (hpreset : preset ∈ presets) {width height : ℝ}
    (hwidth : 0 < width) (hheight : 0 < height) {overrides : Option (Table ℝ)}
    (hoverrides : ∀ values ∈ overrides, ∀ entry ∈ values.entries, preset.Adjusts entry) :
    (preset.resolve width height overrides).Within width height := by
  obtain ⟨pathWidth, pathHeight, hpaths, hfits⟩ := fits_of_mem preset hpreset
  have hsetting := Preset.setting_scope (keepsBuiltins_of_mem preset hpreset) hwidth hheight hoverrides
  obtain ⟨⟨hpw, hph⟩, hsketch⟩ := hfits hsetting
  exact Preset.resolve_within hwidth hheight (ordered_of_mem preset hpreset) hpaths hpw hph hsketch

/-- A hexagon whose adjust value is far out of its range, at its full stretch. -/
theorem layout_within_hexagon :
    let overrides : Table ℝ := ⟨[("adj", 1000000), ("vf", 115470)], by decide⟩
    (hexagon : Preset ℝ) ∈ presets ∧ (0 : ℝ) < 320 ∧ (0 : ℝ) < 240
      ∧ (∀ values ∈ some overrides, ∀ entry ∈ values.entries, (hexagon : Preset ℝ).Adjusts entry)
      ∧ ((hexagon : Preset ℝ).resolve 320 240 (some overrides)).Within 320 240 := by
  intro overrides
  have hpreset : (hexagon : Preset ℝ) ∈ presets := by simp [presets]
  have hwidth : (0 : ℝ) < 320 := by norm_num
  have hheight : (0 : ℝ) < 240 := by norm_num
  have hoverrides : ∀ values ∈ some overrides, ∀ entry ∈ values.entries,
      (hexagon : Preset ℝ).Adjusts entry := by
    rintro values ⟨rfl⟩
    refine List.forall_mem_cons.mpr ⟨?_, List.forall_mem_singleton.mpr ?_⟩
    · simp [Preset.Adjusts, hexagon]
    · norm_num [Preset.Adjusts, hexagon, IsStretch]
  exact ⟨hpreset, hwidth, hheight, hoverrides, layout_within hpreset hwidth hheight hoverrides⟩

end Catalogue

end ShapeGeometry
