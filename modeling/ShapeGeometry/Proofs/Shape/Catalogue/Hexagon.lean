import ShapeGeometry.Proofs.Shape.Catalogue

namespace ShapeGeometry.Catalogue

/-- The greatest adjust value of a hexagon, at which its upper corners meet. -/
noncomputable def hexagonRange (width height : ℝ) : ℝ :=
  50000 * width / min width height

theorem hexagonRange_pos {width height : ℝ} (hwidth : 0 < width) (hheight : 0 < height) :
    0 < hexagonRange width height :=
  div_pos (mul_pos (by norm_num) hwidth) (lt_min hwidth hheight)

/-- The text rectangle of a hexagon whose handle stands at a share of its range. -/
noncomputable def hexagonFrame (width height share : ℝ) : Rect ℝ where
  left := hexagonMargin width share
  top := hexagonMargin height share
  right := width - hexagonMargin width share
  bottom := height - hexagonMargin height share

noncomputable def hexagonShare (width height adjust : ℝ) : ℝ :=
  adjust / hexagonRange width height

section Text

open Exact

/-- The override of the adjust value, and of nothing else. -/
def adjustment (adjust : ℝ) : Table ℝ :=
  ⟨[("adj", adjust)], List.nodup_singleton "adj"⟩

/-- The text rectangle of the hexagon with an adjust value. -/
noncomputable def hexagonText (width height adjust : ℝ) : Option (Rect ℝ) :=
  (hexagon.resolve width height (some (adjustment adjust))).textRect

theorem hexagon_sketch_textRect {env : String → ℝ} {width height : ℝ} (hs : Setting env width height)
    (hadjust : 0 ≤ env "adj" ∧ env "adj" ≤ hexagonRange width height)
    (hguides : ∀ guide ∈ (hexagon : Preset ℝ).sketch.guides, env guide.1 = formulaValue env guide.2) :
    (hexagon : Preset ℝ).sketch.textRect.map (·.map (operandValue env))
      = some (hexagonFrame width height (hexagonShare width height (env "adj"))) := by
  obtain ⟨hiff, hrect, -⟩ := hexagon_sketch hs
  obtain ⟨hmaxAdj, ha, -, -, -, -, -, -, hq1, hq2, hq3, hq4, hq5, hq6, hq7, hq8, hil, hit, hir, hib⟩ :=
    hiff.mp hguides
  have hlength : 0 < 50000 * width := mul_pos (by norm_num) hs.width_pos
  have hpos := hs.measure_pos hlength hmaxAdj
  have hrange : env "maxAdj" = hexagonRange width height := by
    rw [hmaxAdj, hs.short_eq]
    rfl
  have hpin : env "a" = env "adj" := by
    rw [ha, hrange, apply_pin_of_mem hadjust]
  have hinset := inset_eq_hexagonInset hpos hq1 hq2 hq3 hq4 hq5 hq6 hq7 hq8
  rw [hpin, hrange] at hinset
  rw [hinset] at hil hit
  rw [hrect, hir, hib, hil, hit]
  rfl

theorem hexagonText_eq {width height adjust : ℝ} (hwidth : 0 < width) (hheight : 0 < height)
    (hadjust : 0 ≤ adjust ∧ adjust ≤ hexagonRange width height) :
    hexagonText width height adjust = some (hexagonFrame width height (hexagonShare width height adjust)) := by
  have hpreset : (hexagon : Preset ℝ) ∈ presets := by simp [presets]
  have hoverrides : ∀ values ∈ some (adjustment adjust), ∀ entry ∈ values.entries,
      (hexagon : Preset ℝ).Adjusts entry := by
    rintro values ⟨rfl⟩
    exact List.forall_mem_singleton.mpr (by simp [Preset.Adjusts, hexagon])
  have hs := Preset.setting_scope (keepsBuiltins_of_mem _ hpreset) hwidth hheight hoverrides
  have hguides := Preset.solves_sketch (ordered_of_mem _ hpreset) width height (some (adjustment adjust))
  have hvalue : (hexagon.scope width height (some (adjustment adjust))).get "adj" = adjust :=
    Preset.get_scope_override (by simp [hexagon]) rfl
  have htext := hexagon_sketch_textRect hs (hvalue.symm ▸ hadjust) hguides
  rw [hexagonText, Preset.textRect_resolve, htext, hvalue]

end Text

/-- The text of a hexagon follows its handle, on either side of the middle of the range. A pass over the middle takes
each side of the text rectangle farther than that, by a twelfth to an eighth of the size. -/
theorem hexagonText_jumps {width height a₁ a₂ : ℝ} (hwidth : 0 < width) (hheight : 0 < height)
    (h₁ : 0 ≤ a₁ ∧ a₁ ≤ hexagonRange width height) (h₂ : 0 ≤ a₂ ∧ a₂ ≤ hexagonRange width height) :
    let range := hexagonRange width height
    let bound (length : ℝ) := length / 4 * |a₁ - a₂| / range
    ∃ r₁ ∈ hexagonText width height a₁, ∃ r₂ ∈ hexagonText width height a₂,
      (∀ r ∈ [r₁, r₂], r.right = width - r.left ∧ r.bottom = height - r.top)
      ∧ ((a₁ ≤ range / 2 ↔ a₂ ≤ range / 2) →
        |r₁.left - r₂.left| ≤ bound width ∧ |r₁.top - r₂.top| ≤ bound height)
      ∧ (¬ (a₁ ≤ range / 2 ↔ a₂ ≤ range / 2) →
        (bound width + width / 12 ≤ |r₁.left - r₂.left| ∧ |r₁.left - r₂.left| ≤ bound width + width / 8)
        ∧ bound height + height / 12 ≤ |r₁.top - r₂.top| ∧ |r₁.top - r₂.top| ≤ bound height + height / 8) := by
  intro range bound
  have hrange : 0 < range := hexagonRange_pos hwidth hheight
  have hmiddle (a : ℝ) : a ≤ range / 2 ↔ a / range ≤ 1 / 2 := by
    rw [div_le_div_iff₀ hrange two_pos, le_div_iff₀ two_pos, one_mul]
  have hshare : |a₁ / range - a₂ / range| = |a₁ - a₂| / range := by
    rw [← sub_div, abs_div, abs_of_pos hrange]
  have hbound (length : ℝ) : bound length = length / 4 * |a₁ / range - a₂ / range| := by
    rw [hshare]
    exact mul_div_assoc _ _ _
  refine ⟨_, hexagonText_eq hwidth hheight h₁, _, hexagonText_eq hwidth hheight h₂, ?_, ?_, ?_⟩
  · exact List.forall_mem_cons.mpr ⟨⟨rfl, rfl⟩, List.forall_mem_singleton.mpr ⟨rfl, rfl⟩⟩
  · intro hside
    rw [hmiddle, hmiddle] at hside
    rw [hbound, hbound]
    exact ⟨abs_hexagonMargin_sub_le hwidth hside, abs_hexagonMargin_sub_le hheight hside⟩
  · intro hside
    rw [hmiddle, hmiddle] at hside
    rw [hbound, hbound]
    have hshare₁ := div_nonneg h₁.1 hrange.le
    have hshare₂ := div_nonneg h₂.1 hrange.le
    exact ⟨abs_hexagonMargin_sub_mem hwidth hshare₁ hshare₂ hside,
      abs_hexagonMargin_sub_mem hheight hshare₁ hshare₂ hside⟩

/-- Two adjust values below the middle, which is at 33333 here. -/
theorem hexagonText_jumps_below :
    (0 : ℝ) < 320 ∧ (0 : ℝ) < 240 ∧ ((0 : ℝ) ≤ 20000 ∧ 20000 ≤ hexagonRange 320 240)
      ∧ ((0 : ℝ) ≤ 30000 ∧ 30000 ≤ hexagonRange 320 240)
      ∧ ∃ r₁ ∈ hexagonText 320 240 20000, ∃ r₂ ∈ hexagonText 320 240 30000,
        |r₁.left - r₂.left| ≤ 12 ∧ |r₁.top - r₂.top| ≤ 9 := by
  have hrange : hexagonRange 320 240 = 200000 / 3 := by norm_num [hexagonRange]
  have hwidth : (0 : ℝ) < 320 := by norm_num
  have hheight : (0 : ℝ) < 240 := by norm_num
  have h₁ : (0 : ℝ) ≤ 20000 ∧ 20000 ≤ hexagonRange 320 240 := by norm_num [hrange]
  have h₂ : (0 : ℝ) ≤ 30000 ∧ 30000 ≤ hexagonRange 320 240 := by norm_num [hrange]
  obtain ⟨r₁, hr₁, r₂, hr₂, -, hside, -⟩ := hexagonText_jumps hwidth hheight h₁ h₂
  have hbound := hside (by norm_num [hrange])
  norm_num [hrange] at hbound
  exact ⟨hwidth, hheight, h₁, h₂, r₁, hr₁, r₂, hr₂, hbound⟩

/-- The text of a hexagon of 240 by 240 whose handle moves by 25 from the middle. Its place on the slope would be 0.03
from where it was. -/
theorem hexagonText_past_middle :
    ((0 : ℝ) ≤ 25000 ∧ 25000 ≤ hexagonRange 240 240) ∧ ((0 : ℝ) ≤ 25025 ∧ 25025 ≤ hexagonRange 240 240)
      ∧ hexagonText 240 240 25000 = some ⟨40, 40, 200, 200⟩
      ∧ hexagonText 240 240 25025 = some ⟨70.03, 70.03, 169.97, 169.97⟩
      ∧ ¬ |(40 : ℝ) - 70.03| ≤ 240 / 4 * |25000 - 25025| / hexagonRange 240 240 := by
  have hrange : hexagonRange 240 240 = 50000 := by norm_num [hexagonRange]
  have hsize : (0 : ℝ) < 240 := by norm_num
  have h₁ : (0 : ℝ) ≤ 25000 ∧ 25000 ≤ hexagonRange 240 240 := by norm_num [hrange]
  have h₂ : (0 : ℝ) ≤ 25025 ∧ 25025 ≤ hexagonRange 240 240 := by norm_num [hrange]
  refine ⟨h₁, h₂, ?_, ?_, ?_⟩
  · rw [hexagonText_eq hsize hsize h₁]
    norm_num [hexagonFrame, hexagonShare, hrange, hexagonMargin, hexagonInset]
  · rw [hexagonText_eq hsize hsize h₂]
    norm_num [hexagonFrame, hexagonShare, hrange, hexagonMargin, hexagonInset]
  · norm_num [hrange, abs_of_neg]

end ShapeGeometry.Catalogue
