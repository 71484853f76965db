import ShapeGeometry.Proofs.Exact.Formula
import ShapeGeometry.Proofs.Path.Corners
import ShapeGeometry.Proofs.Shape.Adjustment

/-!
Layouts within the bounds of their shape, in exact arithmetic. A sketch is what matters for that of a preset: the
equations of its guides, its text rectangle and the corners of its paths.
-/

namespace ShapeGeometry

open Exact

@[simp] def Point.Within (p : Point ℝ) (width height : ℝ) : Prop :=
  (0 ≤ p.x ∧ p.x ≤ width) ∧ 0 ≤ p.y ∧ p.y ≤ height

@[simp] def Rect.Within (rect : Rect ℝ) (width height : ℝ) : Prop :=
  (0 ≤ rect.left ∧ rect.left ≤ rect.right ∧ rect.right ≤ width)
    ∧ 0 ≤ rect.top ∧ rect.top ≤ rect.bottom ∧ rect.bottom ≤ height

/-- There is a place for text in the shape, and every traced move or line goes to a point of the shape. -/
structure Layout.Within (layout : Layout ℝ) (width height : ℝ) : Prop where
  textRect : ∃ rect ∈ layout.textRect, rect.Within width height
  corners : ∀ path ∈ layout.trace width height, ∀ primitive ∈ path.primitives,
    ∀ p ∈ primitive.corner?, p.Within width height

/-- A preset as it is written, with numerals for literals. -/
structure Sketch where
  guides : List (String × Option (Formula Numeral))
  textRect : Option (Rect (Operand Numeral))
  corners : List (Point (Operand Numeral))

def Preset.sketch {α : Type} (preset : Preset α) : Sketch where
  guides := Guide.equations preset.guides
  textRect := preset.textRect.map (·.map Reference.written)
  corners := preset.paths.flatMap fun path =>
    (path.commands.filterMap PathCommand.corner?).map (Point.map Reference.written)

/-- Where guides have the values of their formulas, the text rectangle lies within the shape, and the corners
within the space of the path. -/
def Sketch.Within (sketch : Sketch) (env : String → ℝ) (width height pathWidth pathHeight : ℝ) : Prop :=
  (∀ guide ∈ sketch.guides, env guide.1 = formulaValue env guide.2) →
    (∃ rect ∈ sketch.textRect, (rect.map (operandValue env)).Within width height)
    ∧ ∀ p ∈ sketch.corners, (p.map (operandValue env)).Within pathWidth pathHeight

/-- What a sketch comes to for the values of names: the equations that its guides are, the text rectangle, and the
corners. -/
def Sketch.ComesTo (sketch : Sketch) (env : String → ℝ) (equations : Prop) (rect : Rect ℝ)
    (corners : List (Point ℝ)) : Prop :=
  ((∀ guide ∈ sketch.guides, env guide.1 = formulaValue env guide.2) ↔ equations)
    ∧ sketch.textRect.map (·.map (operandValue env)) = some rect
    ∧ sketch.corners.map (·.map (operandValue env)) = corners

theorem Sketch.ComesTo.within {sketch : Sketch} {env : String → ℝ} {equations : Prop} {rect : Rect ℝ}
    {corners : List (Point ℝ)} (h : sketch.ComesTo env equations rect corners)
    {width height pathWidth pathHeight : ℝ}
    (hwithin : equations → rect.Within width height ∧ corners.Forall (·.Within pathWidth pathHeight)) :
    sketch.Within env width height pathWidth pathHeight := by
  obtain ⟨hiff, hrect, rfl⟩ := h
  intro hguides
  obtain ⟨hin, hcorners⟩ := hwithin (hiff.mp hguides)
  obtain ⟨written, hwritten, rfl⟩ := Option.map_eq_some_iff.mp hrect
  refine ⟨⟨written, hwritten, hin⟩, ?_⟩
  exact List.forall_mem_map.mp (List.forall_iff_forall_mem.mp hcorners)

@[simp] theorem Rect.map_mk {γ δ : Type} (f : γ → δ) (left top right bottom : γ) :
    (Rect.mk left top right bottom).map f = ⟨f left, f top, f right, f bottom⟩ :=
  rfl

@[simp] theorem Point.map_mk {γ δ : Type} (f : γ → δ) (x y : γ) : (Point.mk x y).map f = ⟨f x, f y⟩ :=
  rfl

theorem Rect.map_map {β γ δ : Type} (f : β → γ) (g : γ → δ) (rect : Rect β) :
    (rect.map f).map g = rect.map (g ∘ f) :=
  rfl

theorem Point.map_map {β γ δ : Type} (f : β → γ) (g : γ → δ) (p : Point β) :
    (p.map f).map g = p.map (g ∘ f) :=
  rfl

/-- An axis of the path that is stretched to that of the shape. -/
theorem Exact.mul_axisScale_mem {extent : Option ℝ} {shape x : ℝ} (hs : 0 < shape)
    (he : 0 < extent.getD shape) (h : 0 ≤ x ∧ x ≤ extent.getD shape) :
    0 ≤ x * Tracer.axisScale extent shape ∧ x * Tracer.axisScale extent shape ≤ shape := by
  cases extent with
  | none =>
    rw [axisScale_none, mul_one]
    exact h
  | some extent =>
    rw [Option.getD_some] at he h
    rw [axisScale_some he, mul_div_assoc']
    exact ⟨div_nonneg (mul_nonneg h.1 hs.le) he.le,
      (div_le_iff₀ he).mpr ((mul_comm x shape).trans_le (mul_le_mul_of_nonneg_left h.2 hs.le))⟩

theorem Outline.corners_resolve {α : Type} [Scalar α] (path : PresetPath α) (scope : Scope α) :
    (path.resolve scope).commands.filterMap PathCommand.corner?
      = (path.commands.filterMap PathCommand.corner?).map (Point.map scope.resolve) := by
  rw [resolve, List.filterMap_map, List.map_filterMap]
  congr 1
  funext command
  exact command.corner?_map scope.resolve _

/-- The values that a preset's names come to satisfy the equations that its guides are written as. -/
theorem Preset.solves_sketch {preset : Preset ℝ} (hordered : Guide.Ordered preset.guides) (width height : ℝ)
    (overrides : Option (Table ℝ)) :
    let env := (preset.scope width height overrides).get
    ∀ guide ∈ preset.sketch.guides, env guide.1 = formulaValue env guide.2 := by
  have hsolves : (preset.scope width height overrides).Solves preset.guides := by
    rw [scope_eq]
    exact Scope.solves_defineAll _ hordered
  exact (solves_iff _ _).mp hsolves

theorem Preset.textRect_resolve (preset : Preset ℝ) (width height : ℝ) (overrides : Option (Table ℝ)) :
    (preset.resolve width height overrides).textRect
      = preset.sketch.textRect.map (·.map (operandValue (preset.scope width height overrides).get)) := by
  change preset.textRect.map (·.map (preset.scope width height overrides).resolve) = _
  simp only [resolve_eq, sketch, Option.map_map, Function.comp_def, Rect.map_map]

/-- The layout of a preset lies within the shape if its sketch does. -/
theorem Preset.resolve_within {preset : Preset ℝ} {width height : ℝ} {overrides : Option (Table ℝ)}
    {pathWidth pathHeight : Option ℝ} (hw : 0 < width) (hh : 0 < height)
    (hordered : Guide.Ordered preset.guides)
    (hextents : ∀ path ∈ preset.paths, path.width = pathWidth ∧ path.height = pathHeight)
    (hpw : 0 < pathWidth.getD width) (hph : 0 < pathHeight.getD height)
    (h : preset.sketch.Within (preset.scope width height overrides).get width height
      (pathWidth.getD width) (pathHeight.getD height)) :
    (preset.resolve width height overrides).Within width height := by
  obtain ⟨⟨written, hrect, hwithin⟩, hcorners⟩ := h (solves_sketch hordered width height overrides)
  have hresolve := resolve_eq (preset.scope width height overrides)
  constructor
  · refine ⟨_, ?_, hwithin⟩
    rw [textRect_resolve]
    exact Option.mem_map_of_mem _ hrect
  · intro traced htraced primitive hprimitive p hp
    obtain ⟨outline, ho, rfl⟩ := List.mem_map.mp htraced
    obtain ⟨path, hpath, rfl⟩ := List.mem_map.mp ho
    obtain ⟨rfl, rfl⟩ := hextents path hpath
    have hm : p ∈ (trace (path.resolve (preset.scope width height overrides)).commands path.width
        path.height width height).filterMap Primitive.corner? :=
      List.mem_filterMap.mpr ⟨primitive, hprimitive, hp⟩
    rw [corners_trace, Outline.corners_resolve, List.map_map] at hm
    obtain ⟨corner, hcorner, rfl⟩ := List.mem_map.mp hm
    have hin := hcorners (corner.map Reference.written)
      (List.mem_flatMap.mpr ⟨path, hpath, List.mem_map.mpr ⟨corner, hcorner, rfl⟩⟩)
    rw [Point.map_map, ← hresolve] at hin
    exact ⟨mul_axisScale_mem hw hpw hin.1, mul_axisScale_mem hh hph hin.2⟩

end ShapeGeometry
