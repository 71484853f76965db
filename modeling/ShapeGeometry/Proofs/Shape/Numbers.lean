import ShapeGeometry.Proofs.Guide.Numbers
import ShapeGeometry.Proofs.Shape.Adjustment
import ShapeGeometry.Proofs.Shape.Coordinates
import ShapeGeometry.Shape.Geometry

namespace ShapeGeometry

theorem Angle.isNaN_unitsToDegrees {angle : Float} (h : angle.isNaN = false) :
    (unitsToDegrees angle).isNaN = false :=
  Binary64.isNaN_div h (by decide) (by decide)

theorem Scope.isNaN_evaluateEach (scope : Scope Float) (guides : List Guide) :
    ∀ entry ∈ scope.evaluateEach guides, entry.2.isNaN = false := by
  intro entry hm
  obtain ⟨guide, -, rfl⟩ := List.mem_map.mp hm
  exact scope.isNaN_evaluate guide.formula

/-- A path in numbers, though its references are arbitrary texts. -/
theorem Outline.isNaN_resolve {scope : Scope Float} (h : scope.Numeric) (path : PresetPath Float) :
    ∀ command ∈ (path.resolve scope).commands, ∀ c ∈ command.coordinates, c.isNaN = false := by
  intro command hm
  obtain ⟨written, -, rfl⟩ := List.mem_map.mp hm
  exact PathCommand.forall_coordinates_map (fun c _ => h.resolve c)
    fun c _ => Angle.isNaN_unitsToDegrees (h.resolve c)

theorem SiteReference.isNaN_resolve {scope : Scope Float} (h : scope.Numeric) (site : SiteReference) :
    (site.resolve scope).x.isNaN = false ∧ (site.resolve scope).y.isNaN = false
      ∧ (site.resolve scope).angle.isNaN = false := by
  simp only [resolve]
  exact ⟨h.resolve site.x, h.resolve site.y, Angle.isNaN_unitsToDegrees (h.resolve site.angle)⟩

namespace Preset

variable {width height : Float} {overrides : Option (Table Float)} (preset : Preset Float)

theorem isNaN_adjustValues
    (ho : ∀ values ∈ overrides, values.All fun value => value.isNaN = false) :
    (preset.adjustValues width height overrides).All fun value => value.isNaN = false := by
  have hdefaults : (Table.ofList ((Scope.ofSize width height).evaluateEach
      preset.adjustDefaults)).All fun value => value.isNaN = false :=
    Table.all_ofList (Scope.isNaN_evaluateEach _ _)
  cases overrides with
  | none => exact hdefaults
  | some values => exact hdefaults.insertAll (ho values rfl)

theorem numeric_scope (hw : width.isNaN = false) (hh : height.isNaN = false)
    (ho : ∀ values ∈ overrides, values.All fun value => value.isNaN = false) :
    (preset.scope width height overrides).Numeric := by
  have hadjusted : (preset.adjusted width height overrides).Numeric :=
    (Scope.numeric_ofSize hw hh).insertAll (preset.isNaN_adjustValues ho)
  rw [scope_eq]
  exact hadjusted.defineAll preset.guides

end Preset

/-- Nothing that is resolved is anything but a number, whatever the formulas and the references are. For the
scope this holds after every run of its operations that is handed nothing else. -/
theorem resolves_to_numbers {width height : Float} (hw : width.isNaN = false)
    (hh : height.isNaN = false) :
    (∀ operations : List (Operation Float),
        (∀ operation ∈ operations, ∀ value ∈ operation.supplied, value.isNaN = false) →
        ∀ reference, (((Scope.ofSize width height).run operations).get reference).isNaN = false
          ∧ (((Scope.ofSize width height).run operations).resolve reference).isNaN = false)
    ∧ (∀ (preset : Preset Float) (overrides : Option (Table Float)),
        (∀ values ∈ overrides, values.All fun value => value.isNaN = false) →
        (∀ path ∈ (preset.resolve width height overrides).paths,
          ∀ command ∈ path.commands, ∀ c ∈ command.coordinates, c.isNaN = false)
        ∧ ∀ rect ∈ (preset.resolve width height overrides).textRect,
          ∀ edge ∈ rect.edges, edge.isNaN = false)
    ∧ ∀ shape : CustomShape Float, ∀ site ∈ (shape.resolve width height).connectionSites,
        site.x.isNaN = false ∧ site.y.isNaN = false ∧ site.angle.isNaN = false := by
  have hstart := Scope.numeric_ofSize hw hh
  refine ⟨?_, ?_, ?_⟩
  · intro operations hs reference
    have hrun := hstart.run hs
    exact ⟨hrun.get reference, hrun.resolve reference⟩
  · intro preset overrides ho
    have hscope := preset.numeric_scope hw hh ho
    constructor
    · intro path hm
      obtain ⟨written, -, rfl⟩ := List.mem_map.mp hm
      exact Outline.isNaN_resolve hscope written
    · intro rect hm
      obtain ⟨written, -, rfl⟩ := Option.map_eq_some_iff.mp hm
      rw [Rect.edges_map]
      exact List.forall_mem_map.mpr fun reference _ => hscope.resolve reference
  · intro shape site hm
    obtain ⟨written, -, rfl⟩ := List.mem_map.mp hm
    have hscope : (shape.scope width height).Numeric := hstart.defineAll shape.guides
    exact written.isNaN_resolve hscope

/-- Infinities of both signs, differences and products of them that are no numbers before they are caught, a pole
of the tangent, a formula that cannot be read, and names that nobody defines. -/
theorem resolves_to_numbers_infinite :
    let infinity : Float := 1 / 0
    let guides : List Guide :=
      [⟨"gap", "+- w 0 far"⟩, ⟨"none", "*/ 0 h 1"⟩, ⟨"bad", "oops w"⟩, ⟨"pole", "tan far cd4"⟩,
        ⟨"far", "*/ nowhere gap 0"⟩]
    let operations : List (Operation Float) :=
      [.set "far" (-infinity), .evaluateGuides guides, .withOverrides [("w", infinity)],
        .evaluateGuide ⟨"w", "+- w 0 w"⟩]
    let preset : Preset Float :=
      { name := "endless"
        adjustDefaults := [⟨"far", "val 5"⟩]
        guides
        paths := [{ commands := [.moveTo "gap" " pole", .arcTo "w" "h" "3cd4" "far"] }]
        textRect := some ⟨"l", "bad", "r", "nowhere"⟩ }
    let overrides : Table Float := ⟨[("far", -infinity)], by decide⟩
    let shape : CustomShape Float := ⟨guides, [], [⟨"pole", "gap", "w"⟩]⟩
    (-infinity).isNaN = false ∧ infinity.isNaN = false
      ∧ (-infinity + 0 - -infinity).isNaN = true ∧ (0 * infinity).isNaN = true
      ∧ (∀ operation ∈ operations, ∀ value ∈ operation.supplied, value.isNaN = false)
      ∧ (∀ values ∈ some overrides, values.All fun value => value.isNaN = false)
      ∧ (∀ reference,
          (((Scope.ofSize (-infinity) infinity).run operations).resolve reference).isNaN = false)
      ∧ (∀ path ∈ (preset.resolve (-infinity) infinity (some overrides)).paths,
          ∀ command ∈ path.commands, ∀ c ∈ command.coordinates, c.isNaN = false)
      ∧ (∀ rect ∈ (preset.resolve (-infinity) infinity (some overrides)).textRect,
          ∀ edge ∈ rect.edges, edge.isNaN = false)
      ∧ ∀ site ∈ (shape.resolve (-infinity) infinity).connectionSites, site.angle.isNaN = false := by
  intro infinity guides operations preset overrides shape
  have hwidth : (-infinity).isNaN = false := by decide
  have hheight : infinity.isNaN = false := by decide
  have hsupplied : ∀ operation ∈ operations, ∀ value ∈ operation.supplied, value.isNaN = false := by
    decide
  have hoverrides : ∀ values ∈ some overrides, values.All fun value => value.isNaN = false := by
    rintro values ⟨⟩
    exact List.forall_mem_singleton.mpr hwidth
  obtain ⟨hscope, hpreset, hshape⟩ := resolves_to_numbers hwidth hheight
  obtain ⟨hpaths, hrect⟩ := hpreset preset (some overrides) hoverrides
  exact ⟨hwidth, hheight, by decide, by decide, hsupplied, hoverrides,
    fun reference => (hscope operations hsupplied reference).2, hpaths, hrect,
    fun site hm => (hshape shape site hm).2.2⟩

end ShapeGeometry
