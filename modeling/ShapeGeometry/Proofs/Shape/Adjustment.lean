import ShapeGeometry.Proofs.Guide.Agreement
import ShapeGeometry.Shape.Preset

namespace ShapeGeometry.Preset

variable {α : Type} [Scalar α]

/-- The value of the last default that is declared for a name. -/
def default? (preset : Preset α) (width height : α) (name : String) : Option α :=
  (preset.adjustDefaults.reverse.find? (·.name = name)).map fun guide =>
    (Scope.ofSize width height).evaluate guide.formula

/-- The built-in guides and the adjust values, before any guide of the preset is defined. -/
def adjusted (preset : Preset α) (width height : α) (overrides : Option (Table α)) : Scope α :=
  (Scope.ofSize width height).withOverrides (preset.adjustValues width height overrides).entries

theorem scope_eq (preset : Preset α) (width height : α) (overrides : Option (Table α)) :
    preset.scope width height overrides
      = (preset.adjusted width height overrides).defineAll preset.guides :=
  rfl

theorem lookup_evaluateEach (scope : Scope α) (guides : List Guide) (name : String) :
    (scope.evaluateEach guides).lookup name
      = (guides.find? (·.name = name)).map fun guide => scope.evaluate guide.formula := by
  induction guides with
  | nil => rfl
  | cons guide guides ih =>
    rw [Scope.evaluateEach, List.map_cons, Table.lookup_entry, ← Scope.evaluateEach, ih, List.find?_cons]
    by_cases h : guide.name = name
    · simp [h]
    · simp [h, Ne.symm h]

theorem find?_defaults (preset : Preset α) (width height : α) (name : String) :
    (Table.ofList ((Scope.ofSize width height).evaluateEach preset.adjustDefaults)).find? name
      = preset.default? width height name := by
  rw [Table.ofList, Table.find?_insertAll_last, Table.find?_empty, Option.or_none, default?,
    ← lookup_evaluateEach, Scope.evaluateEach, Scope.evaluateEach, List.map_reverse]

/-- A name has its override as its adjust value, or else the last default that is declared for it. -/
theorem find?_adjustValues (preset : Preset α) (width height : α) (overrides : Option (Table α))
    (name : String) :
    (preset.adjustValues width height overrides).find? name
      = (overrides.bind (·.find? name)).or (preset.default? width height name) := by
  rw [← find?_defaults]
  cases overrides with
  | none => rfl
  | some values => exact Table.find?_insertAll _ values.nodup name

theorem find?_adjusted (preset : Preset α) (width height : α) (overrides : Option (Table α))
    (name : String) :
    (preset.adjusted width height overrides).table.find? name
      = (overrides.bind (·.find? name)).or
        ((preset.default? width height name).or ((Scope.ofSize width height).table.find? name)) := by
  rw [adjusted, Scope.find?_withOverrides, find?_adjustValues, Option.or_assoc]

end ShapeGeometry.Preset
