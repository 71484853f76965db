import ShapeGeometry.Binary64
import ShapeGeometry.Proofs.Guide.Liveness
import ShapeGeometry.Proofs.Shape.Adjustment
import ShapeGeometry.Proofs.Shape.Coordinates

namespace ShapeGeometry

/-- The name that a reference looks up, unless it is a number. -/
def Reference.name? (α : Type) [Scalar α] (reference : String) : Option String :=
  (Operand.ofToken (Text.trim reference) : Operand α).name?

def Outline.references {α : Type} (path : PresetPath α) : List String :=
  path.commands.flatMap PathCommand.coordinates

def Preset.references {α : Type} (preset : Preset α) : List String :=
  preset.paths.flatMap Outline.references ++ preset.textRect.toList.flatMap Rect.edges

variable {α : Type} [Scalar α]

theorem Scope.resolve_congr {scope other : Scope α} {reference : String}
    (h : ∀ name ∈ Reference.name? α reference, scope.get name = other.get name) :
    scope.resolve reference = other.resolve reference :=
  Operand.value_congr h

theorem Outline.resolve_congr {path : PresetPath α} {scope other : Scope α}
    (h : ∀ reference ∈ path.references, scope.resolve reference = other.resolve reference) :
    path.resolve scope = path.resolve other := by
  have hcommands : ∀ command ∈ path.commands,
      (command.map scope.resolve fun angle => Angle.unitsToDegrees (scope.resolve angle))
        = command.map other.resolve fun angle => Angle.unitsToDegrees (other.resolve angle) := by
    intro command hm
    have hcoordinates : ∀ c ∈ command.coordinates, scope.resolve c = other.resolve c :=
      fun c hc => h c (List.mem_flatMap.mpr ⟨command, hm, hc⟩)
    exact PathCommand.map_congr hcoordinates fun c hc => by rw [hcoordinates c hc]
  rw [resolve, resolve, List.map_congr_left hcommands]

namespace Preset

variable (preset : Preset α)

/-- The names that paths and text rectangle look up. -/
def needed : Finset String :=
  (preset.references.filterMap (Reference.name? α)).toFinset

/-- The names and the guides that the layout depends on. -/
def liveness : Liveness :=
  .ofGuides α preset.guides preset.needed

/-- The layout that a preset has in a scope. -/
def layout (scope : Scope α) : Layout α where
  paths := preset.paths.map (·.resolve scope)
  textRect := preset.textRect.map (·.map scope.resolve)
  connectionSites := []

theorem resolve_eq_layout (width height : α) (overrides : Option (Table α)) :
    preset.resolve width height overrides = preset.layout (preset.scope width height overrides) :=
  rfl

/-- A layout shows the values of the needed names and nothing else of a scope. -/
theorem layout_congr {scope other : Scope α} (h : Scope.AgreesOn preset.needed scope other) :
    preset.layout scope = preset.layout other := by
  have hreferences : ∀ reference ∈ preset.references,
      scope.resolve reference = other.resolve reference := by
    intro reference hr
    apply Scope.resolve_congr
    intro name hn
    exact h name (List.mem_toFinset.mpr (List.mem_filterMap.mpr ⟨reference, hr, hn⟩))
  have hpaths : preset.paths.map (·.resolve scope) = preset.paths.map (·.resolve other) := by
    apply List.map_congr_left
    intro path hm
    apply Outline.resolve_congr
    intro reference hr
    exact hreferences reference (List.mem_append_left _ (List.mem_flatMap.mpr ⟨path, hm, hr⟩))
  have hrect : preset.textRect.map (·.map scope.resolve) = preset.textRect.map (·.map other.resolve) := by
    apply Option.map_congr
    intro rect hm
    apply Rect.map_congr
    intro reference hr
    exact hreferences reference
      (List.mem_append_right _ (List.mem_flatMap.mpr ⟨rect, Option.mem_toList.mpr hm, hr⟩))
  rw [layout, layout, hpaths, hrect]

/-- Overrides that agree on some names start scopes that do. -/
theorem agreesOn_adjusted (width height : α) {overrides others : Option (Table α)}
    {names : Finset String}
    (h : ∀ name ∈ names, overrides.bind (·.find? name) = others.bind (·.find? name)) :
    Scope.AgreesOn names (preset.adjusted width height overrides)
      (preset.adjusted width height others) := by
  intro name hn
  rw [Scope.get, Scope.get, find?_adjusted, find?_adjusted, h name hn]

/-- Liveness is sound. Only overrides of live names make a difference to the layout of a preset, and of its
guides only the live ones, which stand in their order in the preset. -/
theorem resolve_live (width height : α) :
    preset.liveness.guides.Sublist preset.guides
    ∧ (∀ overrides others : Option (Table α),
        (∀ name ∈ preset.liveness.names, overrides.bind (·.find? name) = others.bind (·.find? name)) →
        preset.resolve width height overrides = preset.resolve width height others)
    ∧ ∀ overrides : Option (Table α),
        Preset.resolve { preset with guides := preset.liveness.guides } width height overrides
          = preset.resolve width height overrides := by
  refine ⟨Liveness.guides_sublist _ _, ?_, ?_⟩
  · intro overrides others h
    have hstart := preset.agreesOn_adjusted width height h
    rw [resolve_eq_layout, resolve_eq_layout, scope_eq, scope_eq]
    exact preset.layout_congr hstart.defineAll_same
  · intro overrides
    have hall : Scope.AgreesOn preset.needed (preset.scope width height overrides)
        ((preset.adjusted width height overrides).defineAll preset.liveness.guides) :=
      (Scope.AgreesOn.refl _ _).defineAll
    exact (preset.layout_congr hall).symm

/-- A guide that is defined twice and hides an override, an operand beyond the arity, a formula that cannot be
read, and references with blanks around them. -/
theorem resolve_live_shadowed :
    let preset : Preset Float :=
      { name := "shadowed"
        adjustDefaults := [⟨"adj", "val 16667"⟩, ⟨"unused", "val 5"⟩]
        guides := [⟨"x1", "*/ w adj 100000"⟩, ⟨"dead", "val unused"⟩, ⟨"x1", "+- x1 0 0 unused"⟩,
          ⟨"bad", "oops unused"⟩]
        paths := [{ commands := [.moveTo " x1\t" "bad", .arcTo "x1" "4" "0" "x1"] }]
        textRect := some ⟨"l", "0", "x1", "b"⟩ }
    let overrides : Table Float := ⟨[("adj", 1), ("unused", 2), ("x1", 3), ("bad", 7)], by decide⟩
    let others : Table Float := ⟨[("dead", 9), ("adj", 1)], by decide⟩
    preset.liveness.names = {"w", "adj", "l", "b"}
      ∧ (∀ name ∈ preset.liveness.names, overrides.find? name = others.find? name)
      ∧ preset.resolve 100 50 (some overrides) = preset.resolve 100 50 (some others) := by
  intro preset overrides others
  have hneeded : preset.needed = {"x1", "bad", "l", "b"} := by decide
  have hnames : preset.liveness.names = {"w", "adj", "l", "b"} := by
    simp only [liveness, hneeded, preset, Liveness.ofGuides, List.foldr_cons, List.foldr_nil,
      Liveness.visit, Guide.mentions_eq]
    decide
  have hagree : ∀ name ∈ preset.liveness.names, overrides.find? name = others.find? name := by
    rw [hnames]
    decide
  exact ⟨hnames, hagree, (preset.resolve_live 100 50).2.1 (some overrides) (some others) hagree⟩

end Preset

end ShapeGeometry
