import ShapeGeometry.Guide.Scope
import ShapeGeometry.Path.Tracer
import ShapeGeometry.Svg.PathData

namespace ShapeGeometry

structure Rect (γ : Type) where
  left : γ
  top : γ
  right : γ
  bottom : γ
  deriving DecidableEq, Repr

def Rect.map {γ δ : Type} (f : γ → δ) (rect : Rect γ) : Rect δ :=
  ⟨f rect.left, f rect.top, f rect.right, f rect.bottom⟩

structure ConnectionSite (α : Type) where
  x : α
  y : α
  /-- In degrees. -/
  angle : α
  deriving DecidableEq, Repr

/-- A shape resolved for a size: paths in numbers, the place for text, and the sites where
connectors attach. -/
structure Layout (α : Type) where
  paths : List (Outline α α)
  textRect : Option (Rect α)
  connectionSites : List (ConnectionSite α)
  deriving DecidableEq, Repr

/-- Traces every path onto a shape of the given size. -/
def Layout.trace {α : Type} [Scalar α] (layout : Layout α) (width height : α) :
    List (TracedPath α) :=
  layout.paths.map (·.trace width height)

/-- The path as the value of an SVG `d` attribute. -/
def TracedPath.svg (path : TracedPath Float) : String :=
  (Svg.PathData.ofPrimitives path.primitives).text

def Layout.svgPaths (layout : Layout Float) (width height : Float) : List String :=
  (layout.trace width height).map TracedPath.svg

/-- A path whose coordinates are references; those of angles are in units of which a degree has
60000. -/
abbrev PresetPath (α : Type) :=
  Outline α String

/-- Guides that adjust values control, and paths and a text rectangle whose coordinates refer to
the guides. -/
structure Preset (α : Type) where
  name : String
  /-- The adjust guides with their default values. -/
  adjustDefaults : List Guide
  guides : List Guide
  paths : List (PresetPath α)
  textRect : Option (Rect String)
  deriving DecidableEq, Repr

namespace Preset

variable {α : Type} [Scalar α]

/-- The defaults, each evaluated with the built-in guides alone, under the overrides. -/
def adjustValues (preset : Preset α) (width height : α) (overrides : Option (Table α)) : Table α :=
  let seed := Scope.ofSize width height
  let defaults := Table.ofList (preset.adjustDefaults.map fun g => (g.name, seed.evaluate g.formula))
  match overrides with
  | some values => defaults.insertAll values.entries
  | none => defaults

/-- The built-in guides, the adjust values, and then the guides of the preset in their order. -/
def scope (preset : Preset α) (width height : α) (overrides : Option (Table α)) : Scope α :=
  let adjust := preset.adjustValues width height overrides
  ((Scope.ofSize width height).withOverrides adjust.entries).defineAll preset.guides

end Preset

variable {α : Type} [Scalar α]

/-- The path in numbers, with its angles in degrees. -/
def Outline.resolve (path : PresetPath α) (scope : Scope α) : Outline α α where
  width := path.width
  height := path.height
  fill := path.fill
  stroke := path.stroke
  commands := path.commands.map fun command =>
    command.map scope.resolve fun angle => Angle.unitsToDegrees (scope.resolve angle)

def Preset.resolve (preset : Preset α) (width height : α) (overrides : Option (Table α)) :
    Layout α :=
  let scope := preset.scope width height overrides
  { paths := preset.paths.map (·.resolve scope)
    textRect := preset.textRect.map (·.map scope.resolve)
    connectionSites := [] }

end ShapeGeometry
