import ShapeGeometry.Shape.Catalogue

namespace ShapeGeometry

/-- A path whose paint may be left open. -/
structure CustomPath (α : Type) where
  width : Option α := none
  height : Option α := none
  fill : Option Fill := none
  stroke : Option Bool := none
  commands : List (PathCommand α)
  deriving DecidableEq, Repr

/-- A connection site in references. -/
structure SiteReference where
  angle : String
  x : String
  y : String
  deriving DecidableEq, Repr

/-- Paths that are in numbers already, and guides for the connection sites. -/
structure CustomShape (α : Type) where
  guides : List Guide
  paths : List (CustomPath α)
  connectionSites : List SiteReference
  deriving DecidableEq, Repr

/-- Paint that is left open is the normal fill and a stroke. -/
def CustomPath.resolve {α : Type} (path : CustomPath α) : Outline α α where
  width := path.width
  height := path.height
  fill := path.fill.getD .norm
  stroke := path.stroke.getD true
  commands := path.commands

variable {α : Type} [Scalar α]

def SiteReference.resolve (site : SiteReference) (scope : Scope α) : ConnectionSite α where
  x := scope.resolve site.x
  y := scope.resolve site.y
  angle := Angle.unitsToDegrees (scope.resolve site.angle)

namespace CustomShape

/-- The built-in guides, and then those of the shape in their order. -/
def scope (shape : CustomShape α) (width height : α) : Scope α :=
  (Scope.ofSize width height).defineAll shape.guides

def resolve (shape : CustomShape α) (width height : α) : Layout α where
  paths := shape.paths.map CustomPath.resolve
  textRect := none
  connectionSites := shape.connectionSites.map (·.resolve (shape.scope width height))

end CustomShape

/-- The geometry of a shape, as a document gives it. -/
inductive Geometry (α : Type) where
  /-- A preset by its name, with adjust values in place of the defaults. -/
  | preset (name : String) (adjustValues : Table α)
  | custom (shape : CustomShape α)

/-- Fails only for a preset that the catalogue does not have. -/
def Geometry.resolve? {α : Type} [Scalar α] (geometry : Geometry α) (width height : α) :
    Option (Layout α) :=
  match geometry with
  | preset name adjustValues => Catalogue.resolve? name width height (some adjustValues)
  | custom shape => some (shape.resolve width height)

end ShapeGeometry
