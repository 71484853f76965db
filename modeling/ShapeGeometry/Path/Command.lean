namespace ShapeGeometry

/-- How the inside of a path is painted. -/
inductive Fill where
  | none
  | norm
  | lighten
  | lightenLess
  | darken
  | darkenLess
  deriving DecidableEq, Repr

namespace Fill

def all : List Fill :=
  [none, norm, lighten, lightenLess, darken, darkenLess]

/-- The value of a path's `fill` attribute. -/
def name : Fill → String
  | none => "none"
  | norm => "norm"
  | lighten => "lighten"
  | lightenLess => "lightenLess"
  | darken => "darken"
  | darkenLess => "darkenLess"

/-- Reads an attribute; a value that is not known stands for the normal fill. -/
def ofAttribute (value : String) : Fill :=
  (all.find? (·.name = value)).getD norm

end Fill

/-- A command over coordinates of type `γ`. An arc starts at the current point, which lies on its
ellipse at the start angle. -/
inductive PathCommand (γ : Type) where
  | moveTo (x y : γ)
  | lineTo (x y : γ)
  | cubicTo (x1 y1 x2 y2 x y : γ)
  | quadTo (x1 y1 x y : γ)
  | arcTo (widthRadius heightRadius startAngle sweepAngle : γ)
  | close
  deriving DecidableEq, Repr

/-- Replaces the lengths and the angles of a command. -/
def PathCommand.map {γ δ : Type} (length angle : γ → δ) : PathCommand γ → PathCommand δ
  | moveTo x y => moveTo (length x) (length y)
  | lineTo x y => lineTo (length x) (length y)
  | cubicTo x1 y1 x2 y2 x y =>
    cubicTo (length x1) (length y1) (length x2) (length y2) (length x) (length y)
  | quadTo x1 y1 x y => quadTo (length x1) (length y1) (length x) (length y)
  | arcTo widthRadius heightRadius startAngle sweepAngle =>
    arcTo (length widthRadius) (length heightRadius) (angle startAngle) (angle sweepAngle)
  | close => close

/-- A path with its paint. A path that has a width or height of its own is stretched to those of
the shape. -/
structure Outline (α γ : Type) where
  width : Option α := none
  height : Option α := none
  fill : Fill := .norm
  stroke : Bool := true
  commands : List (PathCommand γ)
  deriving DecidableEq, Repr

end ShapeGeometry
