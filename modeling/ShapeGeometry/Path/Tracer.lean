import ShapeGeometry.Path.Command
import ShapeGeometry.Path.Primitive
import ShapeGeometry.Plane

/-!
Tracing: the commands of a path, with angles in degrees, become primitives in the space of the
shape. The current point is the end of what was drawn last; arcs are placed by it.
-/

namespace ShapeGeometry

structure Tracer (α : Type) where
  /-- From the space of the path to the space of the shape. -/
  scale : Point α
  current : Point α
  primitives : Array (Primitive α)

namespace Tracer

variable {α : Type} [Scalar α]

/-- An extent that is missing or not positive leaves its axis as it is. -/
def axisScale (pathExtent : Option α) (shapeExtent : α) : α :=
  match pathExtent with
  | some extent => if 0 < extent then shapeExtent / extent else 1
  | none => 1

def start (pathWidth pathHeight : Option α) (width height : α) : Tracer α where
  scale := ⟨axisScale pathWidth width, axisScale pathHeight height⟩
  current := .origin
  primitives := #[]

def place (tracer : Tracer α) (x y : α) : Point α :=
  ⟨x, y⟩ * tracer.scale

/-- Draws a primitive that ends at a point. -/
def draw (tracer : Tracer α) (primitive : Primitive α) (finish : Point α) : Tracer α :=
  { tracer with primitives := tracer.primitives.push primitive, current := finish }

/-- Arcs that sweep less than this, in radians, are dropped. -/
def minSweep : α :=
  1e-10

/-- An arc without a positive radius on each axis, or without a sweep. -/
def isDegenerate (widthRadius heightRadius sweep : α) : Bool :=
  widthRadius ≤ 0 || heightRadius ≤ 0 || Scalar.abs sweep < minSweep

def arcTo (tracer : Tracer α) (widthRadius heightRadius startAngle sweepAngle : α) : Tracer α :=
  let start := Angle.degreesToRadians startAngle
  let sweep := Angle.degreesToRadians sweepAngle
  if isDegenerate widthRadius heightRadius sweep then tracer
  else
    let radii := tracer.place widthRadius heightRadius
    let center := tracer.current - radii * .ofAngle start
    let finish := start + sweep
    tracer.draw
      (.ellipseArc center.x center.y radii.x radii.y 0 start finish (sweep < 0))
      (center + radii * .ofAngle finish)

/-- Draws one command. Closing a path leaves the current point where it is. -/
def push (tracer : Tracer α) : PathCommand α → Tracer α
  | .moveTo x y =>
    let p := tracer.place x y
    tracer.draw (.moveTo p.x p.y) p
  | .lineTo x y =>
    let p := tracer.place x y
    tracer.draw (.lineTo p.x p.y) p
  | .cubicTo x1 y1 x2 y2 x y =>
    let c1 := tracer.place x1 y1
    let c2 := tracer.place x2 y2
    let p := tracer.place x y
    tracer.draw (.cubicTo c1.x c1.y c2.x c2.y p.x p.y) p
  | .quadTo x1 y1 x y =>
    let c := tracer.place x1 y1
    let p := tracer.place x y
    tracer.draw (.quadTo c.x c.y p.x p.y) p
  | .arcTo widthRadius heightRadius startAngle sweepAngle =>
    tracer.arcTo widthRadius heightRadius startAngle sweepAngle
  | .close => tracer.draw .close tracer.current

def pushAll (tracer : Tracer α) (commands : List (PathCommand α)) : Tracer α :=
  commands.foldl push tracer

end Tracer

/-- The primitives of a path on a shape of the given size. -/
def trace {α : Type} [Scalar α] (commands : List (PathCommand α)) (pathWidth pathHeight : Option α)
    (width height : α) : List (Primitive α) :=
  ((Tracer.start pathWidth pathHeight width height).pushAll commands).primitives.toList

def Outline.trace {α : Type} [Scalar α] (path : Outline α α) (width height : α) : TracedPath α where
  fill := path.fill
  stroke := path.stroke
  primitives := ShapeGeometry.trace path.commands path.width path.height width height

end ShapeGeometry
