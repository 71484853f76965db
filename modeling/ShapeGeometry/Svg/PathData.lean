import ShapeGeometry.Path.Primitive
import ShapeGeometry.Plane
import ShapeGeometry.Svg.Number

/-!
SVG path data as a sink. Arcs arrive by centre and angles and are written by their endpoints; an
arc that does not start at the current point is joined to it by a line.
-/

namespace ShapeGeometry.Svg

inductive Segment (α : Type) where
  | moveTo (p : Point α)
  | lineTo (p : Point α)
  | cubicTo (c1 c2 p : Point α)
  | quadTo (c p : Point α)
  | arcTo (radii : Point α) (rotation : α) (large sweep : Bool) (p : Point α)
  | close
  deriving DecidableEq, Repr

def pairChars (p : Point Float) : List Char :=
  Number.chars p.x ++ ',' :: Number.chars p.y

def flagChar (flag : Bool) : Char :=
  if flag then '1' else '0'

/-- A letter, then pairs of numbers with a space between pairs. -/
def Segment.chars : Segment Float → List Char
  | moveTo p => 'M' :: pairChars p
  | lineTo p => 'L' :: pairChars p
  | cubicTo c1 c2 p => 'C' :: (pairChars c1 ++ ' ' :: (pairChars c2 ++ ' ' :: pairChars p))
  | quadTo c p => 'Q' :: (pairChars c ++ ' ' :: pairChars p)
  | arcTo radii rotation large sweep p =>
    'A' :: (pairChars radii ++ ' ' :: (Number.chars rotation
      ++ ' ' :: flagChar large :: ',' :: flagChar sweep :: ' ' :: pairChars p))
  | close => ['Z']

/-- Segments follow each other without a separator. -/
def text (segments : List (Segment Float)) : String :=
  String.ofList (segments.flatMap Segment.chars)

open Scalar in
/-- The sweep from one angle to another in a direction, negative for counterclockwise: at most one
turn, and a whole turn where the angles are that far apart in the direction. -/
def normalizedSweep {α : Type} [Scalar α] (start finish : α) (counterclockwise : Bool) : α :=
  let delta := finish - start
  if counterclockwise then
    if delta ≤ -tau then -tau else -euclideanRemainder (-delta) tau
  else if tau ≤ delta then tau
  else euclideanRemainder delta tau

/-- The point at an angle of an ellipse that is turned about its centre. -/
def ellipsePoint {α : Type} [Scalar α] (center radii : Point α) (rotation angle : α) : Point α :=
  center + (Point.ofAngle rotation).rotate (radii * Point.ofAngle angle)

structure PathData (α : Type) where
  segments : Array (Segment α) := #[]
  current : Option (Point α) := none
  subpathStart : Option (Point α) := none

namespace PathData

variable {α : Type}

def moveTo (data : PathData α) (x y : α) : PathData α where
  segments := data.segments.push (.moveTo ⟨x, y⟩)
  current := some ⟨x, y⟩
  subpathStart := some ⟨x, y⟩

/-- Writes a segment that ends at a point. -/
def draw (data : PathData α) (segment : Segment α) (finish : Point α) : PathData α :=
  { data with segments := data.segments.push segment, current := some finish }

/-- A curve without a current point starts at its first control point. -/
def startAt (data : PathData α) (x y : α) : PathData α :=
  match data.current with
  | none => data.moveTo x y
  | some _ => data

def lineTo (data : PathData α) (x y : α) : PathData α :=
  match data.current with
  | none => data.moveTo x y
  | some _ => data.draw (.lineTo ⟨x, y⟩) ⟨x, y⟩

def cubicTo (data : PathData α) (x1 y1 x2 y2 x y : α) : PathData α :=
  (data.startAt x1 y1).draw (.cubicTo ⟨x1, y1⟩ ⟨x2, y2⟩ ⟨x, y⟩) ⟨x, y⟩

def quadTo (data : PathData α) (x1 y1 x y : α) : PathData α :=
  (data.startAt x1 y1).draw (.quadTo ⟨x1, y1⟩ ⟨x, y⟩) ⟨x, y⟩

/-- Closing a subpath goes back to where it started. -/
def close (data : PathData α) : PathData α :=
  { data with segments := data.segments.push .close, current := data.subpathStart }

variable [Scalar α]

/-- Points no farther apart than this count as one. -/
def joinTolerance : α :=
  1e-6

/-- Goes to the point where an arc starts, unless the current point is there. -/
def join (data : PathData α) (start : Point α) : PathData α :=
  match data.current with
  | none => data.moveTo start.x start.y
  | some p => if joinTolerance < (p - start).length then data.lineTo start.x start.y else data

/-- An arc that ends where it starts is not drawn by SVG, so a whole turn is written as two halves. -/
def isFullTurn (sweep : α) : Bool :=
  Scalar.tau - joinTolerance ≤ Scalar.abs sweep

def ellipseArc (data : PathData α) (cx cy rx ry rotation start finish : α)
    (counterclockwise : Bool) : PathData α :=
  let center : Point α := ⟨cx, cy⟩
  let radii : Point α := ⟨Scalar.abs rx, Scalar.abs ry⟩
  let sweep := normalizedSweep start finish counterclockwise
  let joined := data.join (ellipsePoint center radii rotation start)
  if sweep == 0 || radii.x == 0 || radii.y == 0 then joined
  else
    let arc (data : PathData α) (large : Bool) (p : Point α) : PathData α :=
      data.draw (.arcTo radii (Angle.radiansToDegrees rotation) large (0 < sweep) p) p
    let last := ellipsePoint center radii rotation (start + sweep)
    if isFullTurn sweep then
      let middle := ellipsePoint center radii rotation (start + sweep / 2)
      arc (arc joined false middle) (Scalar.pi < Scalar.abs (sweep / 2)) last
    else arc joined (Scalar.pi < Scalar.abs sweep) last

instance : PathSink (PathData α) α where
  moveTo := moveTo
  lineTo := lineTo
  cubicTo := cubicTo
  quadTo := quadTo
  ellipseArc := ellipseArc
  close := close

def isEmpty (data : PathData α) : Bool :=
  data.segments.isEmpty

/-- The path data that a list of primitives draws. -/
def ofPrimitives (primitives : List (Primitive α)) : PathData α :=
  replay {} primitives

end PathData

def PathData.text (data : PathData Float) : String :=
  Svg.text data.segments.toList

end ShapeGeometry.Svg
