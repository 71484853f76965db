import ShapeGeometry.Path.Command

namespace ShapeGeometry

/-- What is drawn, in the space of the shape. -/
inductive Primitive (α : Type) where
  | moveTo (x y : α)
  | lineTo (x y : α)
  | cubicTo (x1 y1 x2 y2 x y : α)
  | quadTo (x1 y1 x y : α)
  /-- An arc of the ellipse with the given centre and radii, between two angles in radians. -/
  | ellipseArc (cx cy rx ry rotation start finish : α) (counterclockwise : Bool)
  | close
  deriving DecidableEq, Repr

/-- The primitives of one path, with its paint. -/
structure TracedPath (α : Type) where
  fill : Fill
  stroke : Bool
  primitives : List (Primitive α)
  deriving DecidableEq, Repr

/-- A consumer of primitives: the six calls that a drawing backend answers. -/
class PathSink (σ : Type) (α : outParam Type) where
  moveTo (sink : σ) (x y : α) : σ
  lineTo (sink : σ) (x y : α) : σ
  cubicTo (sink : σ) (x1 y1 x2 y2 x y : α) : σ
  quadTo (sink : σ) (x1 y1 x y : α) : σ
  ellipseArc (sink : σ) (cx cy rx ry rotation start finish : α) (counterclockwise : Bool) : σ
  close (sink : σ) : σ

variable {σ α : Type} [PathSink σ α]

def Primitive.replay (sink : σ) : Primitive α → σ
  | moveTo x y => PathSink.moveTo sink x y
  | lineTo x y => PathSink.lineTo sink x y
  | cubicTo x1 y1 x2 y2 x y => PathSink.cubicTo sink x1 y1 x2 y2 x y
  | quadTo x1 y1 x y => PathSink.quadTo sink x1 y1 x y
  | ellipseArc cx cy rx ry rotation start finish counterclockwise =>
    PathSink.ellipseArc sink cx cy rx ry rotation start finish counterclockwise
  | close => PathSink.close sink

def replay (sink : σ) (primitives : List (Primitive α)) : σ :=
  primitives.foldl Primitive.replay sink

/-- Records the calls as primitives. -/
instance : PathSink (Array (Primitive α)) α where
  moveTo sink x y := sink.push (.moveTo x y)
  lineTo sink x y := sink.push (.lineTo x y)
  cubicTo sink x1 y1 x2 y2 x y := sink.push (.cubicTo x1 y1 x2 y2 x y)
  quadTo sink x1 y1 x y := sink.push (.quadTo x1 y1 x y)
  ellipseArc sink cx cy rx ry rotation start finish counterclockwise :=
    sink.push (.ellipseArc cx cy rx ry rotation start finish counterclockwise)
  close sink := sink.push .close

theorem replay_append (sink : σ) (first second : List (Primitive α)) :
    replay sink (first ++ second) = replay (replay sink first) second :=
  List.foldl_append

end ShapeGeometry
