import ShapeGeometry.Binary64
import ShapeGeometry.Svg.PathData

namespace ShapeGeometry.Svg

def Segment.IsArc {α : Type} : Segment α → Prop
  | arcTo .. => True
  | _ => False

theorem text_append (first second : List (Segment Float)) :
    text (first ++ second) = text first ++ text second := by
  simp [text]

namespace PathData

variable {α : Type}

/-- Writes a segment and moves the pen to its end. -/
def emit (data : PathData α) : Segment α → PathData α
  | .moveTo p => data.moveTo p.x p.y
  | .lineTo p => data.draw (.lineTo p) p
  | .cubicTo c1 c2 p => data.draw (.cubicTo c1 c2 p) p
  | .quadTo c p => data.draw (.quadTo c p) p
  | .arcTo radii rotation large sweep p => data.draw (.arcTo radii rotation large sweep p) p
  | .close => data.close

def emitAll (data : PathData α) (segments : List (Segment α)) : PathData α :=
  segments.foldl emit data

@[simp] theorem emitAll_nil (data : PathData α) : data.emitAll [] = data :=
  rfl

@[simp] theorem emitAll_cons (data : PathData α) (segment : Segment α) (segments : List (Segment α)) :
    data.emitAll (segment :: segments) = (data.emit segment).emitAll segments :=
  rfl

theorem emitAll_append (data : PathData α) (first second : List (Segment α)) :
    data.emitAll (first ++ second) = (data.emitAll first).emitAll second :=
  List.foldl_append

theorem segments_emit (data : PathData α) (segment : Segment α) :
    (data.emit segment).segments = data.segments.push segment := by
  cases segment <;> rfl

theorem segments_emitAll (data : PathData α) (segments : List (Segment α)) :
    (data.emitAll segments).segments.toList = data.segments.toList ++ segments := by
  induction segments generalizing data with
  | nil => simp
  | cons segment segments ih => simp [ih, segments_emit]

/-- A curve that has no current point begins with a move. -/
def startSegments (data : PathData α) (p : Point α) : List (Segment α) :=
  match data.current with
  | none => [.moveTo p]
  | some _ => []

def lineSegments (data : PathData α) (p : Point α) : List (Segment α) :=
  match data.current with
  | none => [.moveTo p]
  | some _ => [.lineTo p]

theorem startAt_eq_emitAll (data : PathData α) (x y : α) :
    data.startAt x y = data.emitAll (data.startSegments ⟨x, y⟩) := by
  rw [startAt, startSegments]
  cases data.current <;> rfl

theorem lineTo_eq_emitAll (data : PathData α) (x y : α) :
    data.lineTo x y = data.emitAll (data.lineSegments ⟨x, y⟩) := by
  rw [lineTo, lineSegments]
  cases data.current <;> rfl

theorem current_lineTo (data : PathData α) (x y : α) : (data.lineTo x y).current = some ⟨x, y⟩ := by
  rw [lineTo]
  cases data.current <;> rfl

variable [Scalar α]

/-- An arc begins with a move where there is no current point, and with a line where that is elsewhere. -/
def joinSegments (data : PathData α) (start : Point α) : List (Segment α) :=
  match data.current with
  | none => [.moveTo start]
  | some p => if joinTolerance < (p - start).length then [.lineTo start] else []

/-- The arc itself: nothing, one segment, or two for a full turn. -/
def arcSegments (center radii : Point α) (rotation start sweep : α) : List (Segment α) :=
  if sweep == 0 || radii.x == 0 || radii.y == 0 then []
  else
    let arc (large : Bool) (p : Point α) : Segment α :=
      .arcTo radii (Angle.radiansToDegrees rotation) large (0 < sweep) p
    let last := ellipsePoint center radii rotation (start + sweep)
    if isFullTurn sweep then
      [arc false (ellipsePoint center radii rotation (start + sweep / 2)),
        arc (Scalar.pi < Scalar.abs (sweep / 2)) last]
    else [arc (Scalar.pi < Scalar.abs sweep) last]

/-- The segments that a call draws. -/
def drawnBy (data : PathData α) : Primitive α → List (Segment α)
  | .moveTo x y => [.moveTo ⟨x, y⟩]
  | .lineTo x y => data.lineSegments ⟨x, y⟩
  | .cubicTo x1 y1 x2 y2 x y => data.startSegments ⟨x1, y1⟩ ++ [.cubicTo ⟨x1, y1⟩ ⟨x2, y2⟩ ⟨x, y⟩]
  | .quadTo x1 y1 x y => data.startSegments ⟨x1, y1⟩ ++ [.quadTo ⟨x1, y1⟩ ⟨x, y⟩]
  | .ellipseArc cx cy rx ry rotation start finish counterclockwise =>
    let center : Point α := ⟨cx, cy⟩
    let radii : Point α := ⟨Scalar.abs rx, Scalar.abs ry⟩
    data.joinSegments (ellipsePoint center radii rotation start)
      ++ arcSegments center radii rotation start (normalizedSweep start finish counterclockwise)
  | .close => [.close]

/-- An arc that is drawn is one arc segment, or two for a full turn, and moves the pen to its end. -/
theorem arcSegments_drawn {radii : Point α} {sweep : α} (hs : (sweep == 0) = false)
    (hx : (radii.x == 0) = false) (hy : (radii.y == 0) = false) (center : Point α)
    (rotation start : α) :
    let arcs := arcSegments center radii rotation start sweep
    (∀ segment ∈ arcs, segment.IsArc) ∧ arcs.length = (if isFullTurn sweep then 2 else 1)
      ∧ ∀ data : PathData α,
          (data.emitAll arcs).current = some (ellipsePoint center radii rotation (start + sweep)) := by
  unfold arcSegments
  simp only [hs, hx, hy, Bool.or_self, Bool.false_eq_true, ↓reduceIte]
  split
  · exact ⟨by simp [Segment.IsArc], rfl, fun data => rfl⟩
  · exact ⟨by simp [Segment.IsArc], rfl, fun data => rfl⟩

theorem join_eq_emitAll (data : PathData α) (start : Point α) :
    data.join start = data.emitAll (data.joinSegments start) := by
  cases hc : data.current with
  | none =>
    simp only [join, joinSegments, hc]
    rfl
  | some p =>
    simp only [join, joinSegments, lineTo, hc]
    split
    · rfl
    · rfl

theorem ellipseArc_eq_emitAll (data : PathData α) (cx cy rx ry rotation start finish : α)
    (counterclockwise : Bool) :
    data.ellipseArc cx cy rx ry rotation start finish counterclockwise
      = data.emitAll (data.drawnBy
        (.ellipseArc cx cy rx ry rotation start finish counterclockwise)) := by
  simp only [ellipseArc, drawnBy, arcSegments, emitAll_append, ← join_eq_emitAll]
  split
  · rfl
  · split
    · rfl
    · rfl

/-- A call is the segments that it draws. -/
theorem replay_eq_emitAll (data : PathData α) (call : Primitive α) :
    call.replay data = data.emitAll (data.drawnBy call) := by
  cases call with
  | moveTo x y => rfl
  | lineTo x y => exact data.lineTo_eq_emitAll x y
  | cubicTo x1 y1 x2 y2 x y =>
    rw [drawnBy, emitAll_append, ← startAt_eq_emitAll]
    rfl
  | quadTo x1 y1 x y =>
    rw [drawnBy, emitAll_append, ← startAt_eq_emitAll]
    rfl
  | ellipseArc cx cy rx ry rotation start finish counterclockwise =>
    exact data.ellipseArc_eq_emitAll cx cy rx ry rotation start finish counterclockwise
  | close => rfl

/-- The segments that calls draw, each in the state that the ones before it have left. -/
def drawnByAll (data : PathData α) : List (Primitive α) → List (Segment α)
  | [] => []
  | call :: calls => data.drawnBy call ++ drawnByAll (call.replay data) calls

theorem replay_calls_eq_emitAll (data : PathData α) (calls : List (Primitive α)) :
    replay data calls = data.emitAll (data.drawnByAll calls) := by
  induction calls generalizing data with
  | nil => rfl
  | cons call calls ih =>
    rw [drawnByAll, emitAll_append, ← replay_eq_emitAll, ← ih]
    rfl

theorem drawnByAll_append (data : PathData α) (first second : List (Primitive α)) :
    data.drawnByAll (first ++ second)
      = data.drawnByAll first ++ (replay data first).drawnByAll second := by
  induction first generalizing data with
  | nil => rfl
  | cons call first ih =>
    rw [List.cons_append, drawnByAll, drawnByAll, ih, List.append_assoc]
    rfl

theorem segments_replay (data : PathData α) (calls : List (Primitive α)) :
    (replay data calls).segments.toList = data.segments.toList ++ data.drawnByAll calls := by
  rw [replay_calls_eq_emitAll, segments_emitAll]

theorem ofPrimitives_concat (primitives : List (Primitive α)) (primitive : Primitive α) :
    ofPrimitives (primitives ++ [primitive]) = primitive.replay (ofPrimitives primitives) :=
  replay_append _ primitives [primitive]

theorem text_ofPrimitives (primitives : List (Primitive Float)) :
    (ofPrimitives primitives).text = Svg.text (drawnByAll {} primitives) := by
  rw [text, ofPrimitives, segments_replay]
  rfl

end PathData

end ShapeGeometry.Svg
