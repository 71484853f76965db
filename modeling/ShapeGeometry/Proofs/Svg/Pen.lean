import Mathlib.Data.List.Induction
import ShapeGeometry.Proofs.Svg.Emission

namespace ShapeGeometry.Svg

variable {α : Type}

/-- Where a pen is, and where its subpath began. Neither is known before the first move. -/
structure Pen (α : Type) where
  point : Option (Point α)
  start : Option (Point α)
  deriving DecidableEq, Repr

namespace Pen

def lifted : Pen α :=
  ⟨none, none⟩

/-- Only a move begins a subpath; a close goes back to where the subpath began. -/
def follow (pen : Pen α) : Segment α → Pen α
  | .moveTo p => ⟨some p, some p⟩
  | .lineTo p => { pen with point := some p }
  | .cubicTo _ _ p => { pen with point := some p }
  | .quadTo _ p => { pen with point := some p }
  | .arcTo _ _ _ _ p => { pen with point := some p }
  | .close => { pen with point := pen.start }

def followAll (pen : Pen α) (segments : List (Segment α)) : Pen α :=
  segments.foldl follow pen

theorem followAll_append (pen : Pen α) (first second : List (Segment α)) :
    pen.followAll (first ++ second) = (pen.followAll first).followAll second :=
  List.foldl_append

end Pen

namespace PathData

def pen (data : PathData α) : Pen α :=
  ⟨data.current, data.subpathStart⟩

/-- The state of the sink is the pen of what it has written. -/
def KeepsPen (data : PathData α) : Prop :=
  data.pen = Pen.lifted.followAll data.segments.toList

theorem keepsPen_empty : ({} : PathData α).KeepsPen :=
  rfl

theorem pen_emit (data : PathData α) (segment : Segment α) :
    (data.emit segment).pen = data.pen.follow segment := by
  cases segment with
  | moveTo p => rfl
  | lineTo p => rfl
  | cubicTo c1 c2 p => rfl
  | quadTo c p => rfl
  | arcTo radii rotation large sweep p => rfl
  | close => rfl

theorem pen_emitAll (data : PathData α) (segments : List (Segment α)) :
    (data.emitAll segments).pen = data.pen.followAll segments := by
  induction segments generalizing data with
  | nil => rfl
  | cons segment segments ih =>
    rw [emitAll_cons, ih, pen_emit]
    rfl

theorem KeepsPen.emitAll {data : PathData α} (h : data.KeepsPen) (segments : List (Segment α)) :
    (data.emitAll segments).KeepsPen := by
  rw [KeepsPen, pen_emitAll, segments_emitAll, Pen.followAll_append, ← h]

/-- There is a current point just when there is a start of a subpath. -/
def Anchored (data : PathData α) : Prop :=
  data.current.isSome = data.subpathStart.isSome

/-- The pen is down: there is a current point, in a subpath that has begun. -/
structure Drawing (data : PathData α) : Prop where
  current : data.current.isSome = true
  subpathStart : data.subpathStart.isSome = true

theorem Drawing.anchored {data : PathData α} (h : data.Drawing) : data.Anchored :=
  h.current.trans h.subpathStart.symm

theorem drawing_moveTo (data : PathData α) (x y : α) : (data.moveTo x y).Drawing :=
  ⟨rfl, rfl⟩

theorem Drawing.draw {data : PathData α} (h : data.Drawing) (segment : Segment α) (finish : Point α) :
    (data.draw segment finish).Drawing :=
  ⟨rfl, h.subpathStart⟩

theorem Anchored.drawing {data : PathData α} (h : data.Anchored) {p : Point α}
    (hp : data.current = some p) : data.Drawing := by
  have hsome : data.current.isSome = true := by rw [hp, Option.isSome_some]
  exact ⟨hsome, h.symm.trans hsome⟩

theorem Anchored.startAt {data : PathData α} (h : data.Anchored) (x y : α) :
    (data.startAt x y).Drawing := by
  cases hc : data.current with
  | none =>
    rw [PathData.startAt, hc]
    exact data.drawing_moveTo x y
  | some p =>
    rw [PathData.startAt, hc]
    exact h.drawing hc

theorem Anchored.lineTo {data : PathData α} (h : data.Anchored) (x y : α) :
    (data.lineTo x y).Drawing := by
  cases hc : data.current with
  | none =>
    rw [PathData.lineTo, hc]
    exact data.drawing_moveTo x y
  | some p =>
    rw [PathData.lineTo, hc]
    exact (h.drawing hc).draw _ _

/-- A close leaves a subpath where it began, or nothing where nothing began. -/
theorem anchored_close (data : PathData α) : data.close.Anchored :=
  rfl

variable [Scalar α]

theorem Anchored.join {data : PathData α} (h : data.Anchored) (start : Point α) :
    (data.join start).Drawing := by
  cases hc : data.current with
  | none =>
    rw [PathData.join, hc]
    exact data.drawing_moveTo start.x start.y
  | some p =>
    simp only [PathData.join, hc]
    split
    · exact h.lineTo start.x start.y
    · exact h.drawing hc

/-- Whatever becomes of an arc, it has been joined first. -/
theorem Anchored.ellipseArc {data : PathData α} (h : data.Anchored)
    (cx cy rx ry rotation start finish : α) (counterclockwise : Bool) :
    (data.ellipseArc cx cy rx ry rotation start finish counterclockwise).Drawing := by
  have hjoin := h.join (ellipsePoint ⟨cx, cy⟩ ⟨Scalar.abs rx, Scalar.abs ry⟩ rotation start)
  unfold PathData.ellipseArc
  dsimp only
  split
  · exact hjoin
  · split
    · exact (hjoin.draw _ _).draw _ _
    · exact hjoin.draw _ _

/-- One call keeps the current point and the start of the subpath together. -/
theorem Anchored.replay {data : PathData α} (h : data.Anchored) (call : Primitive α) :
    (call.replay data).Anchored := by
  cases call with
  | moveTo x y => exact (data.drawing_moveTo x y).anchored
  | lineTo x y => exact (h.lineTo x y).anchored
  | cubicTo x1 y1 x2 y2 x y => exact ((h.startAt x1 y1).draw _ _).anchored
  | quadTo x1 y1 x y => exact ((h.startAt x1 y1).draw _ _).anchored
  | ellipseArc cx cy rx ry rotation start finish counterclockwise =>
    exact (h.ellipseArc cx cy rx ry rotation start finish counterclockwise).anchored
  | close => exact data.anchored_close

/-- One call keeps the state in step with what is written. -/
theorem KeepsPen.replay {data : PathData α} (h : data.KeepsPen) (call : Primitive α) :
    (call.replay data).KeepsPen := by
  rw [replay_eq_emitAll]
  exact h.emitAll (data.drawnBy call)

theorem keepsPen_ofPrimitives (calls : List (Primitive α)) :
    (ofPrimitives calls).KeepsPen ∧ (ofPrimitives calls).Anchored := by
  induction calls using List.reverseRecOn with
  | nil => exact ⟨keepsPen_empty, rfl⟩
  | append_singleton calls call ih =>
    rw [ofPrimitives_concat]
    exact ⟨ih.1.replay call, ih.2.replay call⟩

/-- Later calls leave what is written as it is. -/
theorem segments_ofPrimitives_prefix (first second : List (Primitive α)) :
    (ofPrimitives first).segments.toList <+: (ofPrimitives (first ++ second)).segments.toList := by
  have happend : ofPrimitives (first ++ second) = replay (ofPrimitives first) second :=
    replay_append _ first second
  rw [happend, segments_replay]
  exact List.prefix_append _ _

/-- The state of the sink is the pen of the path that it has written. After each of any calls, what is written
is the beginning of what will be, the current point and the start of the subpath are those of a pen that
follows it, and both of them are known or neither is. -/
theorem pen_ofPrimitives (calls : List (Primitive α)) (count : Nat) :
    let data := ofPrimitives (calls.take count)
    let pen := Pen.lifted.followAll data.segments.toList
    data.segments.toList <+: (ofPrimitives calls).segments.toList
      ∧ data.current = pen.point ∧ data.subpathStart = pen.start
      ∧ data.current.isSome = data.subpathStart.isSome := by
  intro data pen
  obtain ⟨hpen, hanchored⟩ := keepsPen_ofPrimitives (calls.take count)
  refine ⟨?_, congrArg Pen.point hpen, congrArg Pen.start hpen, hanchored⟩
  have hprefix := segments_ofPrimitives_prefix (calls.take count) (calls.drop count)
  rwa [List.take_append_drop] at hprefix

end PathData

end ShapeGeometry.Svg
