import ShapeGeometry.Proofs.Path.Tracing

namespace ShapeGeometry

variable {α : Type} [Scalar α]

namespace Primitive

/-- Where a primitive ends, read off its own fields. A close ends nowhere. -/
def finish? : Primitive α → Option (Point α)
  | moveTo x y => some ⟨x, y⟩
  | lineTo x y => some ⟨x, y⟩
  | cubicTo _ _ _ _ x y => some ⟨x, y⟩
  | quadTo _ _ x y => some ⟨x, y⟩
  | ellipseArc cx cy rx ry _ _ finish _ => some (⟨cx, cy⟩ + ⟨rx, ry⟩ * .ofAngle finish)
  | close => none

/-- Where the last primitive ends that ends somewhere, or the origin. -/
def lastFinish (primitives : List (Primitive α)) : Point α :=
  (primitives.filterMap finish?).getLastD .origin

theorem lastFinish_concat (primitives : List (Primitive α)) (primitive : Primitive α) :
    lastFinish (primitives ++ [primitive]) = primitive.finish?.getD (lastFinish primitives) := by
  cases h : primitive.finish? with
  | none => simp [lastFinish, h]
  | some p => simp [lastFinish, h]

end Primitive

open Primitive

namespace Tracer

/-- The current point can be read off what has been drawn. -/
def FollowsDrawn (tracer : Tracer α) : Prop :=
  tracer.current = lastFinish tracer.primitives.toList

theorem FollowsDrawn.draw {tracer : Tracer α} (h : tracer.FollowsDrawn) {primitive : Primitive α}
    {finish : Point α} (hp : primitive.finish?.getD tracer.current = finish) :
    (tracer.draw primitive finish).FollowsDrawn := by
  subst hp
  simp only [FollowsDrawn, Tracer.draw, Array.toList_push, lastFinish_concat]
  rw [← h]

/-- One command. A close and an arc that is dropped leave the current point where it is. -/
theorem FollowsDrawn.push {tracer : Tracer α} (h : tracer.FollowsDrawn) (command : PathCommand α) :
    (tracer.push command).FollowsDrawn := by
  cases command with
  | moveTo x y => exact h.draw rfl
  | lineTo x y => exact h.draw rfl
  | cubicTo x1 y1 x2 y2 x y => exact h.draw rfl
  | quadTo x1 y1 x y => exact h.draw rfl
  | arcTo widthRadius heightRadius startAngle sweepAngle =>
    unfold Tracer.push arcTo
    dsimp only
    split
    · exact h
    · exact h.draw rfl
  | close => exact h.draw rfl

theorem FollowsDrawn.pushAll {tracer : Tracer α} (h : tracer.FollowsDrawn)
    (commands : List (PathCommand α)) : (tracer.pushAll commands).FollowsDrawn := by
  induction commands generalizing tracer with
  | nil => exact h
  | cons command commands ih => exact ih (h.push command)

/-- An arc is drawn by a command that sweeps it, and its centre lies where the current point is its start. -/
theorem exists_arcTo_of_drawn {tracer : Tracer α} {command : PathCommand α}
    {cx cy rx ry rotation start finish : α} {counterclockwise : Bool}
    (h : tracer.drawn command = [.ellipseArc cx cy rx ry rotation start finish counterclockwise]) :
    ∃ widthRadius heightRadius startAngle sweepAngle,
      command = .arcTo widthRadius heightRadius startAngle sweepAngle
        ∧ (⟨cx, cy⟩ : Point α) = tracer.current - ⟨rx, ry⟩ * .ofAngle start
        ∧ start = Angle.degreesToRadians startAngle
        ∧ finish = start + Angle.degreesToRadians sweepAngle := by
  cases command with
  | arcTo widthRadius heightRadius startAngle sweepAngle =>
    have hdrawn := drawn_of_push (push_arcTo (isDropped_of_drawn h) tracer startAngle)
    obtain ⟨⟩ := hdrawn.symm.trans h
    exact ⟨_, _, _, _, rfl, rfl, rfl, rfl⟩
  | _ => cases h

/-- The state of the tracer is in what it has drawn. At every scale and after each of any commands the current point
is the end of the last primitive that is not a close, or the origin where there is none. Every arc belongs to a command
that says where it starts and how far it sweeps, and its centre is placed by the end of what was drawn before it. -/
theorem current_pushAll (pathWidth pathHeight : Option α) (width height : α) (commands : List (PathCommand α)) :
    let start := Tracer.start pathWidth pathHeight width height
    (∀ count, (start.pushAll (commands.take count)).current
      = lastFinish (start.pushAll (commands.take count)).primitives.toList)
    ∧ ∀ drawn rest cx cy rx ry rotation startAngle finishAngle counterclockwise,
      (start.pushAll commands).primitives.toList
          = drawn ++ .ellipseArc cx cy rx ry rotation startAngle finishAngle counterclockwise :: rest →
      (⟨cx, cy⟩ : Point α) = lastFinish drawn - ⟨rx, ry⟩ * .ofAngle startAngle
      ∧ ∃ before widthRadius heightRadius startDegrees sweepDegrees after,
        commands = before ++ .arcTo widthRadius heightRadius startDegrees sweepDegrees :: after
          ∧ (start.pushAll before).primitives.toList = drawn
          ∧ startAngle = Angle.degreesToRadians startDegrees
          ∧ finishAngle = startAngle + Angle.degreesToRadians sweepDegrees := by
  intro start
  have hstart : start.FollowsDrawn := rfl
  have hprimitives (commands : List (PathCommand α)) :
      (start.pushAll commands).primitives.toList = start.drawnAll commands := by
    simp [primitives_pushAll, start, Tracer.start]
  refine ⟨fun count => hstart.pushAll (commands.take count), ?_⟩
  intro drawn rest cx cy rx ry rotation startAngle finishAngle counterclockwise h
  rw [hprimitives] at h
  obtain ⟨before, command, after, rfl, rfl, harc⟩ := drawnAll_split h
  obtain ⟨widthRadius, heightRadius, startDegrees, sweepDegrees, rfl, hcenter, hfrom, hto⟩ :=
    exists_arcTo_of_drawn harc
  have hcurrent : (start.pushAll before).current = lastFinish (start.drawnAll before) := by
    rw [← hprimitives]
    exact hstart.pushAll before
  rw [hcurrent] at hcenter
  exact ⟨hcenter, before, widthRadius, heightRadius, startDegrees, sweepDegrees, after, rfl,
    hprimitives before, hfrom, hto⟩

end Tracer

end ShapeGeometry
