import ShapeGeometry.Proofs.Path.Tracing

namespace ShapeGeometry

variable {γ δ : Type}

def Point.map (f : γ → δ) (p : Point γ) : Point δ :=
  ⟨f p.x, f p.y⟩

namespace PathCommand

/-- Where a move or a line goes. -/
def corner? : PathCommand γ → Option (Point γ)
  | moveTo x y => some ⟨x, y⟩
  | lineTo x y => some ⟨x, y⟩
  | _ => none

theorem corner?_map (command : PathCommand γ) (length angle : γ → δ) :
    (command.map length angle).corner? = command.corner?.map (Point.map length) := by
  cases command with
  | moveTo x y => rfl
  | lineTo x y => rfl
  | _ => rfl

end PathCommand

def Primitive.corner? : Primitive γ → Option (Point γ)
  | moveTo x y => some ⟨x, y⟩
  | lineTo x y => some ⟨x, y⟩
  | _ => none

namespace Tracer

variable {α : Type} [Scalar α]

theorem corners_drawn (tracer : Tracer α) (command : PathCommand α) :
    (tracer.drawn command).filterMap Primitive.corner?
      = command.corner?.toList.map (· * tracer.scale) := by
  cases command with
  | moveTo x y => rfl
  | lineTo x y => rfl
  | arcTo widthRadius heightRadius startAngle sweepAngle =>
    simp only [drawn, push, arcTo]
    split
    · rfl
    · rfl
  | _ => rfl

theorem corners_drawnAll (tracer : Tracer α) (commands : List (PathCommand α)) :
    (tracer.drawnAll commands).filterMap Primitive.corner?
      = (commands.filterMap PathCommand.corner?).map (· * tracer.scale) := by
  induction commands generalizing tracer with
  | nil => rfl
  | cons command commands ih =>
    have hsplit : (command :: commands).filterMap PathCommand.corner?
        = command.corner?.toList ++ commands.filterMap PathCommand.corner? := by
      cases h : command.corner? with
      | none => simp [h]
      | some p => simp [h]
    rw [drawnAll, List.filterMap_append, corners_drawn, ih, scale_push, hsplit, List.map_append]

end Tracer

/-- Tracing draws the same corners in the same order, scaled to the shape. -/
theorem corners_trace {α : Type} [Scalar α] (commands : List (PathCommand α))
    (pathWidth pathHeight : Option α) (width height : α) :
    (trace commands pathWidth pathHeight width height).filterMap Primitive.corner?
      = (commands.filterMap PathCommand.corner?).map
          (· * ⟨Tracer.axisScale pathWidth width, Tracer.axisScale pathHeight height⟩) := by
  rw [trace_eq_drawnAll, Tracer.corners_drawnAll]
  rfl

end ShapeGeometry
