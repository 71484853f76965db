import ShapeGeometry.Path.Command
import ShapeGeometry.Shape.Preset

namespace ShapeGeometry

variable {γ δ : Type}

namespace PathCommand

/-- Lengths and angles, in the order in which they are written. -/
def coordinates : PathCommand γ → List γ
  | moveTo x y => [x, y]
  | lineTo x y => [x, y]
  | cubicTo x1 y1 x2 y2 x y => [x1, y1, x2, y2, x, y]
  | quadTo x1 y1 x y => [x1, y1, x, y]
  | arcTo widthRadius heightRadius startAngle sweepAngle =>
    [widthRadius, heightRadius, startAngle, sweepAngle]
  | close => []

theorem map_congr {command : PathCommand γ} {length length' angle angle' : γ → δ}
    (hl : ∀ c ∈ command.coordinates, length c = length' c)
    (ha : ∀ c ∈ command.coordinates, angle c = angle' c) :
    command.map length angle = command.map length' angle' := by
  cases command with
  | close => rfl
  | arcTo widthRadius heightRadius startAngle sweepAngle =>
    simp only [coordinates, List.forall_mem_cons] at hl ha
    rw [PathCommand.map, PathCommand.map, hl.1, hl.2.1, ha.2.2.1, ha.2.2.2.1]
  | _ =>
    simp only [coordinates, List.forall_mem_cons] at hl
    simp only [PathCommand.map, hl]

/-- What holds of all that lengths and angles are replaced by, holds of the new coordinates. -/
theorem forall_coordinates_map {command : PathCommand γ} {length angle : γ → δ} {P : δ → Prop}
    (hl : ∀ c ∈ command.coordinates, P (length c)) (ha : ∀ c ∈ command.coordinates, P (angle c)) :
    ∀ c ∈ (command.map length angle).coordinates, P c := by
  cases command with
  | close => exact List.forall_mem_nil P
  | arcTo widthRadius heightRadius startAngle sweepAngle =>
    simp only [coordinates, List.forall_mem_cons] at hl ha
    simp only [PathCommand.map, coordinates, List.forall_mem_cons]
    exact ⟨hl.1, hl.2.1, ha.2.2.1, ha.2.2.2.1, List.forall_mem_nil P⟩
  | _ => simpa [PathCommand.map, coordinates] using hl

end PathCommand

namespace Rect

def edges (rect : Rect γ) : List γ :=
  [rect.left, rect.top, rect.right, rect.bottom]

theorem map_congr {rect : Rect γ} {f f' : γ → δ} (h : ∀ e ∈ rect.edges, f e = f' e) :
    rect.map f = rect.map f' := by
  simp only [edges, List.forall_mem_cons] at h
  rw [Rect.map, Rect.map, h.1, h.2.1, h.2.2.1, h.2.2.2.1]

theorem edges_map (rect : Rect γ) (f : γ → δ) : (rect.map f).edges = rect.edges.map f :=
  rfl

end Rect

end ShapeGeometry
