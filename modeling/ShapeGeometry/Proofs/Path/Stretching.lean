import ShapeGeometry.Proofs.Exact.Scalar
import ShapeGeometry.Proofs.Path.Tracing

/-!
Paths with extents of their own. The tracer stretches coordinates as they come in and places arcs by points that are
stretched already.
-/

namespace ShapeGeometry

/-- What the coordinates of an axis are multiplied by. -/
noncomputable def stretchFactor (extent : Option ℝ) (shape : ℝ) : ℝ :=
  match extent with
  | some extent => if 0 < extent then shape / extent else 1
  | none => 1

/-- The point with each coordinate multiplied by that of the factor. -/
def Point.stretch (p factor : Point ℝ) : Point ℝ :=
  ⟨p.x * factor.x, p.y * factor.y⟩

/-- Rotation, angles and direction of an arc stay as they are. -/
def Primitive.stretch (factor : Point ℝ) : Primitive ℝ → Primitive ℝ
  | moveTo x y => moveTo (x * factor.x) (y * factor.y)
  | lineTo x y => lineTo (x * factor.x) (y * factor.y)
  | cubicTo x1 y1 x2 y2 x y =>
    cubicTo (x1 * factor.x) (y1 * factor.y) (x2 * factor.x) (y2 * factor.y) (x * factor.x) (y * factor.y)
  | quadTo x1 y1 x y => quadTo (x1 * factor.x) (y1 * factor.y) (x * factor.x) (y * factor.y)
  | ellipseArc cx cy rx ry rotation start finish counterclockwise =>
    ellipseArc (cx * factor.x) (cy * factor.y) (rx * factor.x) (ry * factor.y) rotation start finish
      counterclockwise
  | close => close

/-- The tracer that has drawn the same path, stretched. -/
def Tracer.stretch (tracer : Tracer ℝ) (factor : Point ℝ) : Tracer ℝ where
  scale := tracer.scale.stretch factor
  current := tracer.current.stretch factor
  primitives := tracer.primitives.map (Primitive.stretch factor)

namespace Point

theorem stretch_sub (p q factor : Point ℝ) :
    (p - q).stretch factor = p.stretch factor - q.stretch factor :=
  congrArg₂ mk (sub_mul p.x q.x factor.x) (sub_mul p.y q.y factor.y)

theorem stretch_add (p q factor : Point ℝ) :
    (p + q).stretch factor = p.stretch factor + q.stretch factor :=
  congrArg₂ mk (add_mul p.x q.x factor.x) (add_mul p.y q.y factor.y)

theorem stretch_mul (p q factor : Point ℝ) : (p * q).stretch factor = p.stretch factor * q :=
  congrArg₂ mk (mul_right_comm p.x q.x factor.x) (mul_right_comm p.y q.y factor.y)

end Point

/-- The real numbers with any functions as sine and cosine. -/
@[reducible] noncomputable def Exact.withTrigonometry (sine cosine : ℝ → ℝ) : Scalar ℝ :=
  { Exact.instScalarReal with sin := sine, cos := cosine }

open Exact

namespace Tracer

theorem draw_stretch [Scalar ℝ] (tracer : Tracer ℝ) (factor : Point ℝ) (primitive : Primitive ℝ)
    (finish : Point ℝ) :
    (tracer.stretch factor).draw (primitive.stretch factor) (finish.stretch factor)
      = (tracer.draw primitive finish).stretch factor := by
  simp only [stretch, draw, Array.map_push]

section Trigonometry

variable (sine cosine : ℝ → ℝ)

theorem place_stretch (tracer : Tracer ℝ) (factor : Point ℝ) (x y : ℝ) :
    letI := withTrigonometry sine cosine
    (tracer.stretch factor).place x y = (tracer.place x y).stretch factor :=
  congrArg₂ Point.mk (mul_assoc _ _ _).symm (mul_assoc _ _ _).symm

/-- One command. The centre of an arc is placed by the current point and the radii, and is stretched like them. -/
theorem push_stretch (tracer : Tracer ℝ) (factor : Point ℝ) (command : PathCommand ℝ) :
    letI := withTrigonometry sine cosine
    (tracer.stretch factor).push command = (tracer.push command).stretch factor := by
  let exact := withTrigonometry sine cosine
  have hplace := place_stretch sine cosine tracer factor
  cases command with
  | moveTo x y =>
    simp only [push, hplace]
    exact draw_stretch tracer factor (.moveTo _ _) _
  | lineTo x y =>
    simp only [push, hplace]
    exact draw_stretch tracer factor (.lineTo _ _) _
  | cubicTo x1 y1 x2 y2 x y =>
    simp only [push, hplace]
    exact draw_stretch tracer factor (.cubicTo _ _ _ _ _ _) _
  | quadTo x1 y1 x y =>
    simp only [push, hplace]
    exact draw_stretch tracer factor (.quadTo _ _ _ _) _
  | arcTo widthRadius heightRadius startAngle sweepAngle =>
    cases h : isDegenerate widthRadius heightRadius (Angle.degreesToRadians sweepAngle) with
    | true =>
      have hdropped : (PathCommand.arcTo widthRadius heightRadius startAngle sweepAngle).isDropped = true := h
      rw [push_of_isDropped hdropped, push_of_isDropped hdropped]
    | false =>
      have hcurrent : (tracer.stretch factor).current = tracer.current.stretch factor := rfl
      simp only [push_arcTo h, hplace, hcurrent, ← Point.stretch_mul, ← Point.stretch_sub,
        ← Point.stretch_add]
      exact draw_stretch tracer factor (.ellipseArc _ _ _ _ _ _ _ _) _
  | close => exact draw_stretch tracer factor .close tracer.current

theorem pushAll_stretch (tracer : Tracer ℝ) (factor : Point ℝ) (commands : List (PathCommand ℝ)) :
    letI := withTrigonometry sine cosine
    (tracer.stretch factor).pushAll commands = (tracer.pushAll commands).stretch factor := by
  let exact := withTrigonometry sine cosine
  induction commands generalizing tracer with
  | nil => rfl
  | cons command commands ih => rw [pushAll_cons, pushAll_cons, push_stretch sine cosine, ih]

theorem axisScale_eq_stretchFactor (extent : Option ℝ) (shape : ℝ) :
    letI := withTrigonometry sine cosine
    axisScale extent shape = stretchFactor extent shape := by
  cases extent with
  | none => exact Nat.cast_one
  | some extent =>
    change (if ((0 : ℕ) : ℝ) < extent then shape / extent else ((1 : ℕ) : ℝ)) = _
    rw [Nat.cast_zero, Nat.cast_one]
    rfl

/-- The tracers of two shapes start as one, but for their scales. -/
theorem start_eq_stretch (pathWidth pathHeight : Option ℝ) (width height : ℝ) :
    letI := withTrigonometry sine cosine
    start pathWidth pathHeight width height
      = (start none none width height).stretch
          ⟨stretchFactor pathWidth width, stretchFactor pathHeight height⟩ := by
  let exact := withTrigonometry sine cosine
  have horigin (factor : Point ℝ) : (Point.origin : Point ℝ).stretch factor = .origin := by
    change Point.mk (((0 : ℕ) : ℝ) * factor.x) (((0 : ℕ) : ℝ) * factor.y) = ⟨((0 : ℕ) : ℝ), ((0 : ℕ) : ℝ)⟩
    rw [Nat.cast_zero, zero_mul, zero_mul]
  have hscale (factor : Point ℝ) :
      Point.stretch ⟨stretchFactor none width, stretchFactor none height⟩ factor = factor :=
    congrArg₂ Point.mk (one_mul factor.x) (one_mul factor.y)
  simp only [start, stretch, axisScale_eq_stretchFactor sine cosine, hscale, horigin, Array.map_empty]

end Trigonometry

end Tracer

/-- Tracing onto a shape is an equivariance. What a path with extents draws on a shape of any size is what its
commands draw without extents, stretched along the axes, and so is the current point after any number of commands.
What is dropped is a matter of the command alone. -/
theorem trace_stretch (sine cosine : ℝ → ℝ) (commands : List (PathCommand ℝ)) (pathWidth pathHeight : Option ℝ)
    (width height : ℝ) :
    letI := withTrigonometry sine cosine
    let factor : Point ℝ := ⟨stretchFactor pathWidth width, stretchFactor pathHeight height⟩
    trace commands pathWidth pathHeight width height
        = (trace commands none none width height).map (Primitive.stretch factor)
      ∧ (∀ count, ((Tracer.start pathWidth pathHeight width height).pushAll (commands.take count)).current
        = ((Tracer.start none none width height).pushAll (commands.take count)).current.stretch factor)
      ∧ ∀ before command,
        trace (before ++ [command]) pathWidth pathHeight width height
            = trace before pathWidth pathHeight width height
          ↔ command.isDropped = true := by
  let exact := withTrigonometry sine cosine
  intro factor
  have hrun (commands : List (PathCommand ℝ)) :
      (Tracer.start pathWidth pathHeight width height).pushAll commands
        = ((Tracer.start none none width height).pushAll commands).stretch factor := by
    rw [Tracer.start_eq_stretch sine cosine, Tracer.pushAll_stretch sine cosine]
  refine ⟨?_, ?_, ?_⟩
  · rw [trace, hrun, trace]
    exact Array.toList_map
  · intro count
    rw [hrun]
    rfl
  · intro before command
    rw [trace_eq_drawnAll, trace_eq_drawnAll, Tracer.drawnAll_concat, List.append_right_eq_self]
    exact Tracer.drawn_eq_nil_iff _ command

end ShapeGeometry
