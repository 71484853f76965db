import ShapeGeometry.Proofs.Binary64.Sign
import ShapeGeometry.Proofs.Path.Tracing
import ShapeGeometry.Shape.Geometry
import ShapeGeometry.Shape.Preset

namespace ShapeGeometry

variable {α γ δ : Type}

/-- A primitive is of the kind of a command, where `IsNegative` says which sweeps are negative. An arc is drawn
without a rotation, and counterclockwise just when its sweep is negative. -/
inductive PathCommand.IsDrawnAs [Scalar α] (IsNegative : γ → Prop) : PathCommand γ → Primitive α → Prop
  | moveTo {x y : γ} {x' y' : α} : IsDrawnAs IsNegative (.moveTo x y) (.moveTo x' y')
  | lineTo {x y : γ} {x' y' : α} : IsDrawnAs IsNegative (.lineTo x y) (.lineTo x' y')
  | cubicTo {x1 y1 x2 y2 x y : γ} {x1' y1' x2' y2' x' y' : α} :
    IsDrawnAs IsNegative (.cubicTo x1 y1 x2 y2 x y) (.cubicTo x1' y1' x2' y2' x' y')
  | quadTo {x1 y1 x y : γ} {x1' y1' x' y' : α} :
    IsDrawnAs IsNegative (.quadTo x1 y1 x y) (.quadTo x1' y1' x' y')
  | arcTo {widthRadius heightRadius startAngle sweepAngle : γ} {cx cy rx ry start finish : α}
      {counterclockwise : Bool} (h : counterclockwise = true ↔ IsNegative sweepAngle) :
    IsDrawnAs IsNegative (.arcTo widthRadius heightRadius startAngle sweepAngle)
      (.ellipseArc cx cy rx ry 0 start finish counterclockwise)
  | close : IsDrawnAs IsNegative .close .close

theorem PathCommand.isDrawnAs_map [Scalar α] {IsNegative : δ → Prop} {length angle : γ → δ}
    {command : PathCommand γ} {primitive : Primitive α}
    (h : (command.map length angle).IsDrawnAs IsNegative primitive) :
    command.IsDrawnAs (fun sweep => IsNegative (angle sweep)) primitive := by
  cases command with
  | moveTo x y => cases h; exact .moveTo
  | lineTo x y => cases h; exact .lineTo
  | cubicTo x1 y1 x2 y2 x y => cases h; exact .cubicTo
  | quadTo x1 y1 x y => cases h; exact .quadTo
  | arcTo widthRadius heightRadius startAngle sweepAngle => cases h with | arcTo h => exact .arcTo h
  | close => cases h; exact .close

/-- An arc is dropped where it has no positive radius on each axis or sweeps nearly nothing; nothing else is. -/
theorem PathCommand.isDropped_iff [Scalar α] (command : PathCommand α) :
    command.isDropped = true ↔ ∃ widthRadius heightRadius startAngle sweepAngle,
      command = .arcTo widthRadius heightRadius startAngle sweepAngle
        ∧ (widthRadius ≤ 0 ∨ heightRadius ≤ 0
          ∨ Scalar.abs (Angle.degreesToRadians sweepAngle) < (1e-10 : α)) := by
  cases command with
  | arcTo widthRadius heightRadius startAngle sweepAngle =>
    simp only [isDropped, Tracer.isDegenerate, Bool.or_eq_true, decide_eq_true_eq, or_assoc]
    refine ⟨fun h => ⟨_, _, _, _, rfl, h⟩, ?_⟩
    rintro ⟨_, _, _, _, ⟨⟩, h⟩
    exact h
  | _ => simp [isDropped]

namespace Tracer

/-- Commands that are dropped make no difference to the state in which they leave the tracer. -/
theorem pushAll_filter [Scalar α] (tracer : Tracer α) (commands : List (PathCommand α)) :
    tracer.pushAll (commands.filter (!·.isDropped)) = tracer.pushAll commands := by
  induction commands generalizing tracer with
  | nil => rfl
  | cons command commands ih =>
    rw [pushAll_cons]
    cases h : command.isDropped with
    | true => rw [List.filter_cons_of_neg (by simp [h]), push_of_isDropped h, ih]
    | false => rw [List.filter_cons_of_pos (by simp [h]), pushAll_cons, ih]

theorem exists_drawnAs {command : PathCommand Float} (h : command.isDropped = false) (tracer : Tracer Float) :
    ∃ primitive, tracer.drawn command = [primitive] ∧ command.IsDrawnAs (· < 0) primitive := by
  cases command with
  | moveTo x y => exact ⟨_, rfl, .moveTo⟩
  | lineTo x y => exact ⟨_, rfl, .lineTo⟩
  | cubicTo x1 y1 x2 y2 x y => exact ⟨_, rfl, .cubicTo⟩
  | quadTo x1 y1 x y => exact ⟨_, rfl, .quadTo⟩
  | arcTo widthRadius heightRadius startAngle sweepAngle =>
    refine ⟨_, drawn_of_push (push_arcTo h tracer startAngle), .arcTo ?_⟩
    have hsweep : ¬ Scalar.abs (Angle.degreesToRadians sweepAngle) < (1e-10 : Float) := by
      intro hsmall
      have hdropped := (PathCommand.isDropped_iff (.arcTo widthRadius heightRadius startAngle sweepAngle)).mpr
        ⟨_, _, _, _, rfl, .inr (.inr hsmall)⟩
      rw [h] at hdropped
      cases hdropped
    exact decide_eq_true_iff.trans (Binary64.degreesToRadians_lt_zero_iff hsweep)
  | close => exact ⟨_, rfl, .close⟩

/-- Each command that is not dropped is drawn as one primitive of its kind, one after the other. -/
theorem forall₂_drawnAll (tracer : Tracer Float) (commands : List (PathCommand Float)) :
    List.Forall₂ (PathCommand.IsDrawnAs (· < 0)) (commands.filter (!·.isDropped))
      (tracer.drawnAll commands) := by
  induction commands generalizing tracer with
  | nil => exact .nil
  | cons command commands ih =>
    rw [drawnAll]
    cases h : command.isDropped with
    | true =>
      rw [List.filter_cons_of_neg (by simp [h]), drawn_of_isDropped h]
      exact ih _
    | false =>
      obtain ⟨primitive, hdrawn, hkind⟩ := exists_drawnAs h tracer
      rw [List.filter_cons_of_pos (by simp [h]), hdrawn]
      exact .cons hkind (ih _)

end Tracer

theorem forall₂_trace (commands : List (PathCommand Float)) (pathWidth pathHeight : Option Float)
    (width height : Float) :
    List.Forall₂ (PathCommand.IsDrawnAs (· < 0)) (commands.filter (!·.isDropped))
      (trace commands pathWidth pathHeight width height) := by
  rw [trace_eq_drawnAll]
  exact Tracer.forall₂_drawnAll _ commands

/-- The commands of a preset's path are drawn as they resolve. -/
theorem Outline.forall₂_trace_resolve (path : PresetPath Float) (scope : Scope Float) (width height : Float) :
    let angle (reference : String) := Angle.unitsToDegrees (scope.resolve reference)
    List.Forall₂ (PathCommand.IsDrawnAs (angle · < 0))
      (path.commands.filter fun command => !(command.map scope.resolve angle).isDropped)
      ((path.resolve scope).trace width height).primitives := by
  intro angle
  have hresolved := forall₂_trace (path.resolve scope).commands path.width path.height width height
  have hcommands : (path.resolve scope).commands = path.commands.map (·.map scope.resolve angle) := rfl
  rw [hcommands, List.filter_map, List.forall₂_map_left_iff] at hresolved
  exact hresolved.imp fun _ _ h => PathCommand.isDrawnAs_map h

/-- One for one. The commands that are dropped are the degenerate arcs, which leave no trace in what is drawn or in
where the tracer stands; each other command is drawn as one primitive of its kind. So the traced paths of a shape are
its paths in their order, with their paint or, where a custom path leaves it open, with the normal fill and a stroke,
and each has the commands of its path that are not degenerate. -/
theorem drawn_one_for_one :
    (∀ command : PathCommand Float,
      command.isDropped = true ↔ ∃ widthRadius heightRadius startAngle sweepAngle,
        command = .arcTo widthRadius heightRadius startAngle sweepAngle
          ∧ (widthRadius ≤ 0 ∨ heightRadius ≤ 0
            ∨ Scalar.abs (Angle.degreesToRadians sweepAngle) < (1e-10 : Float)))
    ∧ (∀ (commands : List (PathCommand Float)) (pathWidth pathHeight : Option Float) (width height : Float),
      let start := Tracer.start pathWidth pathHeight width height
      let kept := commands.filter (!·.isDropped)
      start.pushAll commands = start.pushAll kept
        ∧ trace commands pathWidth pathHeight width height = trace kept pathWidth pathHeight width height
        ∧ List.Forall₂ (PathCommand.IsDrawnAs (· < 0)) kept (trace commands pathWidth pathHeight width height))
    ∧ (∀ (preset : Preset Float) (width height : Float) (overrides : Option (Table Float))
        (shapeWidth shapeHeight : Float),
      let scope := preset.scope width height overrides
      let angle (reference : String) := Angle.unitsToDegrees (scope.resolve reference)
      List.Forall₂ (fun (path : PresetPath Float) (traced : TracedPath Float) =>
          traced.fill = path.fill ∧ traced.stroke = path.stroke
            ∧ List.Forall₂ (PathCommand.IsDrawnAs (angle · < 0))
              (path.commands.filter fun command => !(command.map scope.resolve angle).isDropped)
              traced.primitives)
        preset.paths ((preset.resolve width height overrides).trace shapeWidth shapeHeight))
    ∧ ∀ (shape : CustomShape Float) (width height shapeWidth shapeHeight : Float),
      List.Forall₂ (fun (path : CustomPath Float) (traced : TracedPath Float) =>
          traced.fill = path.fill.getD .norm ∧ traced.stroke = path.stroke.getD true
            ∧ List.Forall₂ (PathCommand.IsDrawnAs (· < 0)) (path.commands.filter (!·.isDropped))
              traced.primitives)
        shape.paths ((shape.resolve width height).trace shapeWidth shapeHeight) := by
  refine ⟨PathCommand.isDropped_iff, ?_, ?_, ?_⟩
  · intro commands pathWidth pathHeight width height start kept
    have hstate : start.pushAll commands = start.pushAll kept := (start.pushAll_filter commands).symm
    exact ⟨hstate, congrArg (fun tracer => tracer.primitives.toList) hstate,
      forall₂_trace commands pathWidth pathHeight width height⟩
  · intro preset width height overrides shapeWidth shapeHeight scope angle
    simp only [Preset.resolve, Layout.trace, List.map_map, List.forall₂_map_right_iff, List.forall₂_same]
    exact fun path _ => ⟨rfl, rfl, path.forall₂_trace_resolve scope shapeWidth shapeHeight⟩
  · intro shape width height shapeWidth shapeHeight
    simp only [CustomShape.resolve, Layout.trace, List.map_map, List.forall₂_map_right_iff, List.forall₂_same]
    exact fun path _ => ⟨rfl, rfl, forall₂_trace path.commands path.width path.height shapeWidth shapeHeight⟩

end ShapeGeometry
