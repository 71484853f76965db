import ShapeGeometry.Path.Tracer

namespace ShapeGeometry

variable {α : Type} [Scalar α]

/-- Whether a command is an arc that is not drawn. -/
def PathCommand.isDropped : PathCommand α → Bool
  | arcTo widthRadius heightRadius _ sweepAngle =>
    Tracer.isDegenerate widthRadius heightRadius (Angle.degreesToRadians sweepAngle)
  | _ => false

namespace Tracer

/-- The primitives that a command draws. -/
def drawn (tracer : Tracer α) (command : PathCommand α) : List (Primitive α) :=
  ({ tracer with primitives := #[] }.push command).primitives.toList

/-- The primitives that commands draw, each in the state that the ones before it have left. -/
def drawnAll (tracer : Tracer α) : List (PathCommand α) → List (Primitive α)
  | [] => []
  | command :: commands => tracer.drawn command ++ drawnAll (tracer.push command) commands

theorem arcTo_of_degenerate {widthRadius heightRadius sweepAngle : α}
    (h : isDegenerate widthRadius heightRadius (Angle.degreesToRadians sweepAngle) = true)
    (tracer : Tracer α) (startAngle : α) :
    tracer.arcTo widthRadius heightRadius startAngle sweepAngle = tracer := by
  unfold arcTo
  simp [h]

theorem push_of_isDropped {command : PathCommand α} (h : command.isDropped = true)
    (tracer : Tracer α) : tracer.push command = tracer := by
  cases command with
  | arcTo widthRadius heightRadius startAngle sweepAngle => exact arcTo_of_degenerate h tracer _
  | _ => contradiction

theorem drawn_of_isDropped {command : PathCommand α} (h : command.isDropped = true)
    (tracer : Tracer α) : tracer.drawn command = [] := by
  simp [drawn, push_of_isDropped h]

theorem exists_drawn {command : PathCommand α} (h : command.isDropped = false) (tracer : Tracer α) :
    ∃ primitive, tracer.drawn command = [primitive] ∧ (primitive = .close ↔ command = .close) := by
  cases command with
  | arcTo widthRadius heightRadius startAngle sweepAngle =>
    have hdrawn : isDegenerate widthRadius heightRadius (Angle.degreesToRadians sweepAngle) = false := h
    simp [drawn, push, arcTo, draw, hdrawn]
  | _ => simp [drawn, push, draw]

theorem isDropped_of_drawn {command : PathCommand α} {tracer : Tracer α} {primitive : Primitive α}
    (h : tracer.drawn command = [primitive]) : command.isDropped = false := by
  cases hd : command.isDropped with
  | true => simp [drawn_of_isDropped hd] at h
  | false => rfl

theorem drawn_eq_nil_iff (tracer : Tracer α) (command : PathCommand α) :
    tracer.drawn command = [] ↔ command.isDropped = true := by
  cases h : command.isDropped with
  | true => exact iff_of_true (drawn_of_isDropped h tracer) rfl
  | false =>
    obtain ⟨primitive, hp, -⟩ := exists_drawn h tracer
    rw [hp]
    exact iff_of_false (List.cons_ne_nil _ _) Bool.false_ne_true

theorem primitives_push (tracer : Tracer α) (command : PathCommand α) :
    (tracer.push command).primitives.toList = tracer.primitives.toList ++ tracer.drawn command := by
  cases h : command.isDropped with
  | true => simp [push_of_isDropped h, drawn_of_isDropped h]
  | false =>
    cases command with
    | arcTo widthRadius heightRadius startAngle sweepAngle =>
      have hdrawn : isDegenerate widthRadius heightRadius (Angle.degreesToRadians sweepAngle) = false := h
      simp [drawn, push, arcTo, draw, place, hdrawn]
    | _ => simp [drawn, push, draw, place]

theorem drawn_of_push {tracer : Tracer α} {command : PathCommand α} {primitive : Primitive α}
    {finish : Point α} (h : tracer.push command = tracer.draw primitive finish) :
    tracer.drawn command = [primitive] := by
  have hprimitives := tracer.primitives_push command
  rw [h] at hprimitives
  simpa [draw] using hprimitives.symm

theorem push_arcTo {widthRadius heightRadius sweepAngle : α}
    (h : isDegenerate widthRadius heightRadius (Angle.degreesToRadians sweepAngle) = false)
    (tracer : Tracer α) (startAngle : α) :
    let start := Angle.degreesToRadians startAngle
    let sweep := Angle.degreesToRadians sweepAngle
    let radii := tracer.place widthRadius heightRadius
    let center := tracer.current - radii * .ofAngle start
    tracer.push (.arcTo widthRadius heightRadius startAngle sweepAngle)
      = tracer.draw
          (.ellipseArc center.x center.y radii.x radii.y 0 start (start + sweep) (sweep < 0))
          (center + radii * .ofAngle (start + sweep)) := by
  simp [push, arcTo, h]

theorem scale_push (tracer : Tracer α) (command : PathCommand α) :
    (tracer.push command).scale = tracer.scale := by
  cases command with
  | arcTo widthRadius heightRadius startAngle sweepAngle =>
    simp only [push, arcTo]
    split
    · rfl
    · rfl
  | _ => rfl

theorem pushAll_cons (tracer : Tracer α) (command : PathCommand α) (commands : List (PathCommand α)) :
    tracer.pushAll (command :: commands) = (tracer.push command).pushAll commands :=
  rfl

theorem pushAll_append (tracer : Tracer α) (first second : List (PathCommand α)) :
    tracer.pushAll (first ++ second) = (tracer.pushAll first).pushAll second :=
  List.foldl_append

theorem scale_pushAll (tracer : Tracer α) (commands : List (PathCommand α)) :
    (tracer.pushAll commands).scale = tracer.scale := by
  induction commands generalizing tracer with
  | nil => rfl
  | cons command commands ih => rw [pushAll_cons, ih, scale_push]

theorem pushAll_concat (tracer : Tracer α) (commands : List (PathCommand α)) (command : PathCommand α) :
    tracer.pushAll (commands ++ [command]) = (tracer.pushAll commands).push command :=
  tracer.pushAll_append commands [command]

theorem primitives_pushAll (tracer : Tracer α) (commands : List (PathCommand α)) :
    (tracer.pushAll commands).primitives.toList
      = tracer.primitives.toList ++ tracer.drawnAll commands := by
  induction commands generalizing tracer with
  | nil => simp [pushAll, drawnAll]
  | cons command commands ih =>
    simp [pushAll_cons, drawnAll, ih, primitives_push]

theorem drawnAll_append (tracer : Tracer α) (first second : List (PathCommand α)) :
    tracer.drawnAll (first ++ second)
      = tracer.drawnAll first ++ (tracer.pushAll first).drawnAll second := by
  induction first generalizing tracer with
  | nil => rfl
  | cons command first ih => simp [drawnAll, pushAll_cons, ih]

theorem drawnAll_concat (tracer : Tracer α) (commands : List (PathCommand α)) (command : PathCommand α) :
    tracer.drawnAll (commands ++ [command])
      = tracer.drawnAll commands ++ (tracer.pushAll commands).drawn command := by
  rw [drawnAll_append, drawnAll, drawnAll, List.append_nil]

/-- Every primitive is drawn by one of the commands, after what the commands before it draw. -/
theorem drawnAll_split {tracer : Tracer α} {commands : List (PathCommand α)}
    {drawn rest : List (Primitive α)} {primitive : Primitive α}
    (h : tracer.drawnAll commands = drawn ++ primitive :: rest) :
    ∃ before command after, commands = before ++ command :: after
      ∧ tracer.drawnAll before = drawn
      ∧ (tracer.pushAll before).drawn command = [primitive] := by
  induction commands generalizing tracer drawn with
  | nil => simp [drawnAll] at h
  | cons first commands ih =>
    rw [drawnAll] at h
    cases hf : first.isDropped with
    | true =>
      rw [drawn_of_isDropped hf, List.nil_append] at h
      obtain ⟨before, command, after, rfl, hb, hc⟩ := ih h
      refine ⟨first :: before, command, after, rfl, ?_, hc⟩
      rw [drawnAll, drawn_of_isDropped hf, List.nil_append, hb]
    | false =>
      obtain ⟨p, hp, -⟩ := exists_drawn hf tracer
      rw [hp, List.singleton_append] at h
      cases drawn with
      | nil =>
        obtain ⟨rfl, -⟩ := List.cons.inj h
        exact ⟨[], first, commands, rfl, rfl, hp⟩
      | cons q drawn =>
        obtain ⟨rfl, hrest⟩ := List.cons.inj h
        obtain ⟨before, command, after, rfl, hb, hc⟩ := ih hrest
        refine ⟨first :: before, command, after, rfl, ?_, hc⟩
        rw [drawnAll, hp, hb, List.singleton_append]

/-- A close comes first just when it is the first command that is not dropped. -/
theorem head?_drawnAll_eq_close (tracer : Tracer α) (commands : List (PathCommand α)) :
    (tracer.drawnAll commands).head? = some .close
      ↔ commands.find? (fun command => !command.isDropped) = some .close := by
  induction commands generalizing tracer with
  | nil => simp [drawnAll]
  | cons command commands ih =>
    cases h : command.isDropped with
    | true => simp [drawnAll, drawn_of_isDropped h, h, ih]
    | false =>
      obtain ⟨primitive, hp, hclose⟩ := exists_drawn h tracer
      simp [drawnAll, hp, h, hclose]

end Tracer

/-- A trace is what its commands draw, one after the other. -/
theorem trace_eq_drawnAll (commands : List (PathCommand α)) (pathWidth pathHeight : Option α)
    (width height : α) :
    trace commands pathWidth pathHeight width height
      = (Tracer.start pathWidth pathHeight width height).drawnAll commands := by
  rw [trace, Tracer.primitives_pushAll]
  rfl

end ShapeGeometry
