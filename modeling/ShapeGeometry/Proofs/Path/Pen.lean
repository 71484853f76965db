import ShapeGeometry.Proofs.Exact.Scalar
import ShapeGeometry.Proofs.Path.Tracing
import ShapeGeometry.Proofs.Svg.Emission

/-!
Two pens. The tracer places arcs by its current point; the sink finds out again where an arc starts and ends
from centre, radii and angles.
-/

namespace ShapeGeometry

open Exact Svg Real

/-- A close is the last command, or a move comes next. -/
def MovesAfterClose (commands : List (PathCommand ℝ)) : Prop :=
  commands.IsChain fun command next => command = .close → ∃ x y, next = .moveTo x y

/-- An arc sweeps one turn at most. -/
def PathCommand.SweepsOneTurn : PathCommand ℝ → Prop
  | arcTo _ _ _ sweepAngle => |sweepAngle| ≤ 360
  | _ => True

namespace Svg.PathData

theorem joinSegments_self {data : PathData ℝ} {p : Point ℝ} (h : data.current = some p) :
    data.joinSegments p = [] := by
  have htolerance : (0 : ℝ) ≤ joinTolerance := by
    rw [joinTolerance_eq]
    norm_num
  simp only [joinSegments, h, length_sub_self]
  exact if_neg (not_lt.mpr htolerance)

/-- A drawing goes on with arcs and nothing else: one of them, or two for a full turn. -/
def AppendsArcs (before after : PathData ℝ) (sweep : ℝ) : Prop :=
  ∃ arcs, after.segments.toList = before.segments.toList ++ arcs
    ∧ (∀ segment ∈ arcs, segment.IsArc)
    ∧ arcs.length = if 2 * π - 1e-6 ≤ |sweep| then 2 else 1

/-- An arc that starts at the current point is drawn without a join and ends at its last angle. -/
theorem replay_ellipseArc {center radii : Point ℝ} {start sweep : ℝ} (hx : 0 < radii.x)
    (hy : 0 < radii.y) (hne : sweep ≠ 0) (hle : |sweep| ≤ 2 * π) {data : PathData ℝ}
    (hpen : ∀ p ∈ data.current, p = center + radii * .ofAngle start) :
    let drawn : PathData ℝ := (Primitive.ellipseArc center.x center.y radii.x radii.y 0 start
      (start + sweep) (sweep < 0)).replay data
    drawn.current = some (center + radii * .ofAngle (start + sweep))
    ∧ (data.current.isSome → AppendsArcs data drawn sweep) := by
  intro drawn
  have hradii : (⟨Scalar.abs radii.x, Scalar.abs radii.y⟩ : Point ℝ) = radii :=
    congrArg₂ Point.mk (abs_of_pos hx) (abs_of_pos hy)
  obtain ⟨harcs, hcount, hend⟩ := arcSegments_drawn (beq_zero_of_ne hne) (beq_zero_of_ne hx.ne')
    (beq_zero_of_ne hy.ne') center 0 start
  have hsegments : data.drawnBy (.ellipseArc center.x center.y radii.x radii.y 0 start
      (start + sweep) (sweep < 0))
        = data.joinSegments (center + radii * .ofAngle start)
          ++ arcSegments center radii 0 start sweep := by
    simp only [drawnBy, hradii, normalizedSweep_add hle, ellipsePoint_eq]
  have hreplay : drawn = data.emitAll (data.joinSegments (center + radii * .ofAngle start)
      ++ arcSegments center radii 0 start sweep) := by
    rw [← hsegments, ← replay_eq_emitAll]
  rw [hreplay, emitAll_append, hend, ellipsePoint_eq]
  refine ⟨rfl, fun hsome => ?_⟩
  obtain ⟨p, hp⟩ := Option.isSome_iff_exists.mp hsome
  have hjoin : data.joinSegments (center + radii * .ofAngle start) = [] := by
    rw [← hpen p hp]
    exact joinSegments_self hp
  refine ⟨_, ?_, harcs, ?_⟩
  · rw [hjoin, emitAll_nil, segments_emitAll]
  · simp only [hcount, isFullTurn_iff]

end Svg.PathData

open Svg.PathData

namespace Tracer

/-- An arc that is drawn goes from the current point of the tracer to its next one. -/
theorem exists_ellipseArc {tracer : Tracer ℝ} (hx : 0 < tracer.scale.x) (hy : 0 < tracer.scale.y)
    {widthRadius heightRadius sweepAngle : ℝ}
    (h : isDegenerate widthRadius heightRadius (Angle.degreesToRadians sweepAngle) = false)
    (startAngle : ℝ) :
    let start := Angle.degreesToRadians startAngle
    let sweep := Angle.degreesToRadians sweepAngle
    let command := PathCommand.arcTo widthRadius heightRadius startAngle sweepAngle
    ∃ center radii : Point ℝ, 0 < radii.x ∧ 0 < radii.y ∧ sweep ≠ 0
      ∧ tracer.drawn command = [.ellipseArc center.x center.y radii.x radii.y 0 start
          (start + sweep) (sweep < 0)]
      ∧ tracer.current = center + radii * .ofAngle start
      ∧ (tracer.push command).current = center + radii * .ofAngle (start + sweep) := by
  intro start sweep command
  obtain ⟨hw, hh, hmin⟩ := (isDegenerate_iff _ _ _).mp h
  have hne : 0 < |sweep| := lt_of_lt_of_le (by norm_num) hmin
  have harc := push_arcTo h tracer startAngle
  have hcurrent := congrArg current harc
  refine ⟨_, tracer.place widthRadius heightRadius, mul_pos hw hx, mul_pos hh hy, abs_pos.mp hne, ?_,
    ?_, hcurrent⟩
  · rw [drawn_of_push harc, ofNat_eq, Nat.cast_zero]
  · exact congrArg₂ Point.mk (sub_add_cancel _ _).symm (sub_add_cancel _ _).symm

/-- What a command draws takes the pen along, from wherever it was unless the command is an arc. -/
theorem replay_drawn {tracer : Tracer ℝ} (hx : 0 < tracer.scale.x) (hy : 0 < tracer.scale.y)
    {command : PathCommand ℝ} {primitive : Primitive ℝ} (hdrawn : tracer.drawn command = [primitive])
    (hclose : primitive ≠ .close) (hsweep : command.SweepsOneTurn) {data : PathData ℝ}
    (hpen : (∀ p ∈ data.current, p = tracer.current) ∨ ∃ x y, command = .moveTo x y) :
    (primitive.replay data).current = some (tracer.push command).current
    ∧ ∀ cx cy rx ry rotation start finish counterclockwise,
        primitive = .ellipseArc cx cy rx ry rotation start finish counterclockwise →
        data.current.isSome → AppendsArcs data (primitive.replay data) (finish - start) := by
  cases command with
  | moveTo x y =>
    cases hdrawn
    exact ⟨rfl, nofun⟩
  | lineTo x y =>
    cases hdrawn
    exact ⟨current_lineTo _ _ _, nofun⟩
  | cubicTo x1 y1 x2 y2 x y =>
    cases hdrawn
    exact ⟨rfl, nofun⟩
  | quadTo x1 y1 x y =>
    cases hdrawn
    exact ⟨rfl, nofun⟩
  | arcTo widthRadius heightRadius startAngle sweepAngle =>
    obtain ⟨center, radii, hrx, hry, hne, harc, hstart, hend⟩ :=
      exists_ellipseArc hx hy (isDropped_of_drawn hdrawn) startAngle
    obtain rfl := (List.cons.inj (harc.symm.trans hdrawn)).1
    have hturn := abs_degreesToRadians_le hsweep
    have hdata : ∀ p ∈ data.current,
        p = center + radii * .ofAngle (Angle.degreesToRadians startAngle) := by
      rcases hpen with hpen | ⟨x, y, hmove⟩
      · exact fun p hp => (hpen p hp).trans hstart
      · cases hmove
    obtain ⟨hcurrent, happends⟩ := replay_ellipseArc hrx hry hne hturn hdata
    refine ⟨by rw [hend]; exact hcurrent, ?_⟩
    rintro cx cy rx ry rotation start finish counterclockwise ⟨⟩ hsome
    rw [add_sub_cancel_left]
    exact happends hsome
  | close =>
    cases hdrawn
    contradiction

/-- The pen is where the tracer is, or nothing is drawn yet. -/
def PenAgrees (tracer : Tracer ℝ) (drawn : List (Primitive ℝ)) : Prop :=
  drawn = [] ∨ (ofPrimitives drawn).current = some tracer.current

theorem PenAgrees.eq_current {tracer : Tracer ℝ} {drawn : List (Primitive ℝ)}
    (h : tracer.PenAgrees drawn) : ∀ p ∈ (ofPrimitives drawn).current, p = tracer.current := by
  intro p hp
  rcases h with rfl | hcurrent
  · cases hp
  · exact Option.some.inj (hp.symm.trans hcurrent)

/-- After any commands the pens agree, unless the next command moves the pen anyway. -/
theorem penAgrees_pushAll (tracer : Tracer ℝ) (hx : 0 < tracer.scale.x) (hy : 0 < tracer.scale.y)
    {before : List (PathCommand ℝ)} {next : PathCommand ℝ}
    (hclose : MovesAfterClose (before ++ [next]))
    (hsweep : ∀ command ∈ before, command.SweepsOneTurn) :
    (tracer.pushAll before).PenAgrees (tracer.drawnAll before) ∨ ∃ x y, next = .moveTo x y := by
  induction before using List.reverseRecOn generalizing next with
  | nil => exact .inl (.inl rfl)
  | append_singleton before last ih =>
    -- the last command is itself the next one of those before it
    obtain ⟨hbefore, -, hnext⟩ := List.isChain_append.mp hclose
    have hpen := ih hbefore fun command hm => hsweep command (List.mem_append_left _ hm)
    rw [pushAll_concat, drawnAll_concat]
    by_cases hlast : last = .close
    · exact .inr (hnext last (by simp) next rfl hlast)
    left
    cases hd : last.isDropped with
    | true =>
      rw [push_of_isDropped hd, drawn_of_isDropped hd, List.append_nil]
      rcases hpen with hpen | ⟨x, y, rfl⟩
      · exact hpen
      · cases hd
    | false =>
      obtain ⟨primitive, hp, hiff⟩ := exists_drawn hd (tracer.pushAll before)
      rw [hp]
      right
      rw [ofPrimitives_concat]
      rw [← scale_pushAll tracer before] at hx hy
      exact (replay_drawn hx hy hp (mt hiff.mp hlast) (hsweep last (by simp))
        (hpen.imp_left PenAgrees.eq_current)).1

/-- An arc that does not come first finds the pen at the current point of the tracer. -/
theorem isSome_current_of_ellipseArc {tracer : Tracer ℝ} {drawn : List (Primitive ℝ)}
    {command : PathCommand ℝ} {cx cy rx ry rotation start finish : ℝ} {counterclockwise : Bool}
    (hpen : tracer.PenAgrees drawn ∨ ∃ x y, command = .moveTo x y)
    (hp : tracer.drawn command
      = [.ellipseArc cx cy rx ry rotation start finish counterclockwise])
    (hdrawn : drawn ≠ []) : (ofPrimitives drawn).current.isSome := by
  obtain (hnil | hcurrent) | ⟨x, y, rfl⟩ := hpen
  · contradiction
  · rw [hcurrent]
    rfl
  · cases hp

end Tracer

open Tracer

/-- Two pens, one path. Where closes are followed by moves, the axes are scaled by positive factors and no arc
sweeps more than a turn, every primitive of a trace but a close leaves the pen of the sink at the current point
that the tracer has after the command that drew the primitive; and an arc that does not come first is written as
one segment, or two for a full turn, with no line or move before it. -/
theorem trace_pen {commands : List (PathCommand ℝ)} {pathWidth pathHeight : Option ℝ} {width height : ℝ}
    (hx : 0 < axisScale pathWidth width) (hy : 0 < axisScale pathHeight height)
    (hclose : MovesAfterClose commands) (hsweep : ∀ command ∈ commands, command.SweepsOneTurn)
    {drawn rest : List (Primitive ℝ)} {primitive : Primitive ℝ}
    (h : trace commands pathWidth pathHeight width height = drawn ++ primitive :: rest) :
    ∃ before command after, commands = before ++ command :: after
      ∧ trace before pathWidth pathHeight width height = drawn
      ∧ trace (before ++ [command]) pathWidth pathHeight width height = drawn ++ [primitive]
      ∧ (primitive ≠ .close → (ofPrimitives (drawn ++ [primitive])).current
          = some ((Tracer.start pathWidth pathHeight width height).pushAll (before ++ [command])).current)
      ∧ ∀ cx cy rx ry rotation start finish counterclockwise,
          primitive = .ellipseArc cx cy rx ry rotation start finish counterclockwise → drawn ≠ [] →
          AppendsArcs (ofPrimitives drawn) (ofPrimitives (drawn ++ [primitive])) (finish - start) := by
  simp only [trace_eq_drawnAll] at h ⊢
  obtain ⟨before, command, after, rfl, rfl, hp⟩ := drawnAll_split h
  have hprefix : MovesAfterClose (before ++ [command]) := by
    rw [← List.singleton_append, ← List.append_assoc] at hclose
    exact hclose.left_of_append
  have hpen := penAgrees_pushAll (Tracer.start pathWidth pathHeight width height) hx hy hprefix
    fun c hc => hsweep c (List.mem_append_left _ hc)
  have hscale := scale_pushAll (Tracer.start pathWidth pathHeight width height) before
  have hstep (hne : primitive ≠ .close) := replay_drawn (hscale ▸ hx) (hscale ▸ hy) hp hne
    (hsweep command (by simp)) (hpen.imp_left PenAgrees.eq_current)
  refine ⟨before, command, after, rfl, rfl, ?_, ?_, ?_⟩
  · rw [drawnAll_concat, hp]
  · intro hne
    rw [ofPrimitives_concat, pushAll_concat]
    exact (hstep hne).1
  · rintro cx cy rx ry rotation start finish counterclockwise rfl hdrawn
    rw [ofPrimitives_concat]
    exact (hstep nofun).2 _ _ _ _ _ _ _ _ rfl (isSome_current_of_ellipseArc hpen hp hdrawn)

/-- A path that is stretched to twice its width and goes all around an ellipse. -/
theorem trace_full_turn :
    trace [.moveTo 5 0, .arcTo 5 10 0 360, .close] (some 10) none (20 : ℝ) 30
      = [.moveTo 10 0, .ellipseArc 0 0 10 10 0 0 (2 * π) false, .close] := by
  have hstart : Tracer.start (some 10) none (20 : ℝ) 30 = ⟨⟨20 / 10, 1⟩, .origin, #[]⟩ := by
    rw [start, axisScale_none, axisScale_some (by norm_num)]
  have hzero : Angle.degreesToRadians (0 : ℝ) = 0 := by rw [degreesToRadians_eq, zero_mul]
  have hturn : Angle.degreesToRadians (360 : ℝ) = 2 * π := by
    rw [degreesToRadians_eq]
    ring
  have hdrawn : isDegenerate (5 : ℝ) 10 (Angle.degreesToRadians 360) = false := by
    rw [isDegenerate_iff, hturn, abs_of_pos two_pi_pos]
    exact ⟨by norm_num, by norm_num, by linarith [two_le_pi]⟩
  have hforward : decide (Angle.degreesToRadians (360 : ℝ) < 0) = false := by
    rw [hturn]
    exact decide_eq_false two_pi_pos.not_gt
  rw [trace_eq_drawnAll, hstart]
  simp only [drawnAll, drawn_of_push (push_arcTo hdrawn _ _)]
  change [Primitive.moveTo (5 * (20 / 10) : ℝ) (0 * 1), .ellipseArc
    (5 * (20 / 10) - 5 * (20 / 10) * cos (Angle.degreesToRadians 0))
    (0 * 1 - 10 * 1 * sin (Angle.degreesToRadians 0)) (5 * (20 / 10)) (10 * 1) ((0 : ℕ) : ℝ)
    (Angle.degreesToRadians 0) (Angle.degreesToRadians 0 + Angle.degreesToRadians 360)
    (decide (Angle.degreesToRadians (360 : ℝ) < ((0 : ℕ) : ℝ))), .close] = _
  rw [Nat.cast_zero, hforward, hturn, hzero, cos_zero, sin_zero]
  norm_num

theorem trace_pen_full_turn :
    let commands : List (PathCommand ℝ) := [.moveTo 5 0, .arcTo 5 10 0 360, .close]
    let move : Primitive ℝ := .moveTo 10 0
    let arc : Primitive ℝ := .ellipseArc 0 0 10 10 0 0 (2 * π) false
    (0 < axisScale (some 10) (20 : ℝ) ∧ 0 < axisScale none (30 : ℝ) ∧ MovesAfterClose commands
      ∧ (∀ command ∈ commands, command.SweepsOneTurn)
      ∧ trace commands (some 10) none 20 30 = [move] ++ arc :: [.close])
    ∧ (∃ before command after, commands = before ++ command :: after
        ∧ (ofPrimitives [move, arc]).current
            = some ((Tracer.start (some 10) none 20 30).pushAll (before ++ [command])).current)
    ∧ AppendsArcs (ofPrimitives [move]) (ofPrimitives [move, arc]) (2 * π - 0) := by
  intro commands move arc
  have hx : 0 < axisScale (some 10) (20 : ℝ) := by
    rw [axisScale_some (by norm_num)]
    norm_num
  have hy : 0 < axisScale none (30 : ℝ) := by
    rw [axisScale_none]
    exact one_pos
  have hclose : MovesAfterClose commands := by simp [MovesAfterClose, commands]
  have hsweep : ∀ command ∈ commands, command.SweepsOneTurn := by
    simp [commands, PathCommand.SweepsOneTurn]
  have htrace : trace commands (some 10) none 20 30 = [move] ++ arc :: [.close] := trace_full_turn
  obtain ⟨before, command, after, hsplit, -, -, hcurrent, harc⟩ :=
    trace_pen hx hy hclose hsweep htrace
  exact ⟨⟨hx, hy, hclose, hsweep, htrace⟩,
    ⟨before, command, after, hsplit, hcurrent nofun⟩, harc _ _ _ _ _ _ _ _ rfl (by simp)⟩

end ShapeGeometry
