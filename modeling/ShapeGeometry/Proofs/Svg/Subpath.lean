import ShapeGeometry.Proofs.Path.Tracing
import ShapeGeometry.Proofs.Svg.Pen

namespace ShapeGeometry

variable {α : Type} [Scalar α]

namespace Tracer

/-- The state that the next commands see, without what was drawn. -/
def cleared (tracer : Tracer α) : Tracer α :=
  { tracer with primitives := #[] }

theorem cleared_push (tracer : Tracer α) (command : PathCommand α) :
    (tracer.push command).cleared = (tracer.cleared.push command).cleared := by
  cases command with
  | arcTo widthRadius heightRadius startAngle sweepAngle =>
    simp only [push, arcTo]
    split
    · rfl
    · rfl
  | _ => rfl

theorem drawn_congr {tracer other : Tracer α} (h : tracer.cleared = other.cleared)
    (command : PathCommand α) : tracer.drawn command = other.drawn command :=
  congrArg (fun t => (t.push command).primitives.toList) h

theorem drawnAll_congr {tracer other : Tracer α} (h : tracer.cleared = other.cleared)
    (commands : List (PathCommand α)) : tracer.drawnAll commands = other.drawnAll commands := by
  induction commands generalizing tracer other with
  | nil => rfl
  | cons command commands ih =>
    have hnext : (tracer.push command).cleared = (other.push command).cleared := by
      rw [cleared_push, h, ← cleared_push]
    rw [drawnAll, drawnAll, drawn_congr h, ih hnext]

/-- A move forgets the current point. -/
theorem drawnAll_moveTo {tracer other : Tracer α} (h : tracer.scale = other.scale) (x y : α)
    (commands : List (PathCommand α)) :
    tracer.drawnAll (.moveTo x y :: commands) = other.drawnAll (.moveTo x y :: commands) := by
  have hplace : tracer.place x y = other.place x y := congrArg (⟨x, y⟩ * ·) h
  have hdrawn : tracer.drawn (.moveTo x y) = other.drawn (.moveTo x y) :=
    congrArg (fun p : Point α => [Primitive.moveTo p.x p.y]) hplace
  have hcleared : (tracer.push (.moveTo x y)).cleared = (other.push (.moveTo x y)).cleared :=
    congrArg₂ (fun scale p => (⟨scale, p, #[]⟩ : Tracer α)) h hplace
  rw [drawnAll, drawnAll, hdrawn, drawnAll_congr hcleared]

end Tracer

theorem trace_append_moveTo (first rest : List (PathCommand α)) (x y : α)
    (pathWidth pathHeight : Option α) (width height : α) :
    trace (first ++ .moveTo x y :: rest) pathWidth pathHeight width height
      = trace first pathWidth pathHeight width height
        ++ trace (.moveTo x y :: rest) pathWidth pathHeight width height := by
  rw [trace_eq_drawnAll, trace_eq_drawnAll, trace_eq_drawnAll, Tracer.drawnAll_append,
    Tracer.drawnAll_moveTo (Tracer.scale_pushAll _ first)]

namespace Svg.PathData

/-- What a call draws is decided by the current point. -/
theorem drawnBy_congr {data other : PathData α} (h : data.pen = other.pen) (call : Primitive α) :
    data.drawnBy call = other.drawnBy call := by
  have hcurrent : data.current = other.current := congrArg Pen.point h
  cases call with
  | moveTo x y => rfl
  | close => rfl
  | _ => simp only [drawnBy, lineSegments, startSegments, joinSegments, hcurrent]

theorem drawnByAll_congr {data other : PathData α} (h : data.pen = other.pen)
    (calls : List (Primitive α)) : data.drawnByAll calls = other.drawnByAll calls := by
  induction calls generalizing data other with
  | nil => rfl
  | cons call calls ih =>
    have hnext : (call.replay data).pen = (call.replay other).pen := by
      rw [replay_eq_emitAll, replay_eq_emitAll, pen_emitAll, pen_emitAll, drawnBy_congr h, h]
    rw [drawnByAll, drawnByAll, drawnBy_congr h, ih hnext]

/-- A move forgets the current point and the start of the subpath. -/
theorem drawnByAll_moveTo (data other : PathData α) (x y : α) (calls : List (Primitive α)) :
    data.drawnByAll (.moveTo x y :: calls) = other.drawnByAll (.moveTo x y :: calls) := by
  have hpen : (data.moveTo x y).pen = (other.moveTo x y).pen := rfl
  exact congrArg (Segment.moveTo ⟨x, y⟩ :: ·) (drawnByAll_congr hpen calls)

theorem text_append_moveTo (first rest : List (Primitive Float)) (x y : Float) :
    (ofPrimitives (first ++ .moveTo x y :: rest)).text
      = (ofPrimitives first).text ++ (ofPrimitives (.moveTo x y :: rest)).text := by
  rw [text_ofPrimitives, text_ofPrimitives, text_ofPrimitives, drawnByAll_append, text_append,
    drawnByAll_moveTo (replay {} first) {}]

end Svg.PathData

open Svg in
/-- Subpaths are independent. Where commands are followed by a move and more, the trace is that of the commands and
then that of what follows, each from the start, and so is the path data, each in a sink of its own. -/
theorem trace_subpath (first rest : List (PathCommand Float)) (x y : Float)
    (pathWidth pathHeight : Option Float) (width height : Float) :
    let traced commands := trace commands pathWidth pathHeight width height
    traced (first ++ .moveTo x y :: rest) = traced first ++ traced (.moveTo x y :: rest)
    ∧ (PathData.ofPrimitives (traced (first ++ .moveTo x y :: rest))).text
      = (PathData.ofPrimitives (traced first)).text
        ++ (PathData.ofPrimitives (traced (.moveTo x y :: rest))).text := by
  intro traced
  have htrace : traced (first ++ .moveTo x y :: rest) = traced first ++ traced (.moveTo x y :: rest) :=
    trace_append_moveTo first rest x y pathWidth pathHeight width height
  refine ⟨htrace, ?_⟩
  have hhead : traced (.moveTo x y :: rest)
      = (Tracer.start pathWidth pathHeight width height).drawnAll (.moveTo x y :: rest) :=
    trace_eq_drawnAll _ pathWidth pathHeight width height
  rw [htrace, hhead]
  exact PathData.text_append_moveTo _ _ _ _

end ShapeGeometry
