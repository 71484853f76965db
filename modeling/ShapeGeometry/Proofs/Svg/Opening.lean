import ShapeGeometry.Proofs.Path.Tracing
import ShapeGeometry.Proofs.Svg.Emission
import ShapeGeometry.Shape.Catalogue

/-!
How path data opens. A call that draws without a current point moves first, but a close is written as it
stands.
-/

namespace ShapeGeometry

/-- The number of closes before the first other primitive. -/
def Primitive.leadingCloses {α : Type} : List (Primitive α) → Nat
  | close :: primitives => leadingCloses primitives + 1
  | _ => 0

theorem Primitive.leadingCloses_eq_zero_iff {α : Type} (primitives : List (Primitive α)) :
    leadingCloses primitives = 0 ↔ primitives.head? ≠ some .close := by
  cases primitives with
  | nil => simp [leadingCloses]
  | cons primitive primitives => cases primitive <;> simp [leadingCloses]

namespace Svg

/-- Path data that is empty or begins with a move. -/
def OpensWithMove (text : String) : Prop :=
  text = "" ∨ ∃ rest, text = "M" ++ rest

theorem opensWithMove_iff (text : String) :
    OpensWithMove text ↔ ∀ c ∈ text.toList.head?, c = 'M' := by
  constructor
  · rintro (rfl | ⟨rest, rfl⟩)
    · exact nofun
    · simp
  · intro h
    cases ht : text.toList with
    | nil => exact .inl (String.toList_eq_nil_iff.mp ht)
    | cons c rest =>
      obtain rfl := h c (by rw [ht]; rfl)
      exact .inr ⟨String.ofList rest, by simp [String.ext_iff, ht]⟩

theorem text_closes (count : Nat) :
    text (List.replicate count .close) = String.ofList (List.replicate count 'Z') := by
  have hchars : (Segment.close : Segment Float).chars = ['Z'] := rfl
  rw [text, List.flatMap_replicate, hchars, List.flatten_replicate_singleton]

theorem opensWithMove_text {segments : List (Segment Float)}
    (h : ∀ segment ∈ segments.head?, ∃ p, segment = .moveTo p) : OpensWithMove (text segments) := by
  rw [opensWithMove_iff, text]
  cases segments with
  | nil => simp
  | cons segment segments =>
    obtain ⟨p, rfl⟩ := h segment rfl
    simp [Segment.chars]

namespace PathData

variable {α : Type} [Scalar α]

/-- Without a current point every call but a close moves before it draws. -/
theorem head?_drawnBy {data : PathData α} (h : data.current = none) {call : Primitive α}
    (hc : call ≠ .close) : ∃ p, (data.drawnBy call).head? = some (.moveTo p) := by
  cases call with
  | close => contradiction
  | _ => simp [drawnBy, lineSegments, startSegments, joinSegments, h]

theorem drawnByAll_opening {data : PathData α} (hc : data.current = none)
    (hs : data.subpathStart = none) (calls : List (Primitive α)) :
    ∃ rest, data.drawnByAll calls = List.replicate (Primitive.leadingCloses calls) .close ++ rest
      ∧ ∀ segment ∈ rest.head?, ∃ p, segment = .moveTo p := by
  induction calls generalizing data with
  | nil => exact ⟨[], rfl, nofun⟩
  | cons call calls ih =>
    by_cases hclose : call = .close
    · subst hclose
      -- the pen goes back to the start of a subpath that there is not
      have hcurrent : (data.close).current = none := hs
      obtain ⟨rest, hrest, hmove⟩ := ih hcurrent hs
      refine ⟨rest, ?_, hmove⟩
      change Segment.close :: data.close.drawnByAll calls = _
      rw [hrest]
      rfl
    · obtain ⟨p, hp⟩ := head?_drawnBy hc hclose
      have hnone : Primitive.leadingCloses (call :: calls) = 0 :=
        (Primitive.leadingCloses_eq_zero_iff _).mpr (by simpa using hclose)
      refine ⟨data.drawnByAll (call :: calls), by simp [hnone], ?_⟩
      intro segment hm
      rw [drawnByAll, List.head?_append, hp] at hm
      exact ⟨p, (Option.some.inj hm).symm⟩

end PathData

end Svg

open Svg Primitive

/-- The text is a `Z` for each close that comes before everything else, and then opens with a move. -/
theorem TracedPath.svg_opening (path : TracedPath Float) :
    ∃ rest, path.svg = String.ofList (List.replicate (leadingCloses path.primitives) 'Z') ++ rest
      ∧ OpensWithMove rest := by
  have hfresh : ({} : PathData Float).current = none ∧ ({} : PathData Float).subpathStart = none :=
    ⟨rfl, rfl⟩
  obtain ⟨rest, hrest, hmove⟩ := PathData.drawnByAll_opening hfresh.1 hfresh.2 path.primitives
  refine ⟨text rest, ?_, opensWithMove_text hmove⟩
  rw [svg, PathData.text_ofPrimitives, hrest, text_append, text_closes]

theorem TracedPath.svg_opens_iff (path : TracedPath Float) :
    OpensWithMove path.svg ↔ path.primitives.head? ≠ some .close := by
  obtain ⟨rest, hsvg, hrest⟩ := path.svg_opening
  rw [← leadingCloses_eq_zero_iff, hsvg]
  cases leadingCloses path.primitives with
  | zero => simpa using hrest
  | succ count =>
    simp [opensWithMove_iff, List.replicate_succ]

/-- Path data that opens otherwise comes from paths that begin with a close, and only from these. -/
theorem Layout.svgPaths_open_iff (layout : Layout Float) (width height : Float) :
    (∀ text ∈ layout.svgPaths width height, OpensWithMove text)
      ↔ ∀ path ∈ layout.paths,
          path.commands.find? (fun command => !command.isDropped) ≠ some .close := by
  simp only [svgPaths, trace, Outline.trace, List.map_map, List.forall_mem_map, Function.comp_apply,
    TracedPath.svg_opens_iff, trace_eq_drawnAll, ne_eq, Tracer.head?_drawnAll_eq_close]

def PathCommand.isMove {γ : Type} : PathCommand γ → Bool
  | moveTo _ _ => true
  | _ => false

theorem Catalogue.paths_begin_with_move {α : Type} [Scalar α] :
    ∀ preset ∈ (presets : List (Preset α)), ∀ path ∈ preset.paths,
      path.commands.head?.any PathCommand.isMove = true := by
  have hall : (presets : List (Preset α)).all (fun preset =>
      preset.paths.all fun path => path.commands.head?.any PathCommand.isMove) = true := rfl
  simpa only [List.all_eq_true] using hall

theorem Outline.find?_resolve {α : Type} [Scalar α] {path : PresetPath α}
    (h : path.commands.head?.any PathCommand.isMove = true) (scope : Scope α) :
    (path.resolve scope).commands.find? (fun command => !command.isDropped) ≠ some .close := by
  cases hc : path.commands with
  | nil => simp [hc] at h
  | cons command commands =>
    cases command with
    | moveTo x y => simp [Outline.resolve, hc, PathCommand.map, PathCommand.isDropped]
    | _ => simp [hc, PathCommand.isMove] at h

theorem Catalogue.svgPaths_open {name : String} {width height : Float}
    {overrides : Option (Table Float)} {layout : Layout Float}
    (h : Catalogue.resolve? name width height overrides = some layout)
    (shapeWidth shapeHeight : Float) :
    ∀ text ∈ layout.svgPaths shapeWidth shapeHeight, OpensWithMove text := by
  obtain ⟨preset, hp, rfl⟩ := Option.map_eq_some_iff.mp h
  rw [Layout.svgPaths_open_iff]
  intro path hpath
  obtain ⟨source, hs, rfl⟩ := List.mem_map.mp hpath
  have hpreset := List.mem_of_find?_eq_some hp
  exact Outline.find?_resolve (paths_begin_with_move preset hpreset source hs) _

/-- Path data is empty or opens with a move unless a close comes first: for every list of primitives, and for
the paths of every geometry at every size. The paths of the presets always do, whatever they are adjusted to. -/
theorem svg_opens_unless_closed (path : TracedPath Float) (layout : Layout Float) (width height : Float) :
    (OpensWithMove path.svg ↔ path.primitives.head? ≠ some .close)
    ∧ ((∀ text ∈ layout.svgPaths width height, OpensWithMove text)
        ↔ ∀ path ∈ layout.paths,
            path.commands.find? (fun command => !command.isDropped) ≠ some .close)
    ∧ ∀ name presetWidth presetHeight overrides,
        Catalogue.resolve? name presetWidth presetHeight overrides = some layout →
          ∀ text ∈ layout.svgPaths width height, OpensWithMove text := by
  refine ⟨path.svg_opens_iff, layout.svgPaths_open_iff width height, ?_⟩
  intro name presetWidth presetHeight overrides hresolve
  exact Catalogue.svgPaths_open hresolve width height

theorem svg_close_first : ¬ OpensWithMove (TracedPath.svg ⟨.norm, true, [.close]⟩) := by
  have hsvg : TracedPath.svg ⟨.norm, true, [.close]⟩ = "Z" := rfl
  rw [hsvg]
  exact fun h => absurd ((opensWithMove_iff "Z").mp h 'Z' rfl) (by decide)

end ShapeGeometry
