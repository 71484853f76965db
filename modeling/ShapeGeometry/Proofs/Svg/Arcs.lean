import ShapeGeometry.Proofs.Exact.Scalar
import ShapeGeometry.Proofs.Svg.ArcRule
import ShapeGeometry.Proofs.Svg.Emission

namespace ShapeGeometry.Svg

open Exact Real

/-- An arc in equal pieces, each a curve over the unit interval. -/
noncomputable def pieces (center radii : Point ℝ) (rotation start sweep : ℝ) (count : ℕ) :
    List (ℝ → Point ℝ) :=
  (List.range count).map fun (i : ℕ) (part : ℝ) =>
    ellipsePoint center radii rotation (start + (i + part) / count * sweep)

/-- The points that curves pass over the unit interval. -/
def traced (curves : List (ℝ → Point ℝ)) : Set (Point ℝ) :=
  {p | ∃ curve ∈ curves, ∃ part ∈ Set.Icc (0 : ℝ) 1, curve part = p}

/-- The pieces of an arc pass all its points and no others. -/
theorem traced_pieces (center radii : Point ℝ) (rotation start sweep : ℝ) {count : ℕ} (h : 0 < count) :
    traced (pieces center radii rotation start sweep count)
      = (fun part => ellipsePoint center radii rotation (start + part * sweep)) '' Set.Icc 0 1 := by
  have hcount : (0 : ℝ) < count := by exact_mod_cast h
  ext p
  constructor
  · rintro ⟨curve, hcurve, part, ⟨hlow, hhigh⟩, rfl⟩
    obtain ⟨i, hi, rfl⟩ := List.mem_map.mp hcurve
    have hi' : (i : ℝ) + 1 ≤ count := by exact_mod_cast List.mem_range.mp hi
    exact ⟨(i + part) / count, ⟨by positivity, (div_le_one hcount).mpr (by linarith)⟩, rfl⟩
  · rintro ⟨part, ⟨hlow, hhigh⟩, rfl⟩
    have hscaled {i : ℕ} (hi : i < count) (hpart : part * count - i ∈ Set.Icc (0 : ℝ) 1) :
        ellipsePoint center radii rotation (start + part * sweep)
          ∈ traced (pieces center radii rotation start sweep count) := by
      refine ⟨_, List.mem_map.mpr ⟨i, List.mem_range.mpr hi, rfl⟩, part * count - i, hpart, ?_⟩
      rw [add_sub_cancel, mul_div_cancel_right₀ _ hcount.ne']
    rcases hhigh.lt_or_eq with hlt | rfl
    · have hnonneg : 0 ≤ part * count := by positivity
      have hfloor := Nat.floor_le hnonneg
      have hnext := Nat.lt_floor_add_one (part * count)
      refine hscaled ((Nat.floor_lt hnonneg).mpr ?_) ⟨by linarith, by linarith⟩
      exact mul_lt_of_lt_one_left hcount hlt
    · -- the last point is in the last piece
      apply hscaled (Nat.sub_lt h Nat.one_pos)
      rw [Nat.cast_sub h, Nat.cast_one, one_mul, sub_sub_cancel]
      exact ⟨zero_le_one, le_rfl⟩

theorem point_eq_ellipsePoint (center radii : Point ℝ) (rotation start sweep part : ℝ) :
    Turn.point ⟨center, start, sweep⟩ radii (Angle.radiansToDegrees rotation) part
      = ellipsePoint center radii rotation (start + part * sweep) := by
  have htilt : Angle.radiansToDegrees rotation * (π / 180) = rotation := by
    have hpi := pi_ne_zero
    rw [radiansToDegrees_eq]
    field_simp
  rw [Turn.point, htilt]
  rfl

section Segments

variable {center radii : Point ℝ} {rotation start sweep : ℝ}

/-- The segment that is written for a turn. -/
noncomputable def arcSegment (center radii : Point ℝ) (rotation start sweep : ℝ) (large : Bool) :
    Segment ℝ :=
  .arcTo radii (Angle.radiansToDegrees rotation) large (decide (0 < sweep))
    (ellipsePoint center radii rotation (start + sweep))

/-- A whole turn, or one that is nearly so, is written as two halves. -/
theorem arcSegments_eq (hs : sweep ≠ 0) (hx : radii.x ≠ 0) (hy : radii.y ≠ 0) :
    PathData.arcSegments center radii rotation start sweep
      = if 2 * π - 1e-6 ≤ |sweep| then
          [arcSegment center radii rotation start (sweep / 2) false,
            arcSegment center radii rotation (start + sweep / 2) (sweep / 2) (decide (π < |sweep / 2|))]
        else [arcSegment center radii rotation start sweep (decide (π < |sweep|))] := by
  have hsign : (@OfNat.ofNat ℝ 0 (Scalar.instOfNat 0) < sweep) = (0 < sweep) := by rw [ofNat_eq, Nat.cast_zero]
  have hhalf : (0 < sweep / 2) = (0 < sweep) := by rw [div_pos_iff_of_pos_right two_pos]
  have hlast : start + sweep / 2 + sweep / 2 = start + sweep := by rw [add_assoc, add_halves]
  unfold PathData.arcSegments
  simp only [beq_zero_of_ne hs, beq_zero_of_ne hx, beq_zero_of_ne hy, Bool.or_self, Bool.false_eq_true,
    ↓reduceIte, isFullTurn_iff, hsign, arcSegment, hhalf, hlast]
  rfl

/-- A reader draws the turn from the segment that is written for it, and goes on. -/
theorem draws_arcSegment_iff {large : Bool} {segments : List (Segment ℝ)} {curves : List (ℝ → Point ℝ)}
    (hx : radii.x ≠ 0) (hy : radii.y ≠ 0) (hlt : |sweep| < 2 * π) (hs : sweep ≠ 0)
    (hsize : if large then π ≤ |sweep| else |sweep| ≤ π) :
    Draws (ellipsePoint center radii rotation start)
        (arcSegment center radii rotation start sweep large :: segments) curves
      ↔ ∃ rest, Draws (ellipsePoint center radii rotation (start + sweep)) segments rest
        ∧ curves = (fun part => ellipsePoint center radii rotation (start + part * sweep)) :: rest := by
  have hselected := Turn.isSelected ⟨center, start, sweep⟩ (Angle.radiansToDegrees rotation) hx hy hlt hs hsize
  have hpoint : Turn.point ⟨center, start, sweep⟩ radii (Angle.radiansToDegrees rotation)
      = fun part => ellipsePoint center radii rotation (start + part * sweep) :=
    funext fun part => point_eq_ellipsePoint center radii rotation start sweep part
  rw [hpoint] at hselected
  dsimp only at hselected
  rw [zero_mul, add_zero, one_mul] at hselected
  rw [arcSegment, draws_cons_iff hx hy hselected, hpoint]

theorem pieces_one (center radii : Point ℝ) (rotation start sweep : ℝ) :
    pieces center radii rotation start sweep 1
      = [fun part => ellipsePoint center radii rotation (start + part * sweep)] := by
  simp [pieces]

theorem pieces_two (center radii : Point ℝ) (rotation start sweep : ℝ) :
    pieces center radii rotation start sweep 2
      = [fun part => ellipsePoint center radii rotation (start + part * (sweep / 2)),
        fun part => ellipsePoint center radii rotation (start + sweep / 2 + part * (sweep / 2))] := by
  have hfirst (part : ℝ) : start + (((0 : ℕ) : ℝ) + part) / ((2 : ℕ) : ℝ) * sweep
      = start + part * (sweep / 2) := by
    push_cast
    ring
  have hsecond (part : ℝ) : start + (((1 : ℕ) : ℝ) + part) / ((2 : ℕ) : ℝ) * sweep
      = start + sweep / 2 + part * (sweep / 2) := by
    push_cast
    ring
  rw [pieces, List.range_succ, List.range_one, List.map_append, List.map_singleton, List.map_singleton]
  simp only [hfirst, hsecond, List.singleton_append]

theorem size_of_lt (sweep : ℝ) : if decide (π < |sweep|) then π ≤ |sweep| else |sweep| ≤ π := by
  by_cases h : π < |sweep|
  · rw [if_pos (decide_eq_true h)]
    exact h.le
  · rw [if_neg (by simpa using h)]
    exact not_lt.mp h

/-- A reader draws an arc in one piece, or in two where it is a whole turn. -/
theorem draws_arcSegments_iff (hs : sweep ≠ 0) (hturn : |sweep| ≤ 2 * π) (hx : radii.x ≠ 0)
    (hy : radii.y ≠ 0) (curves : List (ℝ → Point ℝ)) :
    let arcs := PathData.arcSegments center radii rotation start sweep
    Draws (ellipsePoint center radii rotation start) arcs curves
      ↔ curves = pieces center radii rotation start sweep arcs.length := by
  intro arcs
  have hpi := pi_pos
  have harcs : arcs = _ := arcSegments_eq hs hx hy
  rw [harcs]
  split
  · have hhalf : |sweep / 2| ≤ π := by
      rw [abs_div, abs_two]
      linarith
    have hlt : |sweep / 2| < 2 * π := by linarith
    have hne : sweep / 2 ≠ 0 := div_ne_zero hs two_ne_zero
    have hsmall : if false = true then π ≤ |sweep / 2| else |sweep / 2| ≤ π := hhalf
    rw [draws_arcSegment_iff hx hy hlt hne hsmall]
    simp only [draws_arcSegment_iff hx hy hlt hne (size_of_lt _), draws_nil_iff, exists_eq_left, List.length_cons,
      List.length_nil, Nat.reduceAdd, pieces_two]
  · next hpart =>
    have hlt : |sweep| < 2 * π := by
      have htolerance : (0 : ℝ) < 1e-6 := by norm_num
      linarith
    simp only [draws_arcSegment_iff hx hy hlt hs (size_of_lt _), draws_nil_iff, exists_eq_left, List.length_cons,
      List.length_nil, Nat.reduceAdd, pieces_one]

end Segments

/-- An arc that begins at the current point, or where there is none, is not joined by a line. -/
theorem joinSegments_eq_startSegments {data : PathData ℝ} {first : Point ℝ}
    (h : ∀ p ∈ data.current, p = first) : data.joinSegments first = data.startSegments first := by
  cases hc : data.current with
  | none => simp only [PathData.joinSegments, PathData.startSegments, hc]
  | some p =>
    obtain rfl := h p hc
    have hnear : ¬ PathData.joinTolerance < (p - p).length := by
      rw [length_sub_self, joinTolerance_eq]
      norm_num
    simp only [PathData.joinSegments, PathData.startSegments, hc, if_neg hnear]

/-- Arcs that are given by centre and angles are selected by the ends and the flags that are written for them. What
a call writes is a move, where there is no current point, and arc segments. A reader draws from these the part of
the ellipse from the start by the sweep, in equal pieces one after the other. -/
theorem draws_ellipseArc (data : PathData ℝ) {cx cy rx ry rotation start finish : ℝ} {counterclockwise : Bool}
    (hx : rx ≠ 0) (hy : ry ≠ 0) (hs : normalizedSweep start finish counterclockwise ≠ 0)
    (hcurrent : ∀ p ∈ data.current, p = ellipsePoint ⟨cx, cy⟩ ⟨|rx|, |ry|⟩ rotation start) :
    let point := ellipsePoint ⟨cx, cy⟩ ⟨|rx|, |ry|⟩ rotation
    let sweep := normalizedSweep start finish counterclockwise
    ∃ arcs : List (Segment ℝ),
      (data.ellipseArc cx cy rx ry rotation start finish counterclockwise).segments.toList
          = data.segments.toList ++ (data.startSegments (point start) ++ arcs)
        ∧ (∀ segment ∈ arcs, segment.IsArc)
        ∧ (∀ curves, Draws (point start) arcs curves
          ↔ curves = pieces ⟨cx, cy⟩ ⟨|rx|, |ry|⟩ rotation start sweep arcs.length)
        ∧ traced (pieces ⟨cx, cy⟩ ⟨|rx|, |ry|⟩ rotation start sweep arcs.length)
          = (fun part => point (start + part * sweep)) '' Set.Icc 0 1 := by
  intro point sweep
  have hx' : (⟨|rx|, |ry|⟩ : Point ℝ).x ≠ 0 := abs_ne_zero.mpr hx
  have hy' : (⟨|rx|, |ry|⟩ : Point ℝ).y ≠ 0 := abs_ne_zero.mpr hy
  obtain ⟨hall, hlength, -⟩ := PathData.arcSegments_drawn (beq_zero_of_ne hs) (beq_zero_of_ne hx')
    (beq_zero_of_ne hy') ⟨cx, cy⟩ rotation start
  refine ⟨PathData.arcSegments ⟨cx, cy⟩ ⟨|rx|, |ry|⟩ rotation start sweep, ?_, hall,
    draws_arcSegments_iff hs (abs_normalizedSweep_le _ _ _) hx' hy', traced_pieces _ _ _ _ _ ?_⟩
  · rw [PathData.ellipseArc_eq_emitAll, PathData.segments_emitAll, PathData.drawnBy,
      ← joinSegments_eq_startSegments hcurrent]
    rfl
  · rw [hlength]
    split
    · exact two_pos
    · exact one_pos

/-- A whole turn of a tilted ellipse, from the current point and back. -/
theorem draws_ellipseArc_turn :
    let first := ellipsePoint ⟨0, 0⟩ ⟨|-2|, |1|⟩ (π / 6) 0
    let data : PathData ℝ := ({} : PathData ℝ).moveTo first.x first.y
    normalizedSweep 0 (2 * π) false = 2 * π ∧ (∀ p ∈ data.current, p = first)
      ∧ ∃ arcs, (data.ellipseArc 0 0 (-2) 1 (π / 6) 0 (2 * π) false).segments.toList
          = data.segments.toList ++ (data.startSegments first ++ arcs)
        ∧ ∀ curves, Draws first arcs curves
          ↔ curves = pieces ⟨0, 0⟩ ⟨|-2|, |1|⟩ (π / 6) 0 (2 * π) arcs.length := by
  intro first data
  have hsweep : normalizedSweep 0 (2 * π) false = 2 * π := by
    have hadd := @normalizedSweep_add 0 (2 * π) (abs_of_pos two_pi_pos).le
    rwa [zero_add, decide_eq_false (not_lt.mpr two_pi_pos.le)] at hadd
  have hne : normalizedSweep 0 (2 * π) false ≠ 0 := by
    rw [hsweep]
    exact two_pi_pos.ne'
  have hcurrent : ∀ p ∈ data.current, p = first := by
    rintro p ⟨⟩
    rfl
  obtain ⟨arcs, hsegments, -, hdraws, -⟩ := @draws_ellipseArc data 0 0 (-2) 1 (π / 6) 0 (2 * π) false
    (by norm_num) (by norm_num) hne hcurrent
  rw [hsweep] at hdraws
  exact ⟨hsweep, hcurrent, arcs, hsegments, hdraws⟩

end ShapeGeometry.Svg
