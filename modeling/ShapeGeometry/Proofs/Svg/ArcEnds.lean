import ShapeGeometry.Proofs.Svg.ArcRule
import ShapeGeometry.Proofs.Svg.Emission
import ShapeGeometry.Proofs.Svg.NumberOrder

/-!
A reader of path data does not draw an arc whose ends are printed alike.
-/

namespace ShapeGeometry

/-- The arithmetic of the machine, with a sine and a cosine. With those of the machine it is its own scalar. -/
@[reducible] def Binary64.withTrigonometry (sine cosine : Float → Float) : Scalar Float :=
  { (inferInstance : Scalar Float) with sin := sine, cos := cosine }

namespace Svg

open Binary64 Real

namespace Number

theorem abs_written_sub_le (v : Fields) : |written v - v.value| ≤ 5 / 10 ^ 6 * |v.value| + 1 / 10 ^ 9 := by
  have habs := abs_nonneg v.value
  rw [written]
  by_cases h : |v.value| < 1 / 10 ^ 9
  · rw [writtenMagnitude, if_pos h, mul_zero, zero_sub, abs_neg]
    linarith
  · have hne := abs_pos.mp (value_pos_of_le (not_lt.mp h))
    have hround := (Decimal.abs_rounded_sub_le v (exactPlaces v)).trans (half_unit_le hne)
    rw [abs_sign_mul_sub, writtenMagnitude, if_neg h]
    linarith

/-- Numbers that are printed alike differ by little. -/
theorem abs_sub_le_of_chars_eq {x y : Float} {u v : Fields} (hx : fields? x = some u) (hy : fields? y = some v)
    (h : chars x = chars y) : |u.value - v.value| ≤ 5 / 10 ^ 6 * (|u.value| + |v.value|) + 2 / 10 ^ 9 := by
  obtain ⟨m, hm, hmvalue⟩ := exists_written hx
  obtain ⟨n, hn, hnvalue⟩ := exists_written hy
  have hsame : written u = written v := by
    rw [h, hn] at hm
    rw [← hmvalue, ← hnvalue, Option.some.inj hm]
  have hu := abs_written_sub_le u
  have hv := abs_written_sub_le v
  rw [abs_sub_comm] at hu
  calc |u.value - v.value| ≤ |u.value - written u| + |written u - v.value| := abs_sub_le _ _ _
    _ ≤ 5 / 10 ^ 6 * |u.value| + 1 / 10 ^ 9 + (5 / 10 ^ 6 * |v.value| + 1 / 10 ^ 9) :=
      add_le_add hu (hsame ▸ hv)
    _ = 5 / 10 ^ 6 * (|u.value| + |v.value|) + 2 / 10 ^ 9 := by ring

end Number

/-- The texts of the two coordinates. -/
def printed (p : Point Float) : List Char × List Char :=
  (Number.chars p.x, Number.chars p.y)

/-- A number that was computed for an exact value, with an error and in a range that are bounded. -/
def Computed (x : Float) (exact error extent : ℝ) : Prop :=
  ∃ v, fields? x = some v ∧ |(v.value : ℝ) - exact| ≤ error ∧ |(v.value : ℝ)| ≤ extent

/-- A point that was computed for an exact one. -/
def ComputedPoint (p : Point Float) (exact : Point ℝ) (error extent : ℝ) : Prop :=
  Computed p.x exact.x error extent ∧ Computed p.y exact.y error extent

section Printing

variable {error extent : ℝ}

theorem chars_ne_of_computed {x y : Float} {a b : ℝ} (hx : Computed x a error extent)
    (hy : Computed y b error extent) (h : extent / 10 ^ 5 + 2 / 10 ^ 9 + 2 * error < |b - a|) :
    Number.chars x ≠ Number.chars y := by
  obtain ⟨u, hu, huerror, huextent⟩ := hx
  obtain ⟨v, hv, hverror, hvextent⟩ := hy
  intro hsame
  have hclose : ((|u.value - v.value| : Rat) : ℝ)
      ≤ ((5 / 10 ^ 6 * (|u.value| + |v.value|) + 2 / 10 ^ 9 : Rat) : ℝ) :=
    Rat.cast_le.mpr (Number.abs_sub_le_of_chars_eq hu hv hsame)
  push_cast at hclose
  have hexact : |b - a| ≤ error + (|(u.value : ℝ) - v.value| + error) := by
    calc |b - a| ≤ |b - v.value| + (|(v.value : ℝ) - u.value| + |(u.value : ℝ) - a|) :=
          (abs_sub_le b v.value a).trans (add_le_add le_rfl (abs_sub_le _ _ _))
      _ ≤ error + (|(u.value : ℝ) - v.value| + error) := by
        rw [abs_sub_comm b, abs_sub_comm (v.value : ℝ) u.value]
        exact add_le_add hverror (add_le_add le_rfl huerror)
  linarith

/-- Points that are far enough apart in one of the coordinates are printed apart. -/
theorem printed_ne_of_computed {p q : Point Float} {a b : Point ℝ} (hp : ComputedPoint p a error extent)
    (hq : ComputedPoint q b error extent)
    (h : extent / 10 ^ 5 + 2 / 10 ^ 9 + 2 * error < max |b.x - a.x| |b.y - a.y|) : printed p ≠ printed q := by
  intro hsame
  obtain ⟨hx, hy⟩ := Prod.mk.inj hsame
  rcases lt_max_iff.mp h with hx' | hy'
  · exact chars_ne_of_computed hp.1 hq.1 hx' hx
  · exact chars_ne_of_computed hp.2 hq.2 hy' hy

end Printing

namespace Turn

section Reach

variable (turn : Turn) (radii : Point ℝ) (rotation : ℝ)

/-- A part of the turn as a turn of its own. -/
noncomputable def piece (first last : ℝ) : Turn :=
  ⟨turn.center, turn.start + first * turn.sweep, (last - first) * turn.sweep⟩

theorem point_piece_zero (first last : ℝ) :
    (turn.piece first last).point radii rotation 0 = turn.point radii rotation first := by
  simp [point, piece]

theorem point_piece_one (first last : ℝ) :
    (turn.piece first last).point radii rotation 1 = turn.point radii rotation last := by
  have hangle : turn.start + first * turn.sweep + 1 * ((last - first) * turn.sweep)
      = turn.start + last * turn.sweep := by ring
  rw [point, point, piece]
  simp only [hangle]

/-- One of the coordinates changes by at least the length of the chord over the square root of two, and the chord
is at least that of a circle with the smaller of the radii. -/
theorem chord_le_max {reach : ℝ} (hr : 0 ≤ reach) (hx : reach ≤ |radii.x|) (hy : reach ≤ |radii.y|) :
    let first := turn.point radii rotation 0
    let last := turn.point radii rotation 1
    √2 * |sin (turn.sweep / 2)| * reach ≤ max |last.x - first.x| |last.y - first.y| := by
  intro first last
  obtain ⟨halong, hacross⟩ := turn.chord radii rotation
  have htilt := cos_sq_add_sin_sq (rotation * (π / 180))
  have hmiddle := sin_sq_add_cos_sq turn.middle
  have hsquares : (last.x - first.x) ^ 2 + (last.y - first.y) ^ 2
      = (radii.x * (2 * sin (turn.sweep / 2) * -sin turn.middle)) ^ 2
        + (radii.y * (2 * sin (turn.sweep / 2) * cos turn.middle)) ^ 2 := by
    rw [← halong, ← hacross]
    linear_combination (-(last.x - first.x) ^ 2 - (last.y - first.y) ^ 2) * htilt
  have hx2 : reach ^ 2 ≤ radii.x ^ 2 := sq_le_sq.mpr (by rwa [abs_of_nonneg hr])
  have hy2 : reach ^ 2 ≤ radii.y ^ 2 := sq_le_sq.mpr (by rwa [abs_of_nonneg hr])
  have hlength : 4 * sin (turn.sweep / 2) ^ 2 * reach ^ 2 ≤ (last.x - first.x) ^ 2 + (last.y - first.y) ^ 2 := by
    calc 4 * sin (turn.sweep / 2) ^ 2 * reach ^ 2
        = 4 * sin (turn.sweep / 2) ^ 2 * (sin turn.middle ^ 2 * reach ^ 2 + cos turn.middle ^ 2 * reach ^ 2) := by
          rw [← add_mul, hmiddle, one_mul]
      _ ≤ 4 * sin (turn.sweep / 2) ^ 2
          * (sin turn.middle ^ 2 * radii.x ^ 2 + cos turn.middle ^ 2 * radii.y ^ 2) := by gcongr
      _ = (last.x - first.x) ^ 2 + (last.y - first.y) ^ 2 := by
          rw [hsquares]
          ring
  have hmax : 0 ≤ max |last.x - first.x| |last.y - first.y| := (abs_nonneg _).trans (le_max_left _ _)
  have hfirst : (last.x - first.x) ^ 2 ≤ max |last.x - first.x| |last.y - first.y| ^ 2 :=
    sq_le_sq.mpr ((le_max_left _ _).trans (le_abs_self _))
  have hsecond : (last.y - first.y) ^ 2 ≤ max |last.x - first.x| |last.y - first.y| ^ 2 :=
    sq_le_sq.mpr ((le_max_right _ _).trans (le_abs_self _))
  rw [← pow_le_pow_iff_left₀ (by positivity) hmax two_ne_zero, mul_pow, mul_pow, sq_abs, sq_sqrt two_pos.le]
  linarith

end Reach

end Turn

/-- Where arc segments that follow each other lead from and to. -/
def arcEnds {α : Type} (first : Point α) : List (Segment α) → List (Point α × Point α)
  | .arcTo _ _ _ _ last :: segments => (first, last) :: arcEnds last segments
  | _ => []

/-- A call that draws an arc. -/
structure ArcCall (α : Type) where
  cx : α
  cy : α
  rx : α
  ry : α
  rotation : α
  start : α
  finish : α
  counterclockwise : Bool

namespace ArcCall

variable {α : Type} [Scalar α] (call : ArcCall α)

def primitive : Primitive α :=
  .ellipseArc call.cx call.cy call.rx call.ry call.rotation call.start call.finish call.counterclockwise

def radii : Point α :=
  ⟨Scalar.abs call.rx, Scalar.abs call.ry⟩

def point (angle : α) : Point α :=
  ellipsePoint ⟨call.cx, call.cy⟩ call.radii call.rotation angle

def sweep : α :=
  normalizedSweep call.start call.finish call.counterclockwise

def first : Point α :=
  call.point call.start

def middle : Point α :=
  call.point (call.start + call.sweep / 2)

def last : Point α :=
  call.point (call.start + call.sweep)

/-- Neither the sweep nor a radius is zero. -/
structure IsDrawn : Prop where
  sweep : (call.sweep == 0) = false
  rx : (call.radii.x == 0) = false
  ry : (call.radii.y == 0) = false

/-- A whole turn is drawn in two pieces. -/
def pieceCount : ℕ :=
  if PathData.isFullTurn call.sweep then 2 else 1

/-- The arc segments of a call lead from the start to the end, or through the point half way. -/
theorem segments_replay {call : ArcCall α} (h : call.IsDrawn) (data : PathData α) :
    ∃ arcs : List (Segment α),
      (call.primitive.replay data).segments.toList
          = data.segments.toList ++ (data.joinSegments call.first ++ arcs)
        ∧ (∀ segment ∈ arcs, segment.IsArc)
        ∧ arcEnds call.first arcs = if PathData.isFullTurn call.sweep then
            [(call.first, call.middle), (call.middle, call.last)] else [(call.first, call.last)] := by
  obtain ⟨hall, -⟩ :=
    PathData.arcSegments_drawn h.sweep h.rx h.ry ⟨call.cx, call.cy⟩ call.rotation call.start
  refine ⟨_, ?_, hall, ?_⟩
  · rw [PathData.replay_eq_emitAll, PathData.segments_emitAll]
    rfl
  · unfold PathData.arcSegments
    simp only [h.sweep, h.rx, h.ry, Bool.or_self, Bool.false_eq_true, ↓reduceIte]
    split
    · rfl
    · rfl

end ArcCall

section Machine

variable {error extent : ℝ}

/-- The points where the machine begins, halves and ends an arc are those of an exact arc, up to an error. -/
structure ArcCall.IsComputed [Scalar Float] (call : ArcCall Float) (exact : ℝ → Point ℝ)
    (error extent : ℝ) : Prop where
  first : ComputedPoint call.first (exact 0) error extent
  middle : ComputedPoint call.middle (exact (1 / 2)) error extent
  last : ComputedPoint call.last (exact 1) error extent

/-- The ends of a piece of an arc are printed apart where its chord is long enough. -/
theorem printed_ne_of_piece {turn : Turn} {radii : Point ℝ} {tilt reach first last : ℝ} {p q : Point Float}
    (hp : ComputedPoint p (turn.point radii tilt first) error extent)
    (hq : ComputedPoint q (turn.point radii tilt last) error extent)
    (hr : 0 ≤ reach) (hrx : reach ≤ |radii.x|) (hry : reach ≤ |radii.y|)
    (h : extent / 10 ^ 5 + 2 / 10 ^ 9 + 2 * error < √2 * |sin ((last - first) * turn.sweep / 2)| * reach) :
    printed p ≠ printed q := by
  have hchord := (turn.piece first last).chord_le_max radii tilt hr hrx hry
  dsimp only at hchord
  rw [turn.point_piece_zero, turn.point_piece_one] at hchord
  exact printed_ne_of_computed hp hq (h.trans_le hchord)

/-- The ends of an arc are printed apart where the chord of its pieces, which is at least that of a circle with the
smaller of the radii, is longer than what printing and computing may lose. The points that the machine computes,
with whatever sine and cosine, are those of a turn up to an error. -/
theorem printed_ends_differ (sine cosine : Float → Float) (call : ArcCall Float) (data : PathData Float)
    {turn : Turn} {radii : Point ℝ} {tilt error extent reach : ℝ} :
    letI := withTrigonometry sine cosine
    call.IsDrawn → call.IsComputed (turn.point radii tilt) error extent →
    0 ≤ reach → reach ≤ |radii.x| → reach ≤ |radii.y| →
    extent / 10 ^ 5 + 2 / 10 ^ 9 + 2 * error < √2 * |sin (turn.sweep / call.pieceCount / 2)| * reach →
    ∃ arcs : List (Segment Float),
      (call.primitive.replay data).segments.toList
          = data.segments.toList ++ (data.joinSegments call.first ++ arcs)
        ∧ (∀ segment ∈ arcs, segment.IsArc)
        ∧ ∀ ends ∈ arcEnds call.first arcs, printed ends.1 ≠ printed ends.2 := by
  let machine := withTrigonometry sine cosine
  intro hdrawn hcomputed hr hrx hry hlong
  obtain ⟨arcs, hsegments, hall, hends⟩ := ArcCall.segments_replay hdrawn data
  refine ⟨arcs, hsegments, hall, ?_⟩
  rw [hends]
  rw [ArcCall.pieceCount] at hlong
  split
  · next hfull =>
    rw [if_pos hfull, Nat.cast_ofNat] at hlong
    have hfirst : (1 / 2 - 0) * turn.sweep / 2 = turn.sweep / 2 / 2 := by ring
    have hsecond : (1 - 1 / 2) * turn.sweep / 2 = turn.sweep / 2 / 2 := by ring
    simp only [List.forall_mem_cons]
    refine ⟨printed_ne_of_piece hcomputed.first hcomputed.middle hr hrx hry (hfirst ▸ hlong),
      printed_ne_of_piece hcomputed.middle hcomputed.last hr hrx hry (hsecond ▸ hlong), by simp⟩
  · next hpart =>
    rw [if_neg hpart, Nat.cast_one, div_one] at hlong
    have hwhole : (1 - 0) * turn.sweep / 2 = turn.sweep / 2 := by ring
    simp only [List.forall_mem_cons]
    exact ⟨printed_ne_of_piece hcomputed.first hcomputed.last hr hrx hry (hwhole ▸ hlong), by simp⟩

/-- The sine of the machine, at no angle, at a half turn, at a whole turn and shortly before it. -/
def sampledSine (angle : Float) : Float :=
  if angle == Binary64.pi then Float.ofBits 0x3ca1a62633145c07
  else if angle == 2 * Binary64.pi then Float.ofBits 0xbcb1a62633145c07
  else if angle == 6.283183 then Float.ofBits 0xbec35aa16428c032
  else 0

/-- The cosine of the machine at the same angles. -/
def sampledCosine (angle : Float) : Float :=
  if angle == Binary64.pi then -1
  else if angle == 6.283183 then Float.ofBits 0x3fefffffffffa25b
  else 1

theorem computed_of_value {x : Float} {v : Fields} {value exact : ℝ} (hx : fields? x = some v)
    (hv : (v.value : ℝ) = value) (herror : |value - exact| ≤ error) (hextent : |value| ≤ extent) :
    Computed x exact error extent :=
  ⟨v, hx, by rwa [hv], by rwa [hv]⟩

/-- A whole turn. -/
theorem printed_ends_differ_turn :
    letI := withTrigonometry sampledSine sampledCosine
    let call : ArcCall Float := ⟨0, 0, 10, 10, 0, 0, 2 * Binary64.pi, false⟩
    let data : PathData Float := {}
    let turn : Turn := ⟨⟨0, 0⟩, 0, 2 * π⟩
    call.IsDrawn ∧ call.IsComputed (turn.point ⟨10, 10⟩ 0) 1e-14 11 ∧ call.pieceCount = 2
      ∧ ∃ arcs : List (Segment Float),
        (call.primitive.replay data).segments.toList
            = data.segments.toList ++ (data.joinSegments call.first ++ arcs)
          ∧ (∀ segment ∈ arcs, segment.IsArc)
          ∧ ∀ ends ∈ arcEnds call.first arcs, printed ends.1 ≠ printed ends.2 := by
  let machine := withTrigonometry sampledSine sampledCosine
  intro call data turn
  have hdrawn : call.IsDrawn := by
    refine ⟨?_, ?_, ?_⟩
    all_goals decide +kernel
  have hcount : call.pieceCount = 2 := by decide +kernel
  have hzero : turn.point ⟨10, 10⟩ 0 0 = ⟨10, 0⟩ := by
    simp [turn, Turn.point]
  have hhalf : turn.point ⟨10, 10⟩ 0 (1 / 2) = ⟨-10, 0⟩ := by
    simp [turn, Turn.point]
  have hone : turn.point ⟨10, 10⟩ 0 1 = ⟨10, 0⟩ := by
    simp [turn, Turn.point]
  have hten : ((Fields.value ⟨false, 5629499534213120, -49⟩ : Rat) : ℝ) = 10 := by norm_num [Fields.value]
  have hminus : ((Fields.value ⟨true, 5629499534213120, -49⟩ : Rat) : ℝ) = -10 := by norm_num [Fields.value]
  have hnone : ((Fields.value ⟨false, 0, -1074⟩ : Rat) : ℝ) = 0 := by simp [Fields.value]
  have habove : ((Fields.value ⟨false, 6209697000026889, -102⟩ : Rat) : ℝ) = 6209697000026889 / 2 ^ 102 := by
    norm_num [Fields.value]
  have hbelow : ((Fields.value ⟨true, 6209697000026889, -101⟩ : Rat) : ℝ)
      = -(6209697000026889 / 2 ^ 101) := by
    norm_num [Fields.value]
  have hcomputed : call.IsComputed (turn.point ⟨10, 10⟩ 0) 1e-14 11 := by
    refine ⟨?_, ?_, ?_⟩
    · rw [hzero]
      exact ⟨computed_of_value (by decide +kernel) hten (by norm_num) (by norm_num [abs_of_pos]),
        computed_of_value (by decide +kernel) hnone (by norm_num) (by norm_num)⟩
    · rw [hhalf]
      exact ⟨computed_of_value (by decide +kernel) hminus (by norm_num) (by norm_num [abs_of_pos]),
        computed_of_value (by decide +kernel) habove (by norm_num [abs_of_pos]) (by norm_num [abs_of_pos])⟩
    · rw [hone]
      exact ⟨computed_of_value (by decide +kernel) hten (by norm_num) (by norm_num [abs_of_pos]),
        computed_of_value (by decide +kernel) hbelow (by norm_num [abs_of_pos]) (by norm_num [abs_of_pos])⟩
  refine ⟨hdrawn, hcomputed, hcount, ?_⟩
  refine @printed_ends_differ sampledSine sampledCosine call {} turn ⟨10, 10⟩ 0 1e-14 11 10 hdrawn hcomputed
    (by norm_num) (by norm_num) (by norm_num) ?_
  have hquarter : turn.sweep / call.pieceCount / 2 = π / 2 := by
    rw [hcount, Nat.cast_ofNat, mul_div_cancel_left₀ _ two_ne_zero]
  have hroot : 1 ≤ √2 := one_le_sqrt.mpr one_le_two
  rw [hquarter, sin_pi_div_two, abs_one, mul_one]
  linarith

/-- An arc that lacks little of a whole turn is drawn in one piece and ends where it starts, in print. A reader
does not draw it, though its opposite points are printed apart. -/
theorem printed_ends_coincide :
    letI := withTrigonometry sampledSine sampledCosine
    let call : ArcCall Float := ⟨100, 100, 0.25, 0.25, 0, 0, 6.283183, false⟩
    let data := call.primitive.replay (PathData.moveTo {} 100.25 100)
    call.IsDrawn ∧ Binary64.pi < Scalar.abs call.sweep
      ∧ printed call.first ≠ printed (call.point (call.start + Binary64.pi))
      ∧ data.segments.toList.flatMap Segment.chars = "M100.25,100A0.25,0.25 0 1,1 100.25,100".toList
      ∧ ¬ ∀ ends ∈ arcEnds call.first (data.segments.toList.drop 1), printed ends.1 ≠ printed ends.2 := by
  let machine := withTrigonometry sampledSine sampledCosine
  refine ⟨⟨?_, ?_, ?_⟩, ?_, ?_, ?_, ?_⟩
  all_goals decide +kernel

end Machine

end Svg

end ShapeGeometry
