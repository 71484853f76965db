import ShapeGeometry.Proofs.Exact.Scalar

namespace ShapeGeometry

/-- The real numbers with a turn of some size in place of that of the circle. -/
@[reducible] noncomputable def Exact.withTurn (turn : ℝ) : Scalar ℝ :=
  { Exact.instScalarReal with pi := 0.5 * turn }

namespace Svg

/-- An angle, counted in a direction. -/
def along (counterclockwise : Bool) (angle : ℝ) : ℝ :=
  if counterclockwise then -angle else angle

@[simp] theorem along_false (angle : ℝ) : along false angle = angle :=
  rfl

@[simp] theorem along_true (angle : ℝ) : along true angle = -angle :=
  rfl

@[simp] theorem along_along (counterclockwise : Bool) (angle : ℝ) :
    along counterclockwise (along counterclockwise angle) = angle := by
  cases counterclockwise <;> simp

theorem along_not_neg (counterclockwise : Bool) (angle : ℝ) :
    along (!counterclockwise) (-angle) = along counterclockwise angle := by
  cases counterclockwise <;> simp

theorem along_not (counterclockwise : Bool) (angle : ℝ) :
    along (!counterclockwise) angle = -along counterclockwise angle := by
  cases counterclockwise <;> simp

open Exact

/-- What is swept to go by an angle: whole turns are left out, but one is kept where the angle has any. -/
noncomputable def wound (turn angle : ℝ) : ℝ :=
  if turn ≤ angle then turn else Scalar.euclideanRemainder angle turn

theorem tau_withTurn (turn : ℝ) : letI := withTurn turn; Scalar.tau = turn := by
  change ((2 : ℕ) : ℝ) * (0.5 * turn) = turn
  norm_num [← mul_assoc]

/-- Both directions are one. -/
theorem normalizedSweep_eq (turn start finish : ℝ) (counterclockwise : Bool) :
    letI := withTurn turn
    normalizedSweep start finish counterclockwise
      = along counterclockwise (wound turn (along counterclockwise (finish - start))) := by
  let exact := withTurn turn
  have htau : (Scalar.tau : ℝ) = turn := tau_withTurn turn
  cases counterclockwise with
  | false =>
    simp only [normalizedSweep, htau, along_false, Bool.false_eq_true, if_false]
    rfl
  | true =>
    have hneg : (finish - start ≤ -turn) = (turn ≤ -(finish - start)) := propext le_neg
    simp only [normalizedSweep, htau, along_true, if_true, hneg, wound]
    exact (apply_ite Neg.neg _ _ _).symm

section Wound

variable {turn angle : ℝ}

theorem wound_of_le (h : turn ≤ angle) : wound turn angle = turn :=
  if_pos h

theorem wound_of_lt (h : angle < turn) : wound turn angle = Scalar.euclideanRemainder angle turn :=
  if_neg h.not_ge

theorem wound_mem (hturn : 0 < turn) (angle : ℝ) : 0 ≤ wound turn angle ∧ wound turn angle ≤ turn := by
  rcases le_or_gt turn angle with h | h
  · rw [wound_of_le h]
    exact ⟨hturn.le, le_rfl⟩
  · rw [wound_of_lt h]
    exact euclideanRemainder_bounds angle hturn

/-- Short of a turn, what is swept is short of a turn, and ends where the angle ends. -/
theorem wound_congr (hturn : 0 < turn) (h : angle < turn) :
    wound turn angle < turn ∧ ∃ turns : ℤ, angle - wound turn angle = turns * turn := by
  rw [wound_of_lt h, euclideanRemainder_eq_toIcoMod angle hturn, self_sub_toIcoMod, zsmul_eq_mul]
  have hlt := toIcoMod_lt_right hturn 0 angle
  rw [zero_add] at hlt
  exact ⟨hlt, _, rfl⟩

/-- An angle of one turn at most is swept as it is. -/
theorem wound_of_mem (hlow : 0 ≤ angle) (hhigh : angle ≤ turn) : wound turn angle = angle := by
  rcases hhigh.eq_or_lt with rfl | hlt
  · exact wound_of_le le_rfl
  · rw [wound_of_lt hlt]
    exact euclideanRemainder_of_lt hlow hlt

end Wound

/-- The sweep of an arc goes in its direction, and one turn at most. Where the angles are less than a turn apart in
that direction it is less than a turn, and whole turns away from their difference; where they are a turn apart or more
it is one turn. A difference that is in the direction, and no more than a turn, is the sweep itself. Reversed angles
in the other direction have the reversed sweep. -/
theorem normalizedSweep_canvas {turn : ℝ} (hturn : 0 < turn) (start finish : ℝ) (counterclockwise : Bool) :
    letI := withTurn turn
    let delta := finish - start
    let sweep := normalizedSweep start finish counterclockwise
    (0 ≤ along counterclockwise sweep ∧ along counterclockwise sweep ≤ turn)
    ∧ (along counterclockwise delta < turn →
        along counterclockwise sweep < turn ∧ ∃ turns : ℤ, delta - sweep = turns * turn)
    ∧ (turn ≤ along counterclockwise delta → along counterclockwise sweep = turn)
    ∧ (0 ≤ along counterclockwise delta → along counterclockwise delta ≤ turn → sweep = delta)
    ∧ normalizedSweep (-start) (-finish) (!counterclockwise) = -sweep := by
  let exact := withTurn turn
  intro delta sweep
  have hsweep : sweep = along counterclockwise (wound turn (along counterclockwise delta)) :=
    normalizedSweep_eq turn start finish counterclockwise
  have halong : along counterclockwise sweep = wound turn (along counterclockwise delta) := by
    rw [hsweep, along_along]
  refine ⟨?_, ?_, ?_, ?_, ?_⟩
  · rw [halong]
    exact wound_mem hturn _
  · intro h
    obtain ⟨hlt, turns, hturns⟩ := wound_congr hturn h
    rw [← halong] at hlt hturns
    refine ⟨hlt, ?_⟩
    cases counterclockwise with
    | false => exact ⟨turns, hturns⟩
    | true =>
      refine ⟨-turns, ?_⟩
      rw [along_true, along_true] at hturns
      push_cast
      linarith
  · intro h
    rw [halong, wound_of_le h]
  · intro hlow hhigh
    rw [hsweep, wound_of_mem hlow hhigh, along_along]
  · have hdelta : -finish - -start = -delta := by ring
    rw [normalizedSweep_eq, hdelta, along_not_neg, along_not, hsweep]

/-- With a turn of four, an arc that ends five before its start goes three on, and one that ends nine after it goes a
whole turn. -/
theorem normalizedSweep_canvas_four :
    letI := withTurn 4
    (0 : ℝ) < 4
      ∧ normalizedSweep (0 : ℝ) (-5) false = 3 ∧ normalizedSweep (-0 : ℝ) (- -5) true = -3
      ∧ normalizedSweep (0 : ℝ) 9 false = 4 := by
  let exact := withTurn 4
  have hturn : (0 : ℝ) < 4 := by norm_num
  obtain ⟨⟨hlow, -⟩, hshort, -, -, hmirror⟩ := normalizedSweep_canvas hturn 0 (-5) false
  obtain ⟨hlt, turns, hturns⟩ := hshort (by norm_num)
  simp only [along_false] at hlow hlt hturns
  have hback : turns = -2 := by
    have hfrom : (-9 : ℝ) < turns * 4 := by linarith
    have hto : (turns : ℝ) * 4 ≤ -5 := by linarith
    have hfrom' : -9 < turns * 4 := by exact_mod_cast hfrom
    have hto' : turns * 4 ≤ -5 := by exact_mod_cast hto
    omega
  have hthree : normalizedSweep 0 (-5) false = (3 : ℝ) := by
    rw [hback] at hturns
    push_cast at hturns
    linarith
  obtain ⟨-, -, hwhole, -, -⟩ := normalizedSweep_canvas hturn 0 9 false
  refine ⟨hturn, hthree, ?_, hwhole (by norm_num)⟩
  rw [← hthree]
  exact hmirror

end Svg

end ShapeGeometry
