import ShapeGeometry.Proofs.Exact.Scalar
import ShapeGeometry.Proofs.Guide.Equations

/-!
Formulas in exact arithmetic. A formula is read once, with numerals for its literals, whatever the scalar is; over
the reals its value is that of the operator on its operands.
-/

namespace ShapeGeometry

/-- A word as an operand, with a numeral for a literal. -/
def Operand.written (word : String) : Operand Numeral :=
  match Numeral.ofChars? word.toList with
  | some n => .literal n
  | none => .guide word

/-- A reference as an operand, with a numeral for a literal. -/
def Reference.written (reference : String) : Operand Numeral :=
  .written (Text.trim reference)

/-- A formula as it is written, with numerals for its literals. -/
def Formula.written? (text : String) : Option (Formula Numeral) :=
  match Formula.tokens text with
  | [] => none
  | keyword :: words => (Operator.ofKeyword? keyword).map fun op => ⟨op, words.map .written⟩

/-- The names of guides, each with its formula as it is written. -/
def Guide.equations (guides : List Guide) : List (String × Option (Formula Numeral)) :=
  guides.map fun guide => (guide.name, Formula.written? guide.formula)

namespace Exact

@[simp] noncomputable def numeralValue (n : Numeral) : ℝ :=
  (if n.negative then -1 else 1) * n.coefficient * 10 ^ n.exponent

/-- The value of an operand where names stand for the values of `env`. -/
@[simp] noncomputable def operandValue (env : String → ℝ) : Operand Numeral → ℝ
  | .literal n => numeralValue n
  | .guide name => env name

/-- The value of a formula, which is zero where it cannot be read. -/
@[simp] noncomputable def formulaValue (env : String → ℝ) : Option (Formula Numeral) → ℝ
  | some f =>
    let argument (position : ℕ) : ℝ := ((f.operands[position]?).map (operandValue env)).getD 0
    f.operator.apply (argument 0) (argument 1) (argument 2)
  | none => 0

theorem value_ofToken (env : String → ℝ) (word : String) :
    (Operand.ofToken word : Operand ℝ).value env = operandValue env (.written word) := by
  rw [Operand.written]
  cases h : Numeral.ofChars? word.toList with
  | some n =>
    rw [Operand.ofToken_of_numeral h]
    rfl
  | none =>
    rw [Operand.ofToken_of_not_isNumeral (Numeral.ofChars?_eq_none_iff.mp h)]
    rfl

theorem argument_eq (op : Operator) (words : List String) (env : String → ℝ) (position : ℕ) :
    Formula.argument ⟨op, words.map .ofToken⟩ env position
      = (((words.map Operand.written)[position]?).map (operandValue env)).getD 0 := by
  simp only [Formula.argument, List.getElem?_map]
  cases words[position]? with
  | none => exact Nat.cast_zero
  | some word => exact value_ofToken env word

theorem evaluate_eq (scope : Scope ℝ) (text : String) :
    scope.evaluate text = formulaValue scope.get (Formula.written? text) := by
  rw [Scope.evaluate, Formula.parse, Formula.read_tokens, Formula.written?]
  cases Formula.tokens text with
  | nil => exact Nat.cast_zero
  | cons keyword words =>
    cases hop : Operator.ofKeyword? keyword with
    | none =>
      simp only [hop]
      exact Nat.cast_zero
    | some op =>
      simp only [hop, Option.map_some, formulaValue, Formula.eval, argument_eq]
      exact if_neg Bool.false_ne_true

theorem resolve_eq (scope : Scope ℝ) :
    scope.resolve = operandValue scope.get ∘ Reference.written := by
  funext reference
  rw [Function.comp_apply]
  exact value_ofToken scope.get (Text.trim reference)

/-- Guides that have the values of their formulas satisfy the equations that they are written as. -/
theorem solves_iff (scope : Scope ℝ) (guides : List Guide) :
    scope.Solves guides
      ↔ ∀ entry ∈ Guide.equations guides, scope.get entry.1 = formulaValue scope.get entry.2 := by
  simp only [Scope.Solves, Guide.equations, List.forall_mem_map, evaluate_eq]

/-! ### The operators -/

theorem beq_zero_eq (x : ℝ) : (x == @OfNat.ofNat ℝ 0 (Scalar.instOfNat 0)) = decide (x = 0) := by
  rw [ofNat_eq, Nat.cast_zero]
  rfl

/-- Division by zero is zero, like the guarded case. -/
@[simp] theorem apply_mulDiv (x y z : ℝ) : Operator.mulDiv.apply x y z = x * y / z := by
  by_cases hz : z = 0
  · simp [Operator.apply, ofNat_eq, hz]
  · simp [Operator.apply, beq_zero_eq, hz]

@[simp] theorem apply_addDiv (x y z : ℝ) : Operator.addDiv.apply x y z = (x + y) / z := by
  by_cases hz : z = 0
  · simp [Operator.apply, ofNat_eq, hz]
  · simp [Operator.apply, beq_zero_eq, hz]

@[simp] theorem apply_val (x y z : ℝ) : Operator.val.apply x y z = x :=
  rfl

@[simp] theorem apply_addSub (x y z : ℝ) : Operator.addSub.apply x y z = x + y - z :=
  rfl

@[simp] theorem apply_ifElse (x y z : ℝ) :
    Operator.ifElse.apply x y z = if 0 < x then y else z := by
  simp [Operator.apply, ofNat_eq]

@[simp] theorem apply_abs (x y z : ℝ) : Operator.abs.apply x y z = |x| :=
  rfl

/-- The square root of a negative number is zero, like the guarded case. -/
@[simp] theorem apply_sqrt (x y z : ℝ) : Operator.sqrt.apply x y z = √x := by
  by_cases hx : x < 0
  · simp [Operator.apply, ofNat_eq, hx, Real.sqrt_eq_zero_of_nonpos hx.le]
  · simp [Operator.apply, ofNat_eq, hx]
    rfl

@[simp] theorem apply_min (x y z : ℝ) : Operator.min.apply x y z = min x y :=
  scalar_min_eq x y

@[simp] theorem apply_max (x y z : ℝ) : Operator.max.apply x y z = max x y :=
  scalar_max_eq x y

@[simp] theorem apply_mod (x y z : ℝ) : Operator.mod.apply x y z = √(x * x + y * y + z * z) :=
  rfl

theorem unitsToRadians_eq (angle : ℝ) : Angle.unitsToRadians angle = angle / 60000 * (Real.pi / 180) := by
  rw [Angle.unitsToRadians, degreesToRadians_eq, Angle.unitsToDegrees, Angle.unitsPerDegree, ofNat_eq]

@[simp] theorem apply_sin (x y z : ℝ) :
    Operator.sin.apply x y z = x * Real.sin (y / 60000 * (Real.pi / 180)) := by
  rw [← unitsToRadians_eq]
  rfl

@[simp] theorem apply_cos (x y z : ℝ) :
    Operator.cos.apply x y z = x * Real.cos (y / 60000 * (Real.pi / 180)) := by
  rw [← unitsToRadians_eq]
  rfl

@[simp] theorem apply_tan (x y z : ℝ) :
    Operator.tan.apply x y z = x * Real.tan (y / 60000 * (Real.pi / 180)) := by
  rw [← unitsToRadians_eq]
  rfl

@[simp] theorem apply_arcTan2 (x y z : ℝ) :
    Operator.arcTan2.apply x y z = Complex.arg ⟨x, y⟩ * (180 / Real.pi) * 60000 := by
  rw [← radiansToDegrees_eq]
  rfl

@[simp] theorem apply_cosArcTan2 (x y z : ℝ) :
    Operator.cosArcTan2.apply x y z = x * Real.cos (Complex.arg ⟨y, z⟩) :=
  rfl

@[simp] theorem apply_sinArcTan2 (x y z : ℝ) :
    Operator.sinArcTan2.apply x y z = x * Real.sin (Complex.arg ⟨y, z⟩) :=
  rfl

/-- A value that is pinned lies between its bounds, where these are in order. -/
theorem pin_mem {low high x value : ℝ} (h : low ≤ high) (hvalue : value = Operator.pin.apply low x high) :
    low ≤ value ∧ value ≤ high := by
  rw [hvalue]
  simp only [Operator.apply]
  split
  case isTrue => exact ⟨le_rfl, h⟩
  case isFalse hlow =>
    split
    case isTrue => exact ⟨h, le_rfl⟩
    case isFalse hhigh => exact ⟨not_lt.mp hlow, not_lt.mp hhigh⟩

theorem apply_pin_of_mem {low x high : ℝ} (h : low ≤ x ∧ x ≤ high) : Operator.pin.apply low x high = x := by
  rw [Operator.apply, if_neg h.1.not_gt, if_neg h.2.not_gt]

/-- A length times a factor that is bounded. -/
theorem mul_mem {length factor bound : ℝ} (hl : 0 ≤ length) (hf : 0 ≤ factor ∧ factor ≤ bound) :
    0 ≤ length * factor ∧ length * factor ≤ length * bound :=
  ⟨mul_nonneg hl hf.1, mul_le_mul_of_nonneg_left hf.2 hl⟩

/-- A length taken in proportion lies between nothing and the whole length. -/
theorem proportion_mem {length part whole : ℝ} (hl : 0 ≤ length) (hwhole : 0 < whole)
    (hpart : 0 ≤ part ∧ part ≤ whole) :
    0 ≤ length * part / whole ∧ length * part / whole ≤ length := by
  obtain ⟨hlow, hhigh⟩ := mul_mem hl hpart
  exact ⟨div_nonneg hlow hwhole.le, (div_le_iff₀ hwhole).mpr hhigh⟩

end Exact

end ShapeGeometry
