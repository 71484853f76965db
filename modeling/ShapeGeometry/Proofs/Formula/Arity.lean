import ShapeGeometry.Binary64
import ShapeGeometry.Proofs.Exact.Formula

/-!
Evaluation takes operands by their position and does not consult the arity of the operator.
-/

namespace ShapeGeometry

namespace Formula

variable {α : Type} [Scalar α]

/-- The formula with as many operands as its operator has places: those beyond are left out, and a literal zero
stands for each that is missing. -/
def fitted (f : Formula α) : Formula α where
  operator := f.operator
  operands := (f.operands.take f.operator.arity).rightpad f.operator.arity (.literal 0)

theorem length_fitted (f : Formula α) : f.fitted.operands.length = f.operator.arity := by
  rw [fitted, List.length_rightpad, List.length_take]
  omega

theorem argument_fitted (f : Formula α) (env : String → α) {position : Nat}
    (h : position < f.operator.arity) : f.fitted.argument env position = f.argument env position := by
  have hoperand : f.fitted.operands[position]? = some (f.operands[position]?.getD (.literal 0)) := by
    rw [fitted, List.rightpad]
    by_cases hp : position < f.operands.length
    · rw [List.getElem?_append_left (by simp; omega), List.getElem?_take_of_lt h,
        List.getElem?_eq_getElem hp, Option.getD_some]
    · rw [List.getElem?_append_right (by simp; omega), List.getElem?_replicate_of_lt (by simp; omega),
        List.getElem?_eq_none (not_lt.mp hp), Option.getD_none]
  rw [argument, argument, hoperand]
  cases f.operands[position]? with
  | none => rfl
  | some operand => rfl

theorem eval_fitted (f : Formula α) (env : String → α) : f.fitted.eval env = f.eval env := by
  have happly := f.operator.apply_congr (f.argument_fitted env f.operator.arity_pos)
    (f.argument_fitted env) (f.argument_fitted env)
  simp only [eval, ← happly]
  rfl

theorem eval_take_arity (op : Operator) (operands : List (Operand α)) (env : String → α) :
    eval ⟨op, operands.take op.arity⟩ env = eval ⟨op, operands⟩ env := by
  have hsame : fitted ⟨op, operands.take op.arity⟩ = fitted ⟨op, operands⟩ := by
    simp only [fitted, List.take_take, Nat.min_self]
  rw [← eval_fitted, hsame, eval_fitted]

end Formula

open Exact

namespace Operator

/-- The operator on as many numbers as there are, with zeros after them. -/
noncomputable def applyTo (op : Operator) (values : List ℝ) : ℝ :=
  op.apply (values.getD 0 0) (values.getD 1 0) (values.getD 2 0)

theorem eval_literals (op : Operator) (values : List ℝ) (env : String → ℝ) :
    Formula.eval ⟨op, values.map .literal⟩ env = op.applyTo values := by
  have hargument (position : ℕ) :
      Formula.argument ⟨op, values.map .literal⟩ env position = values.getD position 0 := by
    rw [Formula.argument, List.getElem?_map, List.getD_eq_getElem?_getD]
    cases values[position]? with
    | none => exact Nat.cast_zero
    | some value => rfl
  simp only [Formula.eval, hargument]
  exact if_neg Bool.false_ne_true

/-- For each operator there are operands of which the last one matters. -/
theorem exists_applyTo_dropLast_ne (op : Operator) :
    ∃ values : List ℝ, values.length = op.arity ∧ op.applyTo values.dropLast ≠ op.applyTo values := by
  have hright : (5400000 : ℝ) / 60000 * (Real.pi / 180) = Real.pi / 2 := by ring
  have hhalf : (2700000 : ℝ) / 60000 * (Real.pi / 180) = Real.pi / 4 := by ring
  have hnone : (⟨0, 0⟩ : ℂ) = 0 := rfl
  have hup : (⟨0, 1⟩ : ℂ) = Complex.I := rfl
  cases op with
  | val => exact ⟨[1], rfl, by simp [applyTo]⟩
  | abs => exact ⟨[1], rfl, by simp [applyTo]⟩
  | sqrt => exact ⟨[1], rfl, by simp [applyTo]⟩
  | min => exact ⟨[1, 1], rfl, by simp [applyTo]⟩
  | max => exact ⟨[0, 1], rfl, by simp [applyTo]⟩
  | sin => exact ⟨[1, 5400000], rfl, by simp [applyTo, hright]⟩
  | cos => exact ⟨[1, 5400000], rfl, by simp [applyTo, hright]⟩
  | tan => exact ⟨[1, 2700000], rfl, by simp [applyTo, hhalf]⟩
  | arcTan2 => exact ⟨[0, 1], rfl, by simp [applyTo, hnone, hup]⟩
  | mulDiv => exact ⟨[1, 1, 1], rfl, by simp [applyTo]⟩
  | addSub => exact ⟨[0, 0, 1], rfl, by simp [applyTo]⟩
  | addDiv => exact ⟨[1, 0, 1], rfl, by simp [applyTo]⟩
  | ifElse => exact ⟨[0, 0, 1], rfl, by simp [applyTo]⟩
  | mod => exact ⟨[0, 0, 1], rfl, by simp [applyTo]⟩
  | pin => exact ⟨[0, 1, 1], rfl, by simp [applyTo, apply]⟩
  | cosArcTan2 => exact ⟨[1, 0, 1], rfl, by simp [applyTo, hnone, hup]⟩
  | sinArcTan2 => exact ⟨[1, 0, 1], rfl, by simp [applyTo, hnone, hup]⟩

/-- The numbers of operands after which no further one makes a difference, in exact arithmetic. -/
def enoughOperands (op : Operator) : Set ℕ :=
  {count | ∀ (operands : List (Operand ℝ)) (env : String → ℝ),
    Formula.eval ⟨op, operands.take count⟩ env = Formula.eval ⟨op, operands⟩ env}

theorem arity_le_of_enough {op : Operator} {count : ℕ} (h : count ∈ op.enoughOperands) : op.arity ≤ count := by
  by_contra hlt
  obtain ⟨values, hlength, hne⟩ := op.exists_applyTo_dropLast_ne
  have hcount : count ≤ values.length - 1 := by omega
  apply hne
  -- without its last operand the list still begins with enough of them
  have hfront : (values.dropLast.map .literal : List (Operand ℝ)).take count
      = (values.map .literal).take count := by
    rw [List.dropLast_eq_take, ← List.map_take, List.take_take, Nat.min_eq_left hcount, List.map_take]
  calc op.applyTo values.dropLast
      = Formula.eval ⟨op, values.dropLast.map .literal⟩ fun _ => 0 := (op.eval_literals _ _).symm
    _ = Formula.eval ⟨op, (values.dropLast.map .literal).take count⟩ fun _ => 0 := (h _ _).symm
    _ = Formula.eval ⟨op, (values.map .literal).take count⟩ fun _ => 0 := by rw [hfront]
    _ = Formula.eval ⟨op, values.map .literal⟩ fun _ => 0 := h _ _
    _ = op.applyTo values := op.eval_literals _ _

/-- The arity is the number of operands that are read. A formula has the value that it has with so many operands,
the others left out and zeros for those that are missing, so that scopes which agree on the names among them give it
the same value; and in exact arithmetic no smaller number of operands is enough. -/
theorem arity_read :
    (∀ {α : Type} [Scalar α] (f : Formula α),
      f.fitted.operands.length = f.operator.arity
      ∧ (∀ env, f.eval env = f.fitted.eval env)
      ∧ ∀ scope other : Scope α, (∀ name ∈ f.mentions, scope.get name = other.get name) →
          f.eval scope.get = f.eval other.get)
    ∧ ∀ op : Operator, IsLeast op.enoughOperands op.arity := by
  refine ⟨fun f => ⟨f.length_fitted, fun env => (f.eval_fitted env).symm, fun _ _ => f.eval_congr⟩, fun op => ?_⟩
  exact ⟨Formula.eval_take_arity op, fun _ => arity_le_of_enough⟩

/-- A formula with one operand too many, in two scopes that differ where that operand looks. -/
theorem arity_read_surplus :
    let f : Formula Float := ⟨.max, [.guide "adj", .literal (0 / 0), .guide "unread"]⟩
    let scope : Scope Float := ⟨⟨[("adj", 3), ("unread", 1)], by decide⟩⟩
    let other : Scope Float := ⟨⟨[("unread", 2), ("adj", 3)], by decide⟩⟩
    (f.mentions = ["adj"] ∧ ∀ name ∈ f.mentions, scope.get name = other.get name)
      ∧ scope.get "unread" ≠ other.get "unread" ∧ f.eval scope.get = f.eval other.get := by
  intro f scope other
  have hmentions : f.mentions = ["adj"] := rfl
  have hagree : ∀ name ∈ f.mentions, scope.get name = other.get name := by
    rw [hmentions]
    decide +kernel
  exact ⟨⟨hmentions, hagree⟩, by decide +kernel, (arity_read.1 f).2.2 scope other hagree⟩

end Operator

end ShapeGeometry
