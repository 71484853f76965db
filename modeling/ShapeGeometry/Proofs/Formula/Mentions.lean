import ShapeGeometry.Guide.Scope
import ShapeGeometry.Proofs.Formula.Reading

namespace ShapeGeometry

def Operand.name? {α : Type} : Operand α → Option String
  | literal _ => none
  | guide name => some name

/-- The names among the operands that the operator reads. -/
def Formula.mentions {α : Type} (f : Formula α) : List String :=
  (f.operands.take f.operator.arity).filterMap Operand.name?

/-- The names that the formula of a guide looks up. One that cannot be read looks up none. -/
def Guide.mentions (α : Type) [Scalar α] (guide : Guide) : List String :=
  match (Formula.parse guide.formula : Except FormulaError (Formula α)) with
  | .ok f => f.mentions
  | .error _ => []

theorem Operator.arity_pos (op : Operator) : 0 < op.arity := by
  cases op <;> decide

variable {α : Type}

theorem Operand.value_congr {operand : Operand α} {env env' : String → α}
    (h : ∀ name ∈ operand.name?, env name = env' name) : operand.value env = operand.value env' := by
  cases operand with
  | literal value => rfl
  | guide name => exact h name rfl

variable [Scalar α]

/-- An operator does not look at operands beyond its arity. -/
theorem Operator.apply_congr (op : Operator) {x y z x' y' z' : α} (hx : x = x')
    (hy : 1 < op.arity → y = y') (hz : 2 < op.arity → z = z') : op.apply x y z = op.apply x' y' z' := by
  subst hx
  cases op with
  | val | abs | sqrt => rfl
  | min | max | sin | cos | tan | arcTan2 => rw [hy (by decide)]; rfl
  | mulDiv | addSub | addDiv | ifElse | mod | pin | cosArcTan2 | sinArcTan2 =>
    rw [hy (by decide), hz (by decide)]

namespace Formula

theorem argument_congr (f : Formula α) {env env' : String → α}
    (h : ∀ name ∈ f.mentions, env name = env' name) (position : Nat)
    (hp : position < f.operator.arity) : f.argument env position = f.argument env' position := by
  cases ho : f.operands[position]? with
  | none => simp only [argument, ho]
  | some operand =>
    simp only [argument, ho]
    apply Operand.value_congr
    intro name hn
    refine h name (List.mem_filterMap.mpr ⟨operand, ?_, hn⟩)
    exact List.mem_of_getElem? (List.getElem?_take_of_lt hp ▸ ho)

theorem eval_congr (f : Formula α) {env env' : String → α}
    (h : ∀ name ∈ f.mentions, env name = env' name) : f.eval env = f.eval env' := by
  have happly := f.operator.apply_congr (f.argument_congr h 0 f.operator.arity_pos)
    (f.argument_congr h 1) (f.argument_congr h 2)
  simp only [eval, happly]

end Formula

/-- A formula has the same value in two scopes that give the names in it the same values. -/
theorem Scope.evaluate_congr {guide : Guide} {scope scope' : Scope α}
    (h : ∀ name ∈ guide.mentions α, scope.get name = scope'.get name) :
    scope.evaluate guide.formula = scope'.evaluate guide.formula := by
  cases hp : (Formula.parse guide.formula : Except FormulaError (Formula α)) with
  | error error => simp only [evaluate, hp]
  | ok f =>
    simp only [Guide.mentions, hp] at h
    simp only [evaluate, hp, f.eval_congr h]

/-- The names are found among the words. -/
theorem Guide.mentions_eq (guide : Guide) :
    guide.mentions α = match Formula.tokens guide.formula with
      | [] => []
      | keyword :: words =>
        match Operator.ofKeyword? keyword with
        | some op => (words.take op.arity).filterMap fun word => (Operand.ofToken word : Operand α).name?
        | none => [] := by
  rw [mentions, Formula.parse, Formula.read_tokens]
  cases Formula.tokens guide.formula with
  | nil => rfl
  | cons keyword words =>
    cases hop : Operator.ofKeyword? keyword with
    | none => simp only [hop]
    | some op =>
      simp only [hop, Formula.mentions, ← List.map_take, List.filterMap_map]
      rfl

theorem Guide.mentions_of_tokens {guide : Guide} {op : Operator} {words : List String}
    (h : Formula.tokens guide.formula = op.keyword :: words) :
    guide.mentions α = (words.take op.arity).filterMap fun word => (Operand.ofToken word : Operand α).name? := by
  rw [mentions_eq, h]
  simp only [Operator.ofKeyword?_keyword]

end ShapeGeometry
