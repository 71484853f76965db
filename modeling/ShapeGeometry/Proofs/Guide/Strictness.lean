import ShapeGeometry.Proofs.Formula.Arity
import ShapeGeometry.Proofs.Guide.Agreement

/-!
Evaluation without fallbacks. Where evaluation reads zero for what is missing, strict evaluation stops with a
fault.
-/

namespace ShapeGeometry

/-- What evaluation passes over in silence. -/
inductive Fault where
  | unknownGuide (name : String)
  | missingOperand (position : Nat)
  | unreadable (error : FormulaError)
  deriving DecidableEq, Repr

/-- A computation succeeds just when a condition holds, and then with a given value. -/
def Yields {ε β : Type} (computation : Except ε β) (condition : Prop) (value : β) : Prop :=
  ∀ result, computation = .ok result ↔ condition ∧ result = value

namespace Yields

variable {ε β γ : Type} {x : Except ε β} {condition other : Prop} {value : β}

theorem eq_ok (h : Yields x condition value) (hc : condition) : x = .ok value :=
  (h value).mpr ⟨hc, rfl⟩

theorem congr (h : Yields x condition value) (hiff : condition ↔ other) : Yields x other value := by
  intro result
  rw [h result, hiff]

theorem ok (value : β) : Yields (pure value : Except ε β) True value := by
  intro result
  simp [pure, Except.pure, eq_comm]

theorem error (e : ε) (hc : ¬ condition) (value : β) : Yields (.error e) condition value := by
  intro result
  simp [hc]

theorem bind (h : Yields x condition value) {f : β → Except ε γ} {final : γ}
    (hf : Yields (f value) other final) : Yields (x >>= f) (condition ∧ other) final := by
  intro result
  cases x with
  | error e =>
    have hc : ¬ condition := fun hc => nomatch h.eq_ok hc
    simp [Bind.bind, Except.bind, hc]
  | ok found =>
    obtain ⟨hc, rfl⟩ := (h found).mp rfl
    simpa [Bind.bind, Except.bind, hc] using hf result

theorem map (h : Yields x condition value) (f : β → γ) :
    Yields (do return f (← x)) condition (f value) := by
  refine Yields.congr (h.bind (ok (f value))) ?_
  rw [and_true]

theorem mapM {f : γ → Except ε β} {conditions : γ → Prop} {values : γ → β} {list : List γ}
    (h : ∀ c ∈ list, Yields (f c) (conditions c) (values c)) :
    Yields (list.mapM f) (∀ c ∈ list, conditions c) (list.map values) := by
  induction list with
  | nil => exact (ok []).congr (by simp)
  | cons c list ih =>
    obtain ⟨hfirst, hrest⟩ := List.forall_mem_cons.mp h
    rw [List.mapM_cons]
    refine Yields.congr (hfirst.bind ((ih hrest).map (values c :: ·))) ?_
    rw [List.forall_mem_cons]

end Yields

variable {α : Type}

/-- The value of an operand where a name may have none. -/
def Operand.valueStrictly (env : String → Except Fault α) : Operand α → Except Fault α
  | literal value => .ok value
  | guide name => env name

theorem Operand.yields_valueStrictly {env : String → Except Fault α} {defined : String → Prop}
    {values : String → α} (h : ∀ name, Yields (env name) (defined name) (values name)) (operand : Operand α) :
    Yields (operand.valueStrictly env) (∀ name ∈ operand.name?, defined name) (operand.value values) := by
  cases operand with
  | literal value => exact (Yields.ok value).congr (by simp [name?])
  | guide name => exact (h name).congr (by simp [name?])

namespace Formula

/-- The value of the operand at a position, where there must be one. -/
def argumentStrictly (f : Formula α) (env : String → Except Fault α) (position : Nat) : Except Fault α :=
  match f.operands[position]? with
  | some operand => operand.valueStrictly env
  | none => .error (.missingOperand position)

/-- There is an operand for each place just when there are as many operands as places. -/
theorem forall_operand_iff (f : Formula α) (defined : String → Prop) :
    (∀ position ∈ List.range f.operator.arity, ∃ operand, f.operands[position]? = some operand
        ∧ ∀ name ∈ operand.name?, defined name)
      ↔ f.operator.arity ≤ f.operands.length ∧ ∀ name ∈ f.mentions, defined name := by
  simp only [List.mem_range]
  constructor
  · intro h
    refine ⟨?_, ?_⟩
    · obtain ⟨operand, hlast, -⟩ := h (f.operator.arity - 1) (Nat.sub_one_lt f.operator.arity_pos.ne')
      have hlt := (List.getElem?_eq_some_iff.mp hlast).1
      have hpos := f.operator.arity_pos
      omega
    · intro name hn
      obtain ⟨operand, hm, hname⟩ := List.mem_filterMap.mp hn
      obtain ⟨position, hp⟩ := List.mem_iff_getElem?.mp hm
      rw [List.getElem?_take, Option.ite_none_right_eq_some] at hp
      obtain ⟨hlt, hoperand⟩ := hp
      obtain ⟨found, hfound, hdefined⟩ := h position hlt
      rw [hoperand] at hfound
      cases hfound
      exact hdefined name hname
  · rintro ⟨hlength, hnames⟩ position hp
    have hlt : position < f.operands.length := hp.trans_le hlength
    refine ⟨f.operands[position], List.getElem?_eq_getElem hlt, ?_⟩
    intro name hn
    refine hnames name (List.mem_filterMap.mpr ⟨f.operands[position], ?_, hn⟩)
    exact List.mem_of_getElem? (List.getElem?_take_of_lt hp ▸ List.getElem?_eq_getElem hlt)

variable [Scalar α]

/-- Reads an operand for each place of the operator, and evaluates the operator on what it has read. -/
def evalStrictly (f : Formula α) (env : String → Except Fault α) : Except Fault α := do
  let values ← (List.range f.operator.arity).mapM (f.argumentStrictly env)
  return eval ⟨f.operator, values.map .literal⟩ fun _ => 0

/-- A formula has the value that it has with numbers in place of the operands that are read. -/
theorem eval_arguments (f : Formula α) (env : String → α) :
    eval ⟨f.operator, ((List.range f.operator.arity).map (f.argument env)).map .literal⟩ (fun _ => 0)
      = f.eval env := by
  have hargument (position : Nat) (h : position < f.operator.arity) :
      argument ⟨f.operator, ((List.range f.operator.arity).map (f.argument env)).map .literal⟩ (fun _ => 0) position
        = f.argument env position := by
    rw [argument]
    simp [h, Operand.value]
  have happly := f.operator.apply_congr (hargument 0 f.operator.arity_pos) (hargument 1) (hargument 2)
  simp only [eval, happly]

theorem yields_evalStrictly {env : String → Except Fault α} {defined : String → Prop} {values : String → α}
    (h : ∀ name, Yields (env name) (defined name) (values name)) (f : Formula α) :
    Yields (f.evalStrictly env)
      (f.operator.arity ≤ f.operands.length ∧ ∀ name ∈ f.mentions, defined name) (f.eval values) := by
  have hargument (position : Nat) : Yields (f.argumentStrictly env position)
      (∃ operand, f.operands[position]? = some operand ∧ ∀ name ∈ operand.name?, defined name)
      (f.argument values position) := by
    unfold argumentStrictly argument
    cases f.operands[position]? with
    | none => exact .error _ (by simp) 0
    | some operand => exact (operand.yields_valueStrictly h).congr (by simp)
  rw [← eval_arguments]
  exact ((Yields.mapM fun position _ => hargument position).map _).congr (f.forall_operand_iff defined)

end Formula

namespace Scope

/-- The value of a guide that is defined. -/
def getStrictly (scope : Scope α) (name : String) : Except Fault α :=
  match scope.table.find? name with
  | some value => .ok value
  | none => .error (.unknownGuide name)

variable [Scalar α]

def resolveStrictly (scope : Scope α) (reference : String) : Except Fault α :=
  (Operand.ofToken (Text.trim reference)).valueStrictly scope.getStrictly

def evaluateStrictly (scope : Scope α) (formula : String) : Except Fault α :=
  match Formula.parse formula with
  | .ok f => f.evalStrictly scope.getStrictly
  | .error e => .error (.unreadable e)

def defineStrictly (scope : Scope α) (guide : Guide) : Except Fault (Scope α) := do
  return scope.set guide.name (← scope.evaluateStrictly guide.formula)

/-- Defines guides in their order, each in the scope that the ones before it have left. -/
def defineAllStrictly (scope : Scope α) (guides : List Guide) : Except Fault (Scope α) :=
  guides.foldlM defineStrictly scope

/-- A formula can be read, no operand is missing, and every name that it looks up is defined. -/
def Answers (scope : Scope α) (formula : String) : Prop :=
  ∃ f : Formula α, Formula.parse formula = .ok f ∧ f.operator.arity ≤ f.operands.length
    ∧ ∀ name ∈ f.mentions, scope.contains name = true

/-- Each formula is answered at the moment when its guide is defined. -/
def AnswersAll (scope : Scope α) : List Guide → Prop
  | [] => True
  | guide :: guides => scope.Answers guide.formula ∧ (scope.define guide).AnswersAll guides

theorem yields_getStrictly (scope : Scope α) (name : String) :
    Yields (scope.getStrictly name) (scope.contains name = true) (scope.get name) := by
  unfold getStrictly Scope.contains Table.contains Scope.get
  cases scope.table.find? name with
  | none => exact .error _ (by simp) _
  | some value => exact (Yields.ok value).congr (by simp)

theorem yields_resolveStrictly (scope : Scope α) (reference : String) :
    Yields (scope.resolveStrictly reference)
      (∀ name ∈ (Operand.ofToken (Text.trim reference) : Operand α).name?, scope.contains name = true)
      (scope.resolve reference) :=
  Operand.yields_valueStrictly scope.yields_getStrictly _

/-- Strict evaluation succeeds just when everything that is read is there, and then with the value of
evaluation. -/
theorem yields_evaluateStrictly (scope : Scope α) (formula : String) :
    Yields (scope.evaluateStrictly formula) (scope.Answers formula) (scope.evaluate formula) := by
  unfold evaluateStrictly evaluate Answers
  cases Formula.parse (α := α) formula with
  | error e => exact .error _ (by simp) _
  | ok f => exact (f.yields_evalStrictly scope.yields_getStrictly).congr (by simp)

theorem yields_defineStrictly (scope : Scope α) (guide : Guide) :
    Yields (scope.defineStrictly guide) (scope.Answers guide.formula) (scope.define guide) :=
  (scope.yields_evaluateStrictly guide.formula).map (scope.set guide.name)

theorem yields_defineAllStrictly (scope : Scope α) (guides : List Guide) :
    Yields (scope.defineAllStrictly guides) (scope.AnswersAll guides) (scope.defineAll guides) := by
  induction guides generalizing scope with
  | nil => exact .ok scope
  | cons guide guides ih => exact (scope.yields_defineStrictly guide).bind (ih (scope.define guide))

end Scope

end ShapeGeometry
