import ShapeGeometry.Proofs.Binary64.Quotient
import ShapeGeometry.Proofs.Decimal.ReadBack
import ShapeGeometry.Proofs.Formula.Lexing
import ShapeGeometry.Proofs.Guide.History

/-!
Scopes whose values are all numbers, infinities among them. A formula never evaluates to anything else, so only
a caller could bring something else in.
-/

namespace ShapeGeometry

namespace Table

variable {α : Type} {P : α → Prop} {t : Table α}

/-- Every value of a table has a property. -/
def All (P : α → Prop) (t : Table α) : Prop :=
  ∀ entry ∈ t.entries, P entry.2

theorem mem_put {name : String} {value : α} {entry : String × α} {entries : List (String × α)}
    (h : entry ∈ put name value entries) : entry = (name, value) ∨ entry ∈ entries := by
  induction entries with
  | nil => exact .inl (List.mem_singleton.mp h)
  | cons first rest ih =>
    rw [put] at h
    split at h
    · exact (List.mem_cons.mp h).imp_right (List.mem_cons_of_mem _)
    · rcases List.mem_cons.mp h with rfl | hm
      · exact .inr List.mem_cons_self
      · exact (ih hm).imp_right (List.mem_cons_of_mem _)

theorem all_empty : (empty : Table α).All P :=
  nofun

theorem All.insert (h : t.All P) (name : String) {value : α} (hv : P value) :
    (t.insert name value).All P := by
  intro entry hm
  rcases mem_put hm with rfl | hm
  · exact hv
  · exact h entry hm

theorem All.insertAll (h : t.All P) {pairs : List (String × α)} (hp : ∀ pair ∈ pairs, P pair.2) :
    (t.insertAll pairs).All P := by
  induction pairs generalizing t with
  | nil => exact h
  | cons pair pairs ih =>
    obtain ⟨hpair, hrest⟩ := List.forall_mem_cons.mp hp
    rw [insertAll_cons]
    exact ih (h.insert pair.1 hpair) hrest

theorem all_ofList {pairs : List (String × α)} (hp : ∀ pair ∈ pairs, P pair.2) :
    (ofList pairs).All P :=
  all_empty.insertAll hp

theorem All.find? (h : t.All P) (name : String) : ∀ value ∈ t.find? name, P value := by
  intro value hv
  exact h (name, value) (mem_of_lookup hv)

end Table

theorem isNaN_zero : Scalar.isNaN (0 : Float) = false := by
  decide

/-- A formula has a number for a value, whatever the names stand for. -/
theorem Formula.isNaN_eval (f : Formula Float) (env : String → Float) :
    (f.eval env).isNaN = false := by
  unfold eval
  dsimp only
  split
  · exact isNaN_zero
  · next h => exact Bool.eq_false_iff.mpr h

/-- Literals are finite, so a token has a number for a value when every name has one. -/
theorem Operand.isNaN_value_ofToken {env : String → Float} (h : ∀ name, (env name).isNaN = false)
    (token : String) : ((ofToken token).value env).isNaN = false := by
  rcases ofToken_cases (α := Float) token with ⟨n, value, hn, hv⟩ | hg
  · rw [hv]
    exact Binary64.isNaN_of_isFinite (Decimal.isFinite_of_ofNumeral? hn)
  · rw [hg]
    exact h token

namespace Builtin

open Binary64

/-- Fractions of a number are numbers when the divisors are finite and not zero. -/
theorem isNaN_fractions {length : Float} (hl : length.isNaN = false)
    {divisors : List (String × Float)}
    (hd : ∀ divisor ∈ divisors, divisor.2.isFinite = true ∧ (divisor.2 == 0) = false) :
    ∀ entry ∈ fractions length divisors, entry.2.isNaN = false := by
  intro entry hm
  obtain ⟨divisor, hdivisor, rfl⟩ := List.mem_map.mp hm
  obtain ⟨hfinite, hzero⟩ := hd divisor hdivisor
  exact isNaN_div hl hfinite hzero

theorem isNaN_angles : ∀ entry ∈ (angles : List (String × Float)), entry.2.isNaN = false := by
  decide

theorem isNaN_guides {width height : Float} (hw : width.isNaN = false) (hh : height.isNaN = false) :
    ∀ entry ∈ guides width height, entry.2.isNaN = false := by
  have hshort := isNaN_min hw hh
  have hlong := isNaN_max hw hh
  have hhalf : ∀ {length : Float}, length.isNaN = false → (length / 2).isNaN = false :=
    fun hl => isNaN_div hl (by decide) (by decide)
  simp only [guides, List.forall_mem_append]
  refine ⟨⟨⟨⟨?_, isNaN_angles⟩, ?_⟩, ?_⟩, ?_⟩
  · simp only [List.forall_mem_cons]
    exact ⟨hw, hh, isNaN_zero, isNaN_zero, hw, hh, hhalf hw, hhalf hh, hshort, hlong, nofun⟩
  · exact isNaN_fractions hw (by decide)
  · exact isNaN_fractions hh (by decide)
  · exact isNaN_fractions hshort (by decide)

end Builtin

/-- The values that a caller hands over with an operation. -/
def Operation.supplied {α : Type} : Operation α → List α
  | withOverrides overrides => overrides.map Prod.snd
  | set _ value => [value]
  | evaluateGuide _ => []
  | evaluateGuides _ => []

namespace Scope

/-- Every value of a scope is a number. -/
def Numeric (scope : Scope Float) : Prop :=
  scope.table.All fun value => value.isNaN = false

theorem numeric_ofSize {width height : Float} (hw : width.isNaN = false)
    (hh : height.isNaN = false) : (ofSize width height).Numeric :=
  Table.all_ofList (Builtin.isNaN_guides hw hh)

/-- Names that are not known are zero. -/
theorem Numeric.get {scope : Scope Float} (h : scope.Numeric) (name : String) :
    (scope.get name).isNaN = false := by
  cases hf : scope.table.find? name with
  | none =>
    rw [Scope.get, hf]
    exact isNaN_zero
  | some value =>
    rw [Scope.get, hf]
    exact h.find? name value hf

theorem Numeric.resolve {scope : Scope Float} (h : scope.Numeric) (reference : String) :
    (scope.resolve reference).isNaN = false :=
  Operand.isNaN_value_ofToken h.get _

theorem isNaN_evaluate (scope : Scope Float) (formula : String) :
    (scope.evaluate formula).isNaN = false := by
  unfold evaluate
  split
  · exact Formula.isNaN_eval _ _
  · exact isNaN_zero

theorem Numeric.define {scope : Scope Float} (h : scope.Numeric) (guide : Guide) :
    (scope.define guide).Numeric :=
  h.insert guide.name (scope.isNaN_evaluate guide.formula)

theorem Numeric.defineAll {scope : Scope Float} (h : scope.Numeric) (guides : List Guide) :
    (scope.defineAll guides).Numeric := by
  induction guides generalizing scope with
  | nil => exact h
  | cons guide guides ih => exact ih (h.define guide)

/-- One operation keeps a scope numeric unless it hands over something else. -/
theorem Numeric.perform {scope : Scope Float} (h : scope.Numeric) {operation : Operation Float}
    (hs : ∀ value ∈ operation.supplied, value.isNaN = false) : (scope.perform operation).Numeric := by
  cases operation with
  | withOverrides overrides => exact h.insertAll (List.forall_mem_map.mp hs)
  | set name value => exact h.insert name (hs value List.mem_cons_self)
  | evaluateGuide guide => exact h.define guide
  | evaluateGuides guides => exact h.defineAll guides

/-- No operation brings in a value that is not a number, unless it is handed one. -/
theorem Numeric.run {scope : Scope Float} (h : scope.Numeric) {operations : List (Operation Float)}
    (hs : ∀ operation ∈ operations, ∀ value ∈ operation.supplied, value.isNaN = false) :
    (scope.run operations).Numeric := by
  induction operations generalizing scope with
  | nil => exact h
  | cons operation operations ih =>
    obtain ⟨hfirst, hrest⟩ := List.forall_mem_cons.mp hs
    exact ih (h.perform hfirst) hrest

end Scope

end ShapeGeometry
