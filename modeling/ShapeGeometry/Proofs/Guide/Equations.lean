import ShapeGeometry.Proofs.Guide.Liveness

namespace ShapeGeometry

/-- Every guide has a name of its own, which stands in no formula before the guides after it. -/
def Guide.Ordered : List Guide → Prop
  | [] => True
  | guide :: guides =>
    (∀ word ∈ Formula.tokens guide.formula, word ∉ (guide :: guides).map Guide.name)
      ∧ guide.name ∉ guides.map Guide.name ∧ Ordered guides

instance Guide.decidableOrdered : (guides : List Guide) → Decidable (Ordered guides)
  | [] => .isTrue trivial
  | guide :: guides =>
    have := decidableOrdered guides
    inferInstanceAs (Decidable ((∀ word ∈ Formula.tokens guide.formula,
      word ∉ (guide :: guides).map Guide.name) ∧ guide.name ∉ guides.map Guide.name ∧ Ordered guides))

variable {α : Type} [Scalar α]

theorem Guide.mem_tokens_of_mem_mentions {guide : Guide} {name : String}
    (h : name ∈ guide.mentions α) : name ∈ Formula.tokens guide.formula := by
  rw [mentions_eq] at h
  cases ht : Formula.tokens guide.formula with
  | nil => simp [ht] at h
  | cons keyword words =>
    cases hop : Operator.ofKeyword? keyword with
    | none => simp [ht, hop] at h
    | some op =>
      simp only [ht, hop] at h
      obtain ⟨word, hm, hname⟩ := List.mem_filterMap.mp h
      have hword : word = name := by
        rcases Operand.ofToken_cases (α := α) word with ⟨n, value, -, hv⟩ | hv
        · simp [hv, Operand.name?] at hname
        · simpa [hv, Operand.name?] using hname
      exact List.mem_cons_of_mem keyword (hword ▸ List.mem_of_mem_take hm)

namespace Scope

/-- Each guide has the value of its formula. -/
def Solves (scope : Scope α) (guides : List Guide) : Prop :=
  ∀ guide ∈ guides, scope.get guide.name = scope.evaluate guide.formula

theorem get_defineAll_of_notMem (scope : Scope α) {guides : List Guide} {name : String}
    (h : name ∉ guides.map Guide.name) : (scope.defineAll guides).get name = scope.get name := by
  induction guides generalizing scope with
  | nil => rfl
  | cons guide guides ih =>
    rw [List.map_cons, List.mem_cons, not_or] at h
    exact (ih (scope.define guide) h.2).trans ((scope.get_define guide name).trans (if_neg h.1))

/-- Each guide has the value of its formula in the scope that all of them leave. -/
theorem solves_defineAll (scope : Scope α) {guides : List Guide} (h : Guide.Ordered guides) :
    (scope.defineAll guides).Solves guides := by
  induction guides generalizing scope with
  | nil => exact nofun
  | cons guide guides ih =>
    obtain ⟨hwords, hname, hrest⟩ := h
    intro other hm
    rcases List.mem_cons.mp hm with rfl | hm
    · have hformula : scope.evaluate other.formula
          = (scope.defineAll (other :: guides)).evaluate other.formula := by
        apply evaluate_congr
        intro name hn
        exact (scope.get_defineAll_of_notMem (hwords name (Guide.mem_tokens_of_mem_mentions hn))).symm
      calc (scope.defineAll (other :: guides)).get other.name
          = (scope.define other).get other.name := get_defineAll_of_notMem (scope.define other) hname
        _ = scope.evaluate other.formula := (scope.get_define other other.name).trans (if_pos rfl)
        _ = (scope.defineAll (other :: guides)).evaluate other.formula := hformula
    · exact ih (scope.define guide) hrest other hm

end Scope

end ShapeGeometry
