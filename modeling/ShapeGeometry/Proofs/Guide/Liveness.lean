import Mathlib.Data.Finset.Basic
import Mathlib.Data.Finset.Dedup
import ShapeGeometry.Proofs.Formula.Mentions

/-!
Which guides matter for the values of some names. A walk from the last guide to the first keeps the names that
are still looked up; a guide is live when its name is one of them.
-/

namespace ShapeGeometry

/-- What a walk over the last guides of a list has found: the names that are looked up from there on, and the
guides that give them values. -/
structure Liveness where
  names : Finset String
  guides : List Guide

variable {α : Type} [Scalar α]

namespace Liveness

/-- Goes one guide further to the front. A live guide answers for its own name, and its formula asks for
others, its own name among them if it is mentioned. -/
def visit (α : Type) [Scalar α] (guide : Guide) (later : Liveness) : Liveness :=
  if guide.name ∈ later.names then
    ⟨later.names.erase guide.name ∪ (guide.mentions α).toFinset, guide :: later.guides⟩
  else later

/-- The walk from the last guide to the first, when names are needed at the end. -/
def ofGuides (α : Type) [Scalar α] (guides : List Guide) (needed : Finset String) : Liveness :=
  guides.foldr (visit α) ⟨needed, []⟩

theorem visit_of_mem {guide : Guide} {later : Liveness} (h : guide.name ∈ later.names) :
    visit α guide later
      = ⟨later.names.erase guide.name ∪ (guide.mentions α).toFinset, guide :: later.guides⟩ :=
  if_pos h

theorem visit_of_notMem {guide : Guide} {later : Liveness} (h : guide.name ∉ later.names) :
    visit α guide later = later :=
  if_neg h

theorem ofGuides_cons (guide : Guide) (guides : List Guide) (needed : Finset String) :
    ofGuides α (guide :: guides) needed = visit α guide (ofGuides α guides needed) :=
  rfl

/-- Live guides stand in their order in the list. -/
theorem guides_sublist (guides : List Guide) (needed : Finset String) :
    (ofGuides α guides needed).guides.Sublist guides := by
  induction guides with
  | nil => exact .slnil
  | cons guide guides ih =>
    rw [ofGuides_cons]
    by_cases h : guide.name ∈ (ofGuides α guides needed).names
    · rw [visit_of_mem h]
      exact ih.cons_cons guide
    · rw [visit_of_notMem h]
      exact ih.cons guide

end Liveness

namespace Scope

/-- Two scopes give some names the same values. -/
def AgreesOn (names : Finset String) (scope other : Scope α) : Prop :=
  ∀ name ∈ names, scope.get name = other.get name

theorem AgreesOn.refl (names : Finset String) (scope : Scope α) : scope.AgreesOn names scope :=
  fun _ _ => rfl

theorem AgreesOn.symm {names : Finset String} {scope other : Scope α} (h : AgreesOn names scope other) :
    AgreesOn names other scope :=
  fun name hn => (h name hn).symm

theorem AgreesOn.trans {names : Finset String} {scope other third : Scope α}
    (h : AgreesOn names scope other) (h' : AgreesOn names other third) : AgreesOn names scope third :=
  fun name hn => (h name hn).trans (h' name hn)

theorem get_define (scope : Scope α) (guide : Guide) (name : String) :
    (scope.define guide).get name
      = if name = guide.name then scope.evaluate guide.formula else scope.get name :=
  scope.get_set guide.name name _

/-- A live guide is defined in both scopes, with the same value. -/
theorem AgreesOn.define {guide : Guide} {names : Finset String} {scope other : Scope α}
    (h : AgreesOn (names.erase guide.name ∪ (guide.mentions α).toFinset) scope other) :
    AgreesOn names (scope.define guide) (other.define guide) := by
  have hvalue : scope.evaluate guide.formula = other.evaluate guide.formula :=
    evaluate_congr fun name hn => h name (Finset.mem_union_right _ (List.mem_toFinset.mpr hn))
  intro name hn
  rw [get_define, get_define, hvalue]
  by_cases hg : name = guide.name
  · rw [if_pos hg, if_pos hg]
  · rw [if_neg hg, if_neg hg]
    exact h name (Finset.mem_union_left _ (Finset.mem_erase.mpr ⟨hg, hn⟩))

/-- A dead guide can be left out. -/
theorem AgreesOn.define_left {guide : Guide} {names : Finset String} {scope other : Scope α}
    (h : AgreesOn names scope other) (hg : guide.name ∉ names) :
    AgreesOn names (scope.define guide) other := by
  intro name hn
  have hne : name ≠ guide.name := by
    rintro rfl
    exact hg hn
  rw [get_define, if_neg hne, h name hn]

/-- One visit backwards is sound for one definition forwards. -/
theorem AgreesOn.visit {guide : Guide} {later : Liveness} {scope other : Scope α}
    (h : AgreesOn (Liveness.visit α guide later).names scope other) :
    ∃ next, other.defineAll (Liveness.visit α guide later).guides = next.defineAll later.guides
      ∧ AgreesOn later.names (scope.define guide) next := by
  by_cases hg : guide.name ∈ later.names
  · rw [Liveness.visit_of_mem hg] at h ⊢
    exact ⟨other.define guide, rfl, h.define⟩
  · rw [Liveness.visit_of_notMem hg] at h ⊢
    exact ⟨other, rfl, h.define_left hg⟩

/-- All guides in one scope and the live ones in another lead to the same values of the needed names. -/
theorem AgreesOn.defineAll {guides : List Guide} {needed : Finset String} {scope other : Scope α}
    (h : AgreesOn (Liveness.ofGuides α guides needed).names scope other) :
    AgreesOn needed (scope.defineAll guides)
      (other.defineAll (Liveness.ofGuides α guides needed).guides) := by
  induction guides generalizing scope other with
  | nil => exact h
  | cons guide guides ih =>
    rw [Liveness.ofGuides_cons] at h ⊢
    obtain ⟨next, hnext, hagrees⟩ := h.visit
    rw [hnext]
    exact ih hagrees

/-- So the same guides in scopes that agree on what is live keep them in agreement. -/
theorem AgreesOn.defineAll_same {guides : List Guide} {needed : Finset String} {scope other : Scope α}
    (h : AgreesOn (Liveness.ofGuides α guides needed).names scope other) :
    AgreesOn needed (scope.defineAll guides) (other.defineAll guides) :=
  h.defineAll.trans (AgreesOn.refl _ other).defineAll.symm

end Scope

end ShapeGeometry
