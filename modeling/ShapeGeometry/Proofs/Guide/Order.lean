import Mathlib.Data.Fin.VecNotation
import Mathlib.Data.List.FinRange
import ShapeGeometry.Binary64
import ShapeGeometry.Proofs.Guide.Agreement

namespace ShapeGeometry

namespace Guide

/-- Guides whose order can make a difference: they have one name, or a formula looks up the other name. -/
def Dependent (α : Type) [Scalar α] (guide other : Guide) : Prop :=
  guide.name = other.name ∨ guide.name ∈ other.mentions α ∨ other.name ∈ guide.mentions α

/-- The guides of a list, each at the place that it is given. -/
def reorder (guides : List Guide) (place : Equiv.Perm (Fin guides.length)) : List Guide :=
  List.ofFn fun position => guides.get (place.symm position)

/-- The first of two dependent guides stays the first. -/
def KeepsDependent (α : Type) [Scalar α] (guides : List Guide)
    (place : Equiv.Perm (Fin guides.length)) : Prop :=
  ∀ i j, i < j → Dependent α (guides.get i) (guides.get j) → place i < place j

variable {α : Type} [Scalar α]

theorem Dependent.symm {guide other : Guide} (h : Dependent α guide other) :
    Dependent α other guide := by
  rcases h with hname | hmentions | hmentions
  · exact .inl hname.symm
  · exact .inr (.inr hmentions)
  · exact .inr (.inl hmentions)

theorem not_dependent_iff {guide other : Guide} :
    ¬ Dependent α guide other
      ↔ guide.name ≠ other.name ∧ guide.name ∉ other.mentions α ∧ other.name ∉ guide.mentions α := by
  rw [Dependent, not_or, not_or]

/-- Seen from the new places, dependent guides come from positions in the same order. -/
theorem KeepsDependent.symm_lt {guides : List Guide} {place : Equiv.Perm (Fin guides.length)}
    (h : KeepsDependent α guides place) {k l : Fin guides.length} (hkl : k < l)
    (hd : Dependent α (guides.get (place.symm k)) (guides.get (place.symm l))) :
    place.symm k < place.symm l := by
  rcases lt_trichotomy (place.symm k) (place.symm l) with hlt | heq | hgt
  · exact hlt
  · exact absurd (place.symm.injective heq) hkl.ne
  · have hback := h _ _ hgt hd.symm
    rw [place.apply_symm_apply, place.apply_symm_apply] at hback
    exact absurd hback hkl.asymm

end Guide

namespace Scope

variable {α : Type} [Scalar α]

/-- A definition is not seen by a formula that does not look up its name. -/
theorem evaluate_define_of_notMem (scope : Scope α) {guide other : Guide}
    (h : guide.name ∉ other.mentions α) :
    (scope.define guide).evaluate other.formula = scope.evaluate other.formula := by
  apply evaluate_congr
  intro name hn
  have hne : name ≠ guide.name := by
    rintro rfl
    exact h hn
  rw [get, get, find?_define, if_neg hne]

theorem define_comm (scope : Scope α) {guide other : Guide} (h : ¬ Guide.Dependent α guide other) :
    ((scope.define guide).define other).Agrees ((scope.define other).define guide) := by
  obtain ⟨hne, hguide, hother⟩ := Guide.not_dependent_iff.mp h
  intro name
  simp only [find?_define, scope.evaluate_define_of_notMem hguide,
    scope.evaluate_define_of_notMem hother]
  by_cases hn : name = guide.name
  · rw [if_neg (hn.trans_ne hne), if_pos hn, if_pos hn]
  · rw [if_neg hn, if_neg hn]

/-- A guide moves to the front past guides that do not depend on it. -/
theorem defineAll_define_comm (scope : Scope α) {guides : List Guide} {guide : Guide}
    (h : ∀ earlier ∈ guides, ¬ Guide.Dependent α earlier guide) :
    ((scope.defineAll guides).define guide).Agrees ((scope.define guide).defineAll guides) := by
  induction guides generalizing scope with
  | nil => exact .refl _
  | cons first guides ih =>
    have hfirst := scope.define_comm (h first List.mem_cons_self)
    have hrest := ih (scope.define first) fun earlier hm => h earlier (List.mem_cons_of_mem _ hm)
    exact hrest.trans (hfirst.defineAll guides)

/-- Guides taken by rising positions, or in another order in which dependent ones still rise. -/
theorem agrees_defineAll_perm {ι : Type} [Preorder ι] (guide : ι → Guide) {positions order : List ι}
    (hsorted : positions.Pairwise (· < ·)) (hperm : order.Perm positions)
    (hkeeps : order.Pairwise fun i j => Guide.Dependent α (guide i) (guide j) → i < j)
    (scope : Scope α) :
    (scope.defineAll (positions.map guide)).Agrees (scope.defineAll (order.map guide)) := by
  induction positions generalizing order scope with
  | nil =>
    rw [hperm.eq_nil]
    exact .refl _
  | cons p positions ih =>
    obtain ⟨hleast, hsorted⟩ := List.pairwise_cons.mp hsorted
    obtain ⟨before, after, rfl⟩ := List.append_of_mem (hperm.mem_iff.mpr List.mem_cons_self)
    have hrest : (before ++ after).Perm positions := (List.perm_middle.symm.trans hperm).cons_inv
    have hsublist : (before ++ after).Sublist (before ++ p :: after) :=
      (List.sublist_cons_self p after).append_left before
    -- the first position stands behind others only where the guides are independent
    have hindependent : ∀ earlier ∈ before.map guide, ¬ Guide.Dependent α earlier (guide p) := by
      intro earlier hm hd
      obtain ⟨i, hi, rfl⟩ := List.mem_map.mp hm
      have hlt : i < p := (List.pairwise_append.mp hkeeps).2.2 i hi p List.mem_cons_self hd
      have hgt : p < i := hleast i (hrest.mem_iff.mp (List.mem_append_left _ hi))
      exact hlt.asymm hgt
    have hfront := (scope.defineAll_define_comm hindependent).symm.defineAll (after.map guide)
    have hih := ih hsorted hrest (hkeeps.sublist hsublist) (scope.define (guide p))
    rw [List.map_append, defineAll_append] at hih
    rw [List.map_append, List.map_cons, defineAll_append]
    exact hih.trans hfront

/-- Only dependencies fix the order of guides. Where the first of every two dependent guides stays the first,
another order of the list gives every name the same value. -/
theorem defineAll_reorder (scope : Scope α) {guides : List Guide}
    {place : Equiv.Perm (Fin guides.length)} (h : Guide.KeepsDependent α guides place)
    (name : String) :
    (scope.defineAll guides).get name = (scope.defineAll (Guide.reorder guides place)).get name
      ∧ (scope.defineAll guides).contains name
        = (scope.defineAll (Guide.reorder guides place)).contains name := by
  have hsorted := List.pairwise_lt_finRange guides.length
  have hperm : ((List.finRange guides.length).map place.symm).Perm (List.finRange guides.length) :=
    Equiv.Perm.map_finRange_perm place.symm
  have hkeeps : ((List.finRange guides.length).map place.symm).Pairwise fun i j =>
      Guide.Dependent α (guides.get i) (guides.get j) → i < j :=
    List.pairwise_map.mpr (hsorted.imp fun hkl hd => h.symm_lt hkl hd)
  have horder : Guide.reorder guides place
      = ((List.finRange guides.length).map place.symm).map guides.get := by
    rw [Guide.reorder, List.ofFn_eq_map, List.map_map]
    rfl
  have hagrees := agrees_defineAll_perm guides.get hsorted hperm hkeeps scope
  rw [List.map_get_finRange, ← horder] at hagrees
  exact ⟨hagrees.get name, hagrees.contains name⟩

/-- A name that is defined twice, and an operand beyond the arity, which is no dependency: the last guide moves
to the front, and the first one past the second. -/
theorem defineAll_reorder_twice :
    let guides : List Guide :=
      [⟨"x", "*/ w 1 2"⟩, ⟨"y", "val h"⟩, ⟨"x", "+- x y 0"⟩, ⟨"z", "val u y"⟩]
    let place : Equiv.Perm (Fin 4) :=
      { toFun := ![2, 1, 3, 0]
        invFun := ![3, 1, 0, 2]
        left_inv := by unfold Function.LeftInverse; decide
        right_inv := by unfold Function.RightInverse Function.LeftInverse; decide }
    Guide.KeepsDependent Float guides place
      ∧ ∀ (scope : Scope Float) name, (scope.defineAll guides).get name
          = (scope.defineAll
              [⟨"z", "val u y"⟩, ⟨"y", "val h"⟩, ⟨"x", "*/ w 1 2"⟩, ⟨"x", "+- x y 0"⟩]).get name := by
  intro guides place
  have hkeeps : Guide.KeepsDependent Float guides place := by
    simp only [Guide.KeepsDependent, Guide.Dependent, Guide.mentions_eq]
    decide
  exact ⟨hkeeps, fun scope name => (scope.defineAll_reorder hkeeps name).1⟩

end Scope

end ShapeGeometry
