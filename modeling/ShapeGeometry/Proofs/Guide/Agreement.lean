import Mathlib.Data.List.Induction
import ShapeGeometry.Guide.Scope
import ShapeGeometry.Proofs.Formula.Mentions

namespace ShapeGeometry.Scope

variable {α : Type}

/-- The same names are defined, with the same values. -/
def Agrees (scope other : Scope α) : Prop :=
  ∀ name, scope.table.find? name = other.table.find? name

theorem Agrees.refl (scope : Scope α) : scope.Agrees scope :=
  fun _ => rfl

theorem Agrees.symm {scope other : Scope α} (h : scope.Agrees other) : other.Agrees scope :=
  fun name => (h name).symm

theorem Agrees.trans {scope other third : Scope α} (h : scope.Agrees other) (h' : other.Agrees third) :
    scope.Agrees third :=
  fun name => (h name).trans (h' name)

theorem Agrees.contains {scope other : Scope α} (h : scope.Agrees other) (name : String) :
    scope.contains name = other.contains name := by
  rw [Scope.contains, Scope.contains, Table.contains, Table.contains, h name]

theorem find?_set (scope : Scope α) (name other : String) (value : α) :
    (scope.set name value).table.find? other
      = if other = name then some value else scope.table.find? other :=
  Table.find?_insert scope.table name other value

theorem Agrees.set {scope other : Scope α} (h : scope.Agrees other) (name : String) (value : α) :
    (scope.set name value).Agrees (other.set name value) := by
  intro n
  rw [find?_set, find?_set, h n]

theorem find?_withOverrides (scope : Scope α) (overrides : Table α) (name : String) :
    (scope.withOverrides overrides.entries).table.find? name
      = (overrides.find? name).or (scope.table.find? name) :=
  scope.table.find?_insertAll overrides.nodup name

variable [Scalar α]

theorem Agrees.get {scope other : Scope α} (h : scope.Agrees other) (name : String) :
    scope.get name = other.get name := by
  rw [Scope.get, Scope.get, h name]

theorem Agrees.define {scope other : Scope α} (h : scope.Agrees other) (guide : Guide) :
    (scope.define guide).Agrees (other.define guide) := by
  have he : scope.evaluate guide.formula = other.evaluate guide.formula :=
    evaluate_congr fun name _ => h.get name
  rw [Scope.define, Scope.define, evaluateGuide, evaluateGuide, he]
  exact h.set guide.name _

theorem Agrees.defineAll {scope other : Scope α} (h : scope.Agrees other) (guides : List Guide) :
    (scope.defineAll guides).Agrees (other.defineAll guides) := by
  induction guides generalizing scope other with
  | nil => exact h
  | cons guide guides ih => exact ih (h.define guide)

theorem defineAll_append (scope : Scope α) (first second : List Guide) :
    scope.defineAll (first ++ second) = (scope.defineAll first).defineAll second :=
  List.foldl_append

theorem find?_define (scope : Scope α) (guide : Guide) (name : String) :
    (scope.define guide).table.find? name
      = if name = guide.name then some (scope.evaluate guide.formula) else scope.table.find? name :=
  find?_set scope guide.name name _

/-- The names of guides with their values in a scope. -/
def evaluateEach (scope : Scope α) (guides : List Guide) : List (String × α) :=
  guides.map fun guide => (guide.name, scope.evaluate guide.formula)

/-- No formula of the guides looks up the name of an earlier one. -/
def Independent (α : Type) [Scalar α] (guides : List Guide) : Prop :=
  guides.Pairwise fun earlier later => earlier.name ∉ later.mentions α

/-- A formula that looks up none of the names of some guides does not see them. -/
theorem evaluate_of_notMem {scope other : Scope α} {guides : List Guide} {guide : Guide}
    (h : ∀ name, other.table.find? name
      = ((Table.ofList (scope.evaluateEach guides)).find? name).or (scope.table.find? name))
    (hg : ∀ earlier ∈ guides, earlier.name ∉ guide.mentions α) :
    other.evaluate guide.formula = scope.evaluate guide.formula := by
  apply evaluate_congr
  intro name hn
  have hnames : name ∉ (scope.evaluateEach guides).map Prod.fst := by
    rw [evaluateEach, List.map_map]
    intro hm
    obtain ⟨earlier, he, rfl⟩ := List.mem_map.mp hm
    exact hg earlier he hn
  have hnone : (Table.ofList (scope.evaluateEach guides)).find? name = none :=
    Table.find?_insertAll_of_notMem Table.empty hnames
  rw [Scope.get, Scope.get, h name, hnone, Option.none_or]

/-- Guides that do not look up each other's names have in sequence the values that each one has alone. -/
theorem find?_defineAll_of_independent (scope : Scope α) {guides : List Guide}
    (h : Independent α guides) (name : String) :
    (scope.defineAll guides).table.find? name
      = ((Table.ofList (scope.evaluateEach guides)).find? name).or (scope.table.find? name) := by
  induction guides using List.reverseRecOn generalizing name with
  | nil => rfl
  | append_singleton guides guide ih =>
    obtain ⟨hfirst, -, hlast⟩ := List.pairwise_append.mp h
    have hvalue := evaluate_of_notMem (fun n => ih hfirst n)
      (fun earlier he => hlast earlier he guide (List.mem_singleton_self guide))
    have hsnoc : Table.ofList (scope.evaluateEach (guides ++ [guide]))
        = (Table.ofList (scope.evaluateEach guides)).insert guide.name
          (scope.evaluate guide.formula) := by
      rw [evaluateEach, List.map_append, Table.ofList, Table.insertAll_append]
      rfl
    rw [defineAll_append, hsnoc, Table.find?_insert]
    refine (find?_define (scope.defineAll guides) guide name).trans ?_
    rw [hvalue, ih hfirst name]
    by_cases hn : name = guide.name
    · rw [if_pos hn, if_pos hn, Option.some_or]
    · rw [if_neg hn, if_neg hn]

end ShapeGeometry.Scope
