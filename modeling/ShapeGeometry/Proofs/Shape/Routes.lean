import ShapeGeometry.Proofs.Formula.References
import ShapeGeometry.Proofs.Formula.RoundTrip
import ShapeGeometry.Proofs.Shape.Adjustment
import ShapeGeometry.Shape.Geometry

namespace ShapeGeometry

/-- A guide whose formula is a number. -/
def Guide.ofValue (name : String) (value : Float) : Guide :=
  ⟨name, "val " ++ Decimal.text value⟩

/-- A preset under overrides as one list of guides. -/
def Preset.guideList (preset : Preset Float) (overrides : List (String × Float)) : List Guide :=
  preset.adjustDefaults ++ overrides.map (fun entry => .ofValue entry.1 entry.2) ++ preset.guides

namespace Scope

/-- A finite number is the value of its own text, in every scope. -/
theorem evaluate_ofValue (scope : Scope Float) (name : String) {value : Float}
    (h : value.isFinite = true) : scope.evaluate (Guide.ofValue name value).formula = value := by
  have hliteral : Operand.WellFormed (.literal value) := h
  have hrun := Operand.isRun_text hliteral
  have hread := Operand.ofToken_text hliteral
  rw [Operand.text] at hrun hread
  rw [Guide.ofValue, evaluate_val scope hrun, hread, Operand.value]
  exact if_neg (Bool.eq_false_iff.mp (Binary64.isNaN_of_isFinite h))

/-- Guides for finite numbers override like the numbers. -/
theorem defineAll_ofValue (scope : Scope Float) {overrides : List (String × Float)}
    (h : ∀ entry ∈ overrides, entry.2.isFinite = true) :
    scope.defineAll (overrides.map fun entry => .ofValue entry.1 entry.2)
      = scope.withOverrides overrides := by
  induction overrides generalizing scope with
  | nil => rfl
  | cons entry overrides ih =>
    have hvalue := scope.evaluate_ofValue entry.1 (h entry List.mem_cons_self)
    have hdefine : scope.define (.ofValue entry.1 entry.2) = scope.set entry.1 entry.2 := by
      rw [define, evaluateGuide, hvalue]
      rfl
    calc scope.defineAll ((entry :: overrides).map fun entry => .ofValue entry.1 entry.2)
        = (scope.set entry.1 entry.2).defineAll
            (overrides.map fun entry => .ofValue entry.1 entry.2) := by
          rw [List.map_cons, defineAll, List.foldl_cons, hdefine, defineAll]
      _ = (scope.set entry.1 entry.2).withOverrides overrides :=
          ih _ fun other hm => h other (List.mem_cons_of_mem _ hm)
      _ = scope.withOverrides (entry :: overrides) := by
          rw [withOverrides, withOverrides, Table.insertAll_cons, set]

end Scope

namespace Preset

variable (preset : Preset Float) (width height : Float)

/-- The defaults in sequence and then the overrides come to the same. -/
theorem agrees_adjusted {overrides : Table Float} {entries : List (String × Float)}
    (hdefaults : Scope.Independent Float preset.adjustDefaults)
    (hfinite : ∀ entry ∈ overrides.entries, entry.2.isFinite = true)
    (hentries : entries.Perm overrides.entries) :
    (preset.adjusted width height (some overrides)).Agrees
      ((Scope.ofSize width height).defineAll (preset.adjustDefaults
        ++ entries.map fun entry => .ofValue entry.1 entry.2)) := by
  intro name
  have hnodup : (entries.map Prod.fst).Nodup :=
    (hentries.map Prod.fst).nodup_iff.mpr overrides.nodup
  have hlookup : entries.lookup name = overrides.find? name :=
    Table.lookup_perm hentries hnodup name
  have hvalues : ∀ entry ∈ entries, entry.2.isFinite = true :=
    fun entry hm => hfinite entry (hentries.mem_iff.mp hm)
  have hsequence := Scope.find?_withOverrides
    ((Scope.ofSize width height).defineAll preset.adjustDefaults) ⟨entries, hnodup⟩ name
  rw [find?_adjusted, Option.bind_some, Scope.defineAll_append, Scope.defineAll_ofValue _ hvalues,
    hsequence, Scope.find?_defineAll_of_independent _ hdefaults, find?_defaults, ← hlookup]
  rfl

/-- A preset and a custom shape that has the same guides as one list agree on every name. No default may
look up the name of an earlier one; the overrides are finite, in any order, and written out as numbers.
Without overrides they can as well be left out. -/
theorem scope_agrees_custom {overrides : Table Float}
    (hdefaults : preset.adjustDefaults.Pairwise fun earlier later =>
      earlier.name ∉ later.mentions Float)
    (hfinite : ∀ entry ∈ overrides.entries, entry.2.isFinite = true) :
    (∀ (entries : List (String × Float)) (shape : CustomShape Float),
        entries.Perm overrides.entries → shape.guides = preset.guideList entries →
        ∀ name,
          (preset.scope width height (some overrides)).get name = (shape.scope width height).get name
          ∧ (preset.scope width height (some overrides)).contains name
            = (shape.scope width height).contains name)
    ∧ (overrides.entries = [] → ∀ name,
          (preset.scope width height (some overrides)).get name
            = (preset.scope width height none).get name
          ∧ (preset.scope width height (some overrides)).contains name
            = (preset.scope width height none).contains name) := by
  refine ⟨?_, ?_⟩
  · intro entries shape hentries hguides name
    have hadjusted := preset.agrees_adjusted width height hdefaults hfinite hentries
    have hagrees : (preset.scope width height (some overrides)).Agrees (shape.scope width height) := by
      rw [CustomShape.scope, hguides, guideList, Scope.defineAll_append]
      exact hadjusted.defineAll preset.guides
    exact ⟨hagrees.get name, hagrees.contains name⟩
  · intro hempty name
    have hnone : preset.scope width height (some overrides) = preset.scope width height none := by
      simp only [scope, adjustValues, hempty, Table.insertAll_nil]
    rw [hnone]
    exact ⟨rfl, rfl⟩

/-- A default that is stated twice, one that takes the place of a built-in guide, and an operand beyond the
arity. -/
theorem scope_agrees_custom_repeated :
    let preset : Preset Float :=
      { name := "repeated"
        adjustDefaults := [⟨"adj", "val 16667"⟩, ⟨"w", "*/ h 1 2"⟩, ⟨"adj", "abs h w"⟩]
        guides := [⟨"x1", "*/ ss adj 100000"⟩, ⟨"w", "+- w x1 0"⟩]
        paths := []
        textRect := none }
    let overrides : Table Float := ⟨[("ss", 2), ("adj", -0.0)], by decide⟩
    (preset.adjustDefaults.Pairwise fun earlier later => earlier.name ∉ later.mentions Float)
      ∧ (∀ entry ∈ overrides.entries, entry.2.isFinite = true)
      ∧ ∀ name, (preset.scope 100 50 (some overrides)).get name
        = (CustomShape.scope ⟨preset.guideList [("adj", -0.0), ("ss", 2)], [], []⟩ 100 50).get name := by
  intro preset overrides
  have hw : Formula.tokens "*/ h 1 2" = Operator.mulDiv.keyword :: ["h", "1", "2"] := by decide
  have hadj : Formula.tokens "abs h w" = Operator.abs.keyword :: ["h", "w"] := by decide
  have hmentions : Guide.mentions Float ⟨"w", "*/ h 1 2"⟩ = ["h"]
      ∧ Guide.mentions Float ⟨"adj", "abs h w"⟩ = ["h"] :=
    ⟨(Guide.mentions_of_tokens hw).trans (by decide), (Guide.mentions_of_tokens hadj).trans (by decide)⟩
  have hdefaults : preset.adjustDefaults.Pairwise fun earlier later =>
      earlier.name ∉ later.mentions Float := by
    simp [preset, hmentions]
  have hfinite : ∀ entry ∈ overrides.entries, entry.2.isFinite = true := by decide
  have hagrees := (preset.scope_agrees_custom 100 50 hdefaults hfinite).1
  exact ⟨hdefaults, hfinite, fun name => (hagrees _ ⟨preset.guideList _, [], []⟩ (.swap _ _ _) rfl name).1⟩

end Preset

end ShapeGeometry
