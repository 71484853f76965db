import ShapeGeometry.Proofs.Shape.Slicing
import ShapeGeometry.Shape.Geometry

namespace ShapeGeometry

variable {α : Type}

namespace Table

/-- One map, listed in two orders. -/
def SameEntries (table other : Table α) : Prop :=
  table.entries.Perm other.entries

theorem lookup_of_perm {table : Table α} {entries : List (String × α)}
    (h : entries.Perm table.entries) (name : String) : entries.lookup name = table.find? name :=
  lookup_perm h ((h.map Prod.fst).nodup_iff.mpr table.nodup) name

/-- What a name is overridden with is the same in every listing of the overrides. -/
theorem find?_of_sameEntries {overrides others : Option (Table α)}
    (h : Option.Rel SameEntries overrides others) (name : String) :
    overrides.bind (·.find? name) = others.bind (·.find? name) := by
  cases h with
  | none => rfl
  | some h => exact lookup_of_perm h name

end Table

variable [Scalar α]

namespace Preset

variable (preset : Preset α) (width height : α)

/-- The scope of a preset whose adjust values are handed on in a given order. `Preset.scope` has that of the table. -/
def scopeOf (adjustValues : List (String × α)) : Scope α :=
  ((Scope.ofSize width height).withOverrides adjustValues).defineAll preset.guides

/-- A listing of adjust values is as good as any other of the same map. -/
theorem agrees_scopeOf {entries : List (String × α)} {overrides : Option (Table α)}
    (hnodup : (entries.map Prod.fst).Nodup)
    (h : ∀ name, entries.lookup name = (preset.adjustValues width height overrides).find? name) :
    (preset.scopeOf width height entries).Agrees (preset.scope width height overrides) := by
  have hstart : ((Scope.ofSize width height).withOverrides entries).Agrees
      (preset.adjusted width height overrides) := by
    intro name
    have hentries := (Scope.ofSize width height).find?_withOverrides ⟨entries, hnodup⟩ name
    rw [adjusted, Scope.find?_withOverrides, ← h name]
    exact hentries
  exact hstart.defineAll preset.guides

theorem scope_agrees {overrides others : Option (Table α)}
    (h : ∀ name, (preset.adjustValues width height overrides).find? name
      = (preset.adjustValues width height others).find? name) :
    (preset.scope width height overrides).Agrees (preset.scope width height others) :=
  preset.agrees_scopeOf width height (preset.adjustValues width height overrides).nodup h

theorem layout_agrees {scope other : Scope α} (h : scope.Agrees other) :
    preset.layout scope = preset.layout other :=
  preset.layout_congr fun name _ => h.get name

/-- Overrides that mean the same adjust values mean the same layout. -/
theorem resolve_congr {overrides others : Option (Table α)}
    (h : ∀ name, (preset.adjustValues width height overrides).find? name
      = (preset.adjustValues width height others).find? name) :
    preset.resolve width height overrides = preset.resolve width height others :=
  preset.layout_agrees (preset.scope_agrees width height h)

/-- Order makes no difference. Overrides may be listed in any order, and so may the adjust values that they and the
defaults come to: names have the same values after the guides, and the layout is the same. Among the adjust values
a name has its override, or else the last default that is declared for it. -/
theorem resolve_listing {overrides others : Option (Table α)}
    (h : Option.Rel Table.SameEntries overrides others) :
    preset.resolve width height others = preset.resolve width height overrides
    ∧ (∀ entries : List (String × α),
        entries.Perm (preset.adjustValues width height others).entries →
        preset.layout (preset.scopeOf width height entries) = preset.resolve width height overrides
        ∧ ∀ name,
          (preset.scopeOf width height entries).get name
              = (preset.scope width height overrides).get name
          ∧ (preset.scopeOf width height entries).contains name
              = (preset.scope width height overrides).contains name)
    ∧ ∀ name, (preset.adjustValues width height overrides).find? name
        = (overrides.bind (·.find? name)).or (preset.default? width height name) := by
  have hvalues : ∀ name, (preset.adjustValues width height others).find? name
      = (preset.adjustValues width height overrides).find? name := by
    intro name
    rw [find?_adjustValues, find?_adjustValues, Table.find?_of_sameEntries h]
  refine ⟨preset.resolve_congr width height hvalues, ?_, preset.find?_adjustValues width height overrides⟩
  intro entries hperm
  have hnodup : (entries.map Prod.fst).Nodup :=
    (hperm.map Prod.fst).nodup_iff.mpr (preset.adjustValues width height others).nodup
  have hagrees := preset.agrees_scopeOf width height hnodup fun name =>
    (Table.lookup_of_perm hperm name).trans (hvalues name)
  exact ⟨preset.layout_agrees hagrees, fun name => ⟨hagrees.get name, hagrees.contains name⟩⟩

/-- A default that is stated twice and overridden, one that takes the place of a built-in guide, and an override of a
built-in guide. -/
theorem resolve_listing_overridden :
    let preset : Preset Float :=
      { name := "overridden"
        adjustDefaults := [⟨"adj", "val 16667"⟩, ⟨"w", "*/ h 1 2"⟩, ⟨"adj", "abs h w"⟩]
        guides := [⟨"x1", "*/ ss adj 100000"⟩, ⟨"w", "+- w x1 0"⟩]
        paths := [{ commands := [.moveTo "l" " x1", .lineTo "w" "ss"] }]
        textRect := some ⟨"l", "adj", "w", "b"⟩ }
    let overrides : Table Float := ⟨[("ss", 2), ("adj", -0.0)], by decide⟩
    let others : Table Float := ⟨[("adj", -0.0), ("ss", 2)], by decide⟩
    let default := (Scope.ofSize 100 50).evaluate "*/ h 1 2"
    let entries := [("ss", 2), ("adj", -0.0), ("w", default)]
    Option.Rel Table.SameEntries (some overrides) (some others)
      ∧ entries.Perm (preset.adjustValues 100 50 (some others)).entries
      ∧ preset.layout (preset.scopeOf 100 50 entries) = preset.resolve 100 50 (some overrides) := by
  intro preset overrides others default entries
  have hsame : Option.Rel Table.SameEntries (some overrides) (some others) := .some (.swap _ _ [])
  have hvalues : (preset.adjustValues 100 50 (some others)).entries
      = [("adj", -0.0), ("w", default)] ++ [("ss", 2)] := rfl
  have hentries : entries.Perm (preset.adjustValues 100 50 (some others)).entries := by
    rw [hvalues]
    change ([("ss", 2)] ++ [("adj", -0.0), ("w", default)]).Perm _
    exact List.perm_append_comm
  exact ⟨hsame, hentries, ((preset.resolve_listing 100 50 hsame).2.1 entries hentries).1⟩

/-- Stating a default changes nothing. An override may be added for any name that has none, if it says what the last
default of that name says; so no overrides, an empty map of them and all defaults spelled out come to the same. -/
theorem resolve_stated :
    (∀ (overrides extended : Table α) (stated : Finset String),
        (∀ name ∈ stated,
          name ∈ preset.adjustDefaults.map Guide.name ∧ overrides.find? name = none) →
        (∀ name, extended.find? name
          = if name ∈ stated then preset.default? width height name else overrides.find? name) →
        preset.resolve width height (some extended) = preset.resolve width height (some overrides))
    ∧ preset.resolve width height (some .empty) = preset.resolve width height none
    ∧ (∀ spelled : Table α, (∀ name, spelled.find? name = preset.default? width height name) →
        preset.resolve width height (some spelled) = preset.resolve width height none)
    ∧ ∀ name, Catalogue.resolve? name width height none
        = (Geometry.preset name .empty).resolve? width height := by
  have hempty : ∀ other : Preset α, other.resolve width height (some .empty)
      = other.resolve width height none := fun other =>
    other.resolve_congr width height fun name => by
      rw [find?_adjustValues, find?_adjustValues]
      rfl
  refine ⟨?_, hempty preset, ?_, ?_⟩
  · intro overrides extended stated hstated hextended
    apply preset.resolve_congr width height
    intro name
    rw [find?_adjustValues, find?_adjustValues, Option.bind_some, Option.bind_some, hextended name]
    by_cases hm : name ∈ stated
    · rw [if_pos hm, (hstated name hm).2, Option.or_self, Option.none_or]
    · rw [if_neg hm]
  · intro spelled hspelled
    apply preset.resolve_congr width height
    intro name
    rw [find?_adjustValues, find?_adjustValues, Option.bind_some, hspelled name, Option.or_self]
    rfl
  · intro name
    simp only [Catalogue.resolve?, Geometry.resolve?, hempty]

/-- The defaults are the last one of a name that is declared twice, and one that takes the place of a built-in
guide, which the other does not see. -/
theorem resolve_stated_repeated :
    let preset : Preset Float :=
      { name := "repeated"
        adjustDefaults := [⟨"adj", "val 16667"⟩, ⟨"w", "*/ h 1 2"⟩, ⟨"adj", "abs w h"⟩]
        guides := [⟨"x1", "*/ ss adj 100000"⟩, ⟨"w", "+- w x1 0"⟩]
        paths := [{ commands := [.moveTo "l" " x1", .lineTo "w" "ss"] }]
        textRect := some ⟨"l", "adj", "w", "b"⟩ }
    let overrides : Table Float := ⟨[("ss", 2)], by decide⟩
    let extended : Table Float := ⟨[("adj", 100), ("ss", 2), ("w", 25)], by decide⟩
    let stated : Finset String := {"w", "adj"}
    (∀ name ∈ stated, name ∈ preset.adjustDefaults.map Guide.name ∧ overrides.find? name = none)
      ∧ (∀ name, extended.find? name
        = if name ∈ stated then preset.default? 100 50 name else overrides.find? name)
      ∧ preset.resolve 100 50 (some extended) = preset.resolve 100 50 (some overrides) := by
  intro preset overrides extended stated
  have hstated : ∀ name ∈ stated,
      name ∈ preset.adjustDefaults.map Guide.name ∧ overrides.find? name = none := by decide
  have hadj : preset.default? 100 50 "adj" = some 100 := by
    change some ((Scope.ofSize 100 50).evaluate "abs w h") = _
    rw [Scope.evaluate, Formula.parse, Formula.read_tokens]
    decide +kernel
  have hw : preset.default? 100 50 "w" = some 25 := by
    change some ((Scope.ofSize 100 50).evaluate "*/ h 1 2") = _
    rw [Scope.evaluate, Formula.parse, Formula.read_tokens]
    decide +kernel
  have hextended : ∀ name, extended.find? name
      = if name ∈ stated then preset.default? 100 50 name else overrides.find? name := by
    intro name
    by_cases ha : name = "adj"
    · rw [ha, hadj]
      rfl
    · by_cases hb : name = "w"
      · rw [hb, hw]
        rfl
      · simp [stated, ha, hb, extended, overrides, Table.find?, Table.lookup_entry]
  exact ⟨hstated, hextended, (preset.resolve_stated 100 50).1 overrides extended stated hstated hextended⟩

end Preset

end ShapeGeometry
