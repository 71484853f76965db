import ShapeGeometry.Proofs.Shape.Sketch
import ShapeGeometry.Proofs.Guide.History
import ShapeGeometry.Shape.Catalogue

namespace ShapeGeometry

/-- The range of the stretch of the hexagon. -/
def IsStretch (x : ℝ) : Prop :=
  0 ≤ x ∧ x ≤ 115470

theorem isStretch_zero : IsStretch 0 := by
  norm_num [IsStretch]

open Exact

/-- The values that names stand for in a shape. -/
structure Setting (env : String → ℝ) (width height : ℝ) : Prop where
  width_pos : 0 < width
  height_pos : 0 < height
  builtin : ∀ entry ∈ Builtin.guides width height, env entry.1 = entry.2
  /-- The stretch of the hexagon. Other presets have no such guide, so that it is zero there. -/
  stretch : IsStretch (env "vf")

/-- No adjust value and no guide takes the name of a built-in guide, and the stretch is an adjust value or nothing. -/
structure Preset.KeepsBuiltins (preset : Preset ℝ) : Prop where
  apart : ∀ name ∈ (Builtin.guides (0 : ℝ) 0).map Prod.fst,
    name ∉ preset.adjustDefaults.map Guide.name ∧ name ∉ preset.guides.map Guide.name
  stretch : ∀ guide ∈ preset.adjustDefaults, guide.name = "vf" → guide.formula = "val 115470"
  stretch_notMem : "vf" ∉ preset.guides.map Guide.name

/-- An override is that of an adjust value, and that of the stretch is in its range. -/
def Preset.Adjusts (preset : Preset ℝ) (entry : String × ℝ) : Prop :=
  entry.1 ∈ preset.adjustDefaults.map Guide.name ∧ (entry.1 = "vf" → IsStretch entry.2)

namespace Preset

variable {preset : Preset ℝ} {width height : ℝ} {overrides : Option (Table ℝ)}

theorem default?_of_notMem {name : String} (h : name ∉ preset.adjustDefaults.map Guide.name) :
    preset.default? width height name = none := by
  rw [default?, Option.map_eq_none_iff, List.find?_eq_none]
  intro guide hm hname
  exact h (List.mem_map.mpr ⟨guide, List.mem_reverse.mp hm, of_decide_eq_true hname⟩)

/-- A name that no guide of the preset defines keeps the value that it is overridden with. -/
theorem get_scope_override {name : String} {value : ℝ} (hguides : name ∉ preset.guides.map Guide.name)
    (hvalue : overrides.bind (·.find? name) = some value) :
    (preset.scope width height overrides).get name = value := by
  rw [scope_eq, Scope.get_defineAll_of_notMem _ hguides, Scope.get, find?_adjusted, hvalue]
  rfl

theorem get_scope_builtin (hpreset : preset.KeepsBuiltins)
    (hoverrides : ∀ values ∈ overrides, ∀ entry ∈ values.entries, preset.Adjusts entry)
    {entry : String × ℝ} (hm : entry ∈ Builtin.guides width height) :
    (preset.scope width height overrides).get entry.1 = entry.2 := by
  have hname : entry.1 ∈ (Builtin.guides (0 : ℝ) 0).map Prod.fst :=
    (Scope.builtin_names width height).symm ▸ List.mem_map_of_mem hm
  obtain ⟨hadjust, hguides⟩ := hpreset.apart entry.1 hname
  have hoverride : overrides.bind (·.find? entry.1) = none := by
    cases overrides with
    | none => rfl
    | some values =>
      apply Option.eq_none_iff_forall_ne_some.mpr
      intro value hv
      exact hadjust (hoverrides values rfl _ (Table.mem_of_lookup hv)).1
  have hbuiltin : (Scope.ofSize width height).table.find? entry.1 = some entry.2 := by
    rw [Scope.holds_ofSize width height entry.1]
    exact Table.lookup_of_mem (Scope.builtin_names_nodup width height) hm
  rw [scope_eq, Scope.get_defineAll_of_notMem _ hguides, Scope.get, find?_adjusted, hoverride,
    default?_of_notMem hadjust, hbuiltin]
  rfl

theorem isStretch_default (width height : ℝ) :
    IsStretch ((Scope.ofSize width height).evaluate "val 115470") := by
  have hwritten : Formula.written? "val 115470" = some ⟨.val, [.literal ⟨false, 115470, 0⟩]⟩ := by
    decide +kernel
  rw [evaluate_eq, hwritten]
  norm_num [IsStretch]

theorem get_scope_stretch (hpreset : preset.KeepsBuiltins)
    (hoverrides : ∀ values ∈ overrides, ∀ entry ∈ values.entries, preset.Adjusts entry) :
    IsStretch ((preset.scope width height overrides).get "vf") := by
  have hbuiltin : (Scope.ofSize width height).table.find? "vf" = none := by
    rw [Scope.holds_ofSize width height "vf"]
    rfl
  rw [scope_eq, Scope.get_defineAll_of_notMem _ hpreset.stretch_notMem, Scope.get, find?_adjusted,
    hbuiltin, Option.or_none]
  cases hoverride : overrides.bind (·.find? "vf") with
  | some value =>
    obtain ⟨values, hvalues, hv⟩ := Option.bind_eq_some_iff.mp hoverride
    exact (hoverrides values hvalues _ (Table.mem_of_lookup hv)).2 rfl
  | none =>
    cases hdefault : preset.default? width height "vf" with
    | some value =>
      obtain ⟨guide, hfind, rfl⟩ := Option.map_eq_some_iff.mp hdefault
      have hm : guide ∈ preset.adjustDefaults := List.mem_reverse.mp (List.mem_of_find?_eq_some hfind)
      have hname : guide.name = "vf" := by simpa using List.find?_some hfind
      rw [hpreset.stretch guide hm hname]
      exact isStretch_default width height
    | none =>
      rw [Option.or_none, Option.getD_none, ofNat_eq, Nat.cast_zero]
      exact isStretch_zero

/-- In the scope of a preset the built-in guides have the values of the size, whatever the overrides are. -/
theorem setting_scope (hpreset : preset.KeepsBuiltins) (hwidth : 0 < width) (hheight : 0 < height)
    (hoverrides : ∀ values ∈ overrides, ∀ entry ∈ values.entries, preset.Adjusts entry) :
    Setting (preset.scope width height overrides).get width height where
  width_pos := hwidth
  height_pos := hheight
  builtin _ := get_scope_builtin hpreset hoverrides
  stretch := get_scope_stretch hpreset hoverrides

end Preset

namespace Setting

variable {env : String → ℝ} {width height : ℝ}

/-- The built-in guides that the presets use, but for the shorter side. -/
theorem sizes (hs : Setting env width height) :
    (env "w" = width ∧ env "h" = height ∧ env "l" = 0 ∧ env "t" = 0 ∧ env "r" = width ∧ env "b" = height)
      ∧ (env "hc" = width / 2 ∧ env "vc" = height / 2)
      ∧ (env "wd2" = width / 2 ∧ env "wd3" = width / 3 ∧ env "wd4" = width / 4)
      ∧ (env "hd2" = height / 2 ∧ env "hd3" = height / 3 ∧ env "hd4" = height / 4) := by
  have h := hs.builtin
  simp only [Builtin.guides, Builtin.fractions, List.forall_mem_append, List.map_cons,
    List.forall_mem_cons, ofNat_eq, Nat.cast_zero] at h
  simp [h]

theorem short_eq (hs : Setting env width height) : env "ss" = min width height := by
  have h : env "ss" = Scalar.min width height :=
    hs.builtin ("ss", Scalar.min width height) (by simp [Builtin.guides])
  rw [h, scalar_min_eq]

theorem short (hs : Setting env width height) :
    0 < env "ss" ∧ env "ss" ≤ width ∧ env "ss" ≤ height := by
  rw [hs.short_eq]
  exact ⟨lt_min hs.width_pos hs.height_pos, min_le_left width height, min_le_right width height⟩

/-- A length that is measured by the shorter side. -/
theorem measure_pos (hs : Setting env width height) {length measure : ℝ} (hl : 0 < length)
    (hmeasure : measure = length / env "ss") : 0 < measure :=
  hmeasure ▸ div_pos hl hs.short.1

/-- A value that is pinned to the measure of a length comes to at most that length. -/
theorem mul_pin_mem (hs : Setting env width height) {length measure x value : ℝ} (hl : 0 < length)
    (hmeasure : measure = length / env "ss") (hvalue : value = Operator.pin.apply 0 x measure) :
    0 ≤ env "ss" * value ∧ env "ss" * value ≤ length := by
  have hss := hs.short.1
  have h := mul_mem hss.le (pin_mem (hs.measure_pos hl hmeasure).le hvalue)
  rwa [hmeasure, mul_div_cancel₀ length hss.ne'] at h

end Setting

namespace Preset

/-- The sketch lies within every shape, with paths in one space or in that of the shape. -/
def Fits (preset : Preset ℝ) : Prop :=
  ∃ pathWidth pathHeight : Option ℝ,
    (∀ path ∈ preset.paths, path.width = pathWidth ∧ path.height = pathHeight)
    ∧ ∀ {env : String → ℝ} {width height : ℝ}, Setting env width height →
      (0 < pathWidth.getD width ∧ 0 < pathHeight.getD height)
      ∧ preset.sketch.Within env width height (pathWidth.getD width) (pathHeight.getD height)

theorem fits_of_shape {preset : Preset ℝ}
    (hpaths : ∀ path ∈ preset.paths, path.width = none ∧ path.height = none)
    (h : ∀ {env : String → ℝ} {width height : ℝ}, Setting env width height →
      preset.sketch.Within env width height width height) : preset.Fits :=
  ⟨none, none, hpaths, fun hs => ⟨⟨hs.width_pos, hs.height_pos⟩, h hs⟩⟩

theorem fits_of_space {preset : Preset ℝ} (extent : ℕ) (hpos : 0 < extent)
    (hpaths : ∀ path ∈ preset.paths, path.width = some (extent : ℝ) ∧ path.height = some (extent : ℝ))
    (h : ∀ {env : String → ℝ} {width height : ℝ}, Setting env width height →
      preset.sketch.Within env width height extent extent) : preset.Fits :=
  have hextent : (0 : ℝ) < extent := Nat.cast_pos.mpr hpos
  ⟨some extent, some extent, hpaths, fun hs => ⟨⟨hextent, hextent⟩, h hs⟩⟩

end Preset

end ShapeGeometry
