import ShapeGeometry.Proofs.Guide.History
import ShapeGeometry.Proofs.Guide.Strictness
import ShapeGeometry.Proofs.Shape.Slicing
import ShapeGeometry.Shape.Catalogue

namespace ShapeGeometry

variable {α γ δ ε : Type}

def PathCommand.mapStrictly (length angle : γ → Except ε δ) : PathCommand γ → Except ε (PathCommand δ)
  | moveTo x y => do return .moveTo (← length x) (← length y)
  | lineTo x y => do return .lineTo (← length x) (← length y)
  | cubicTo x1 y1 x2 y2 x y => do
    return .cubicTo (← length x1) (← length y1) (← length x2) (← length y2) (← length x) (← length y)
  | quadTo x1 y1 x y => do
    return .quadTo (← length x1) (← length y1) (← length x) (← length y)
  | arcTo widthRadius heightRadius startAngle sweepAngle => do
    return .arcTo (← length widthRadius) (← length heightRadius) (← angle startAngle) (← angle sweepAngle)
  | close => return .close

def Rect.mapStrictly (f : γ → Except ε δ) (rect : Rect γ) : Except ε (Rect δ) := do
  return ⟨← f rect.left, ← f rect.top, ← f rect.right, ← f rect.bottom⟩

section Yields

variable {condition : γ → Prop}

theorem PathCommand.yields_mapStrictly {length angle : γ → Except ε δ} {length' angle' : γ → δ}
    (hl : ∀ c, Yields (length c) (condition c) (length' c))
    (ha : ∀ c, Yields (angle c) (condition c) (angle' c)) (command : PathCommand γ) :
    Yields (command.mapStrictly length angle) (∀ c ∈ command.coordinates, condition c)
      (command.map length' angle') := by
  cases command with
  | moveTo x y =>
    refine Yields.congr ((hl x).bind ((hl y).map _)) ?_
    simp [coordinates]
  | lineTo x y =>
    refine Yields.congr ((hl x).bind ((hl y).map _)) ?_
    simp [coordinates]
  | cubicTo x1 y1 x2 y2 x y =>
    refine Yields.congr ((hl x1).bind ((hl y1).bind ((hl x2).bind ((hl y2).bind
      ((hl x).bind ((hl y).map _)))))) ?_
    simp [coordinates]
  | quadTo x1 y1 x y =>
    refine Yields.congr ((hl x1).bind ((hl y1).bind ((hl x).bind ((hl y).map _)))) ?_
    simp [coordinates]
  | arcTo widthRadius heightRadius startAngle sweepAngle =>
    refine Yields.congr ((hl widthRadius).bind ((hl heightRadius).bind
      ((ha startAngle).bind ((ha sweepAngle).map _)))) ?_
    simp [coordinates]
  | close =>
    refine Yields.congr (Yields.ok (PathCommand.close : PathCommand δ)) ?_
    simp [coordinates]

theorem Rect.yields_mapStrictly {f : γ → Except ε δ} {f' : γ → δ}
    (h : ∀ c, Yields (f c) (condition c) (f' c)) (rect : Rect γ) :
    Yields (rect.mapStrictly f) (∀ edge ∈ rect.edges, condition edge) (rect.map f') := by
  refine Yields.congr ((h rect.left).bind ((h rect.top).bind ((h rect.right).bind ((h rect.bottom).map _)))) ?_
  simp [edges]

theorem Yields.optionMapM {f : γ → Except ε δ} {f' : γ → δ} (h : ∀ c, Yields (f c) (condition c) (f' c))
    (value : Option γ) : Yields (value.mapM f) (∀ c ∈ value, condition c) (value.map f') := by
  cases value with
  | none => exact (ok none).congr (by simp)
  | some c => exact ((h c).map some).congr (by simp)

end Yields

theorem Preset.forall_references (preset : Preset α) {P : String → Prop} :
    (∀ reference ∈ preset.references, P reference)
      ↔ (∀ path ∈ preset.paths, ∀ reference ∈ path.references, P reference)
        ∧ ∀ rect ∈ preset.textRect, ∀ edge ∈ rect.edges, P edge := by
  simp only [references, List.mem_append, or_imp, forall_and, List.mem_flatMap, Option.mem_toList,
    forall_exists_index, and_imp]
  refine and_congr ?_ ?_
  · exact ⟨fun h path hm reference hr => h reference path hm hr, fun h reference path hm hr => h path hm reference hr⟩
  · exact ⟨fun h rect hm edge he => h edge rect hm he, fun h edge rect hm he => h rect hm edge he⟩

variable [Scalar α]

/-- A name that a reference looks up is defined. -/
def Scope.AnswersReference (scope : Scope α) (reference : String) : Prop :=
  ∀ name ∈ Reference.name? α reference, scope.contains name = true

/-- The path in numbers, where every reference must have a value. -/
def Outline.resolveStrictly (path : PresetPath α) (scope : Scope α) : Except Fault (Outline α α) := do
  let angle (reference : String) : Except Fault α := do
    return Angle.unitsToDegrees (← scope.resolveStrictly reference)
  return { width := path.width
           height := path.height
           fill := path.fill
           stroke := path.stroke
           commands := ← path.commands.mapM (·.mapStrictly scope.resolveStrictly angle) }

theorem Outline.yields_resolveStrictly (path : PresetPath α) (scope : Scope α) :
    Yields (path.resolveStrictly scope) (∀ reference ∈ path.references, scope.AnswersReference reference)
      (path.resolve scope) := by
  have hcommand (command : PathCommand String) :=
    command.yields_mapStrictly scope.yields_resolveStrictly
      fun reference => (scope.yields_resolveStrictly reference).map Angle.unitsToDegrees
  refine Yields.congr ((Yields.mapM fun command _ => hcommand command).map _) ?_
  simp only [references, List.mem_flatMap]
  exact ⟨fun h reference ⟨command, hm, hr⟩ => h command hm reference hr,
    fun h command hm reference hr => h reference ⟨command, hm, hr⟩⟩

namespace Preset

variable (preset : Preset α) (width height : α) (overrides : Option (Table α))

def adjustValuesStrictly : Except Fault (Table α) := do
  let seed := Scope.ofSize width height
  let defaults ← preset.adjustDefaults.mapM fun guide => do
    return (guide.name, ← seed.evaluateStrictly guide.formula)
  match overrides with
  | some values => return (Table.ofList defaults).insertAll values.entries
  | none => return Table.ofList defaults

def scopeStrictly : Except Fault (Scope α) := do
  let adjust ← preset.adjustValuesStrictly width height overrides
  ((Scope.ofSize width height).withOverrides adjust.entries).defineAllStrictly preset.guides

/-- Resolves a preset, or stops at the first thing that is missing. -/
def resolveStrictly : Except Fault (Layout α) := do
  let scope ← preset.scopeStrictly width height overrides
  return { paths := ← preset.paths.mapM (·.resolveStrictly scope)
           textRect := ← preset.textRect.mapM (·.mapStrictly scope.resolveStrictly)
           connectionSites := [] }

/-- Everything that is read while a preset is resolved is there when it is read. -/
structure Answered : Prop where
  defaults : ∀ guide ∈ preset.adjustDefaults, (Scope.ofSize width height).Answers guide.formula
  guides : (preset.adjusted width height overrides).AnswersAll preset.guides
  references : ∀ reference ∈ preset.references, (preset.scope width height overrides).AnswersReference reference

theorem yields_adjustValuesStrictly :
    Yields (preset.adjustValuesStrictly width height overrides)
      (∀ guide ∈ preset.adjustDefaults, (Scope.ofSize width height).Answers guide.formula)
      (preset.adjustValues width height overrides) := by
  have hdefault (guide : Guide) := ((Scope.ofSize width height).yields_evaluateStrictly guide.formula).map
    fun value => (guide.name, value)
  have hdefaults := Yields.mapM fun guide (_ : guide ∈ preset.adjustDefaults) => hdefault guide
  cases overrides with
  | none => exact hdefaults.map Table.ofList
  | some values => exact hdefaults.map fun defaults => (Table.ofList defaults).insertAll values.entries

theorem yields_resolveStrictly :
    Yields (preset.resolveStrictly width height overrides) (preset.Answered width height overrides)
      (preset.resolve width height overrides) := by
  have hscope : Yields (preset.scopeStrictly width height overrides) _ (preset.scope width height overrides) :=
    (preset.yields_adjustValuesStrictly width height overrides).bind
      (Scope.yields_defineAllStrictly (preset.adjusted width height overrides) preset.guides)
  have hpaths (scope : Scope α) := Yields.mapM fun path (_ : path ∈ preset.paths) =>
    path.yields_resolveStrictly scope
  have hrect (scope : Scope α) := Yields.optionMapM
    (fun rect => Rect.yields_mapStrictly scope.yields_resolveStrictly rect) preset.textRect
  refine Yields.congr (hscope.bind ((hpaths _).bind ((hrect _).map _))) ?_
  have hreferences := preset.forall_references
    (P := (preset.scope width height overrides).AnswersReference)
  constructor
  · rintro ⟨⟨hdefaults, hguides⟩, hread⟩
    exact ⟨hdefaults, hguides, hreferences.mpr hread⟩
  · rintro ⟨hdefaults, hguides, hread⟩
    exact ⟨⟨hdefaults, hguides⟩, hreferences.mp hread⟩

end Preset

/-- The names of the built-in guides, which do not depend on the size. -/
def Builtin.names : List String :=
  (Builtin.guides (0 : Float) 0).map Prod.fst

namespace Guide

/-- The formula can be read, has an operand for each place and no more, and looks up known names only. -/
def WellScoped (α : Type) [Scalar α] (known : List String) (guide : Guide) : Prop :=
  ∃ f : Formula α, Formula.parse guide.formula = .ok f ∧ f.operands.length = f.operator.arity
    ∧ ∀ name ∈ f.operands.filterMap Operand.name?, name ∈ known

/-- Guides that look up the known names and those of the guides before them. -/
def AllWellScoped (α : Type) [Scalar α] (known : List String) : List Guide → Prop
  | [] => True
  | guide :: guides => guide.WellScoped α known ∧ AllWellScoped α (known ++ [guide.name]) guides

/-- The words of a formula decide whether it is well scoped. -/
def wellScopedWords (α : Type) [Scalar α] (known : List String) : List String → Bool
  | [] => false
  | keyword :: words =>
    match Operator.ofKeyword? keyword with
    | some op => words.length = op.arity
        ∧ ∀ name ∈ words.filterMap fun word => (Operand.ofToken word : Operand α).name?, name ∈ known
    | none => false

theorem wellScoped_iff (known : List String) (guide : Guide) :
    guide.WellScoped α known ↔ wellScopedWords α known (Formula.tokens guide.formula) = true := by
  rw [WellScoped, Formula.parse, Formula.read_tokens]
  cases Formula.tokens guide.formula with
  | nil => simp [wellScopedWords]
  | cons keyword words =>
    cases hop : Operator.ofKeyword? keyword with
    | none => simp [wellScopedWords, hop]
    | some op => simp [wellScopedWords, hop]

instance (known : List String) (guide : Guide) : Decidable (guide.WellScoped α known) :=
  decidable_of_iff _ (wellScoped_iff known guide).symm

instance decidableAllWellScoped (known : List String) : (guides : List Guide) →
    Decidable (AllWellScoped α known guides)
  | [] => .isTrue trivial
  | guide :: guides =>
    have := decidableAllWellScoped (known ++ [guide.name]) guides
    inferInstanceAs (Decidable (guide.WellScoped α known ∧ AllWellScoped α (known ++ [guide.name]) guides))

example : Guide.WellScoped Float ["ss", "adj"] ⟨"x1", " */ ss\tadj 1e5"⟩ := by decide +kernel

/-- A name that is spelt wrong. -/
example : ¬ Guide.WellScoped Float ["ss", "adj"] ⟨"x1", "*/ ss ajd 100000"⟩ := by decide +kernel

end Guide

namespace Scope

/-- All names of a list are defined. -/
def Defines (scope : Scope α) (names : List String) : Prop :=
  ∀ name ∈ names, scope.contains name = true

theorem contains_define (scope : Scope α) (guide : Guide) (name : String) :
    (scope.define guide).contains name = true ↔ name = guide.name ∨ scope.contains name = true := by
  have hfind := Table.find?_insert scope.table guide.name name (scope.evaluate guide.formula)
  simp only [define, evaluateGuide, Scope.contains, Table.contains, set, hfind]
  by_cases h : name = guide.name
  · simp [h]
  · simp [h]

variable {scope : Scope α} {known : List String}

/-- Names are never lost, and a guide adds its own. -/
theorem Defines.define (h : scope.Defines known) (guide : Guide) :
    (scope.define guide).Defines (known ++ [guide.name]) := by
  intro name hn
  rw [contains_define]
  rcases List.mem_append.mp hn with hn | hn
  · exact .inr (h name hn)
  · exact .inl (List.mem_singleton.mp hn)

theorem Defines.defineAll (h : scope.Defines known) (guides : List Guide) :
    (scope.defineAll guides).Defines (known ++ guides.map Guide.name) := by
  induction guides generalizing scope known with
  | nil => simpa [Scope.defineAll] using h
  | cons guide guides ih => simpa [Scope.defineAll] using ih (h.define guide)

theorem Defines.answers (h : scope.Defines known) {guide : Guide} (hg : guide.WellScoped α known) :
    scope.Answers guide.formula := by
  obtain ⟨f, hf, hlength, hnames⟩ := hg
  refine ⟨f, hf, hlength.ge, ?_⟩
  intro name hn
  exact h name (hnames name (((f.operands.take_sublist _).filterMap _).mem hn))

/-- Well scoped guides are answered one after the other. -/
theorem Defines.answersAll (h : scope.Defines known) {guides : List Guide}
    (hg : Guide.AllWellScoped α known guides) : scope.AnswersAll guides := by
  induction guides generalizing scope known with
  | nil => trivial
  | cons guide guides ih => exact ⟨h.answers hg.1, ih (h.define guide) hg.2⟩

theorem defines_ofSize (width height : α) : (ofSize width height).Defines Builtin.names := by
  intro name hn
  have hfind := holds_ofSize width height name
  rw [Scope.contains, Table.contains, hfind, History.isSome_find?_iff]
  exact .inl hn

end Scope

namespace Preset

variable (preset : Preset α)

/-- The names that are known before the first guide of a preset. -/
def declared : List String :=
  Builtin.names ++ preset.adjustDefaults.map Guide.name

/-- Every name is declared before it is used. Defaults use the built-in names, guides also the adjust names and
the guides before them, and references all of these names. -/
structure WellScoped : Prop where
  defaults : ∀ guide ∈ preset.adjustDefaults, guide.WellScoped α Builtin.names
  guides : Guide.AllWellScoped α preset.declared preset.guides
  references : ∀ reference ∈ preset.references, ∀ name ∈ Reference.name? α reference,
    name ∈ preset.declared ++ preset.guides.map Guide.name

instance : Decidable preset.WellScoped :=
  decidable_of_iff
    ((∀ guide ∈ preset.adjustDefaults, guide.WellScoped α Builtin.names)
      ∧ Guide.AllWellScoped α preset.declared preset.guides
      ∧ ∀ reference ∈ preset.references, ∀ name ∈ Reference.name? α reference,
        name ∈ preset.declared ++ preset.guides.map Guide.name)
    ⟨fun ⟨hd, hg, hr⟩ => ⟨hd, hg, hr⟩, fun ⟨hd, hg, hr⟩ => ⟨hd, hg, hr⟩⟩

theorem isSome_default? {name : String} (h : name ∈ preset.adjustDefaults.map Guide.name) (width height : α) :
    (preset.default? width height name).isSome = true := by
  obtain ⟨guide, hm, rfl⟩ := List.mem_map.mp h
  rw [default?, Option.isSome_map, List.find?_isSome]
  exact ⟨guide, List.mem_reverse.mpr hm, decide_eq_true rfl⟩

/-- Overrides may add names, and take none away. -/
theorem defines_adjusted (width height : α) (overrides : Option (Table α)) :
    (preset.adjusted width height overrides).Defines preset.declared := by
  intro name hn
  rw [Scope.contains, Table.contains, find?_adjusted, Option.isSome_or, Option.isSome_or]
  rcases List.mem_append.mp hn with hn | hn
  · have hbuiltin : ((Scope.ofSize width height).table.find? name).isSome = true :=
      Scope.defines_ofSize width height name hn
    simp [hbuiltin]
  · simp [preset.isSome_default? hn width height]

variable {preset}

theorem WellScoped.answered (h : preset.WellScoped) (width height : α) (overrides : Option (Table α)) :
    preset.Answered width height overrides where
  defaults guide hm := (Scope.defines_ofSize width height).answers (h.defaults guide hm)
  guides := (preset.defines_adjusted width height overrides).answersAll h.guides
  references reference hr name hn :=
    (preset.defines_adjusted width height overrides).defineAll preset.guides name (h.references reference hr name hn)

theorem wellScoped_catalogue : ∀ preset ∈ (Catalogue.presets : List (Preset Float)), preset.WellScoped := by
  decide +kernel

/-- Resolving a preset without fallbacks succeeds just when all that is read is there when it is read, and it then
comes to the layout of the preset. A well scoped preset can always be resolved so, at every size and under all
overrides, and the presets of the catalogue are well scoped. -/
theorem well_scoped_answered :
    (∀ {α : Type} [Scalar α] (preset : Preset α) (width height : α) (overrides : Option (Table α)),
      (∀ layout, preset.resolveStrictly width height overrides = .ok layout
        ↔ preset.Answered width height overrides ∧ layout = preset.resolve width height overrides)
      ∧ (preset.WellScoped → preset.Answered width height overrides
        ∧ preset.resolveStrictly width height overrides = .ok (preset.resolve width height overrides)))
    ∧ ∀ preset ∈ (Catalogue.presets : List (Preset Float)), preset.WellScoped := by
  refine ⟨?_, wellScoped_catalogue⟩
  intro α _ preset width height overrides
  have hyields := preset.yields_resolveStrictly width height overrides
  refine ⟨hyields, ?_⟩
  intro h
  have hanswered := h.answered width height overrides
  exact ⟨hanswered, hyields.eq_ok hanswered⟩

/-- Guides that take the names of built-in guides and of each other, a default that is stated twice, references with
blanks around them, and overrides of names that the preset does not know. -/
theorem well_scoped_answered_shadowed :
    let preset : Preset Float :=
      { name := "shadowed"
        adjustDefaults := [⟨"adj", "val 16667"⟩, ⟨"w", "*/ h 1 2"⟩, ⟨"adj", "pin 0 w ss"⟩]
        guides := [⟨"x1", "*/ ss adj 100000"⟩, ⟨"x1", "+- x1 w 0"⟩, ⟨"l", "?: x1 l -1e2"⟩]
        paths := [{ commands := [.moveTo " x1\t" "l", .arcTo "x1" "4" "0" "cd4", .close] }]
        textRect := some ⟨"l", "0", "x1 ", "b"⟩ }
    let overrides : Option (Table Float) := some ⟨[("adj", 0 / 0), ("x2", 3), ("x1", 7)], by decide⟩
    preset.WellScoped ∧ preset.Answered 100 50 overrides
      ∧ preset.resolveStrictly 100 50 overrides = .ok (preset.resolve 100 50 overrides) := by
  intro preset overrides
  have hscoped : preset.WellScoped := by decide +kernel
  exact ⟨hscoped, (well_scoped_answered.1 preset 100 50 overrides).2 hscoped⟩

end Preset

end ShapeGeometry
