import Mathlib.Data.List.Induction
import ShapeGeometry.Guide.Scope

namespace ShapeGeometry

variable {α : Type}

/-- What a caller can do to a scope. -/
inductive Operation (α : Type) where
  | withOverrides (overrides : List (String × α))
  | set (name : String) (value : α)
  | evaluateGuide (guide : Guide)
  | evaluateGuides (guides : List Guide)

/-- One name that is written: with a value, or with the value that a guide comes to have. -/
inductive Write (α : Type) where
  | value (name : String) (value : α)
  | guide (guide : Guide)

def Write.name : Write α → String
  | value name _ => name
  | guide g => g.name

/-- The writes of an operation, in the order in which it makes them. -/
def Operation.writes : Operation α → List (Write α)
  | withOverrides overrides => overrides.map fun entry => .value entry.1 entry.2
  | set name value => [.value name value]
  | evaluateGuide guide => [.guide guide]
  | evaluateGuides guides => guides.map .guide

namespace History

/-- The last value written to a name, or else that of its built-in guide. -/
def find? (builtins history : List (String × α)) (name : String) : Option α :=
  (history.reverse.lookup name).or (builtins.lookup name)

theorem find?_snoc (builtins history : List (String × α)) (entry : String × α) (name : String) :
    find? builtins (history ++ [entry]) name
      = if name = entry.1 then some entry.2 else find? builtins history name := by
  simp only [find?, List.reverse_append, List.reverse_singleton, List.singleton_append,
    Table.lookup_entry]
  by_cases h : name = entry.1
  · simp [h]
  · simp [h]

theorem isSome_lookup_iff (entries : List (String × α)) (name : String) :
    (entries.lookup name).isSome = true ↔ name ∈ entries.map Prod.fst := by
  induction entries with
  | nil => simp
  | cons entry entries ih =>
    rw [Table.lookup_entry, List.map_cons, List.mem_cons]
    by_cases h : name = entry.1
    · simp [h]
    · simp only [h, if_false, ih, false_or]

/-- The names with a value are those of the built-in guides and those written. -/
theorem isSome_find?_iff (builtins history : List (String × α)) (name : String) :
    (find? builtins history name).isSome = true
      ↔ name ∈ builtins.map Prod.fst ∨ name ∈ history.map Prod.fst := by
  rw [find?, Option.isSome_or, Bool.or_eq_true, isSome_lookup_iff, isSome_lookup_iff,
    List.map_reverse, List.mem_reverse]
  exact or_comm

variable [Scalar α]

def get (builtins history : List (String × α)) (name : String) : α :=
  (find? builtins history name).getD 0

/-- The value that a guide comes to have after a history. The names of its formula stand for what that
history gives them, and a formula that cannot be read is zero. -/
def guideValue (builtins history : List (String × α)) (guide : Guide) : α :=
  match Formula.parse guide.formula with
  | .ok f => f.eval (get builtins history)
  | .error _ => 0

/-- What a write puts after a history. -/
def entry (builtins history : List (String × α)) : Write α → String × α
  | .value name value => (name, value)
  | .guide guide => (guide.name, guideValue builtins history guide)

def ofWrites (builtins : List (String × α)) (writes : List (Write α)) : List (String × α) :=
  writes.foldl (fun history write => history ++ [entry builtins history write]) []

theorem ofWrites_snoc (builtins : List (String × α)) (writes : List (Write α)) (write : Write α) :
    ofWrites builtins (writes ++ [write])
      = ofWrites builtins writes ++ [entry builtins (ofWrites builtins writes) write] := by
  simp only [ofWrites, List.foldl_append, List.foldl_cons, List.foldl_nil]

theorem entry_name (builtins history : List (String × α)) (write : Write α) :
    (entry builtins history write).1 = write.name := by
  cases write with
  | value name value => rfl
  | guide guide => rfl

theorem ofWrites_length (builtins : List (String × α)) (writes : List (Write α)) :
    (ofWrites builtins writes).length = writes.length := by
  induction writes using List.reverseRecOn with
  | nil => rfl
  | append_singleton writes write ih => simp [ofWrites_snoc, ih]

theorem ofWrites_names (builtins : List (String × α)) (writes : List (Write α)) :
    (ofWrites builtins writes).map Prod.fst = writes.map Write.name := by
  induction writes using List.reverseRecOn with
  | nil => rfl
  | append_singleton writes write ih => simp [ofWrites_snoc, ih, entry_name]

/-- Later writes leave the entries of the ones before them as they are. -/
theorem ofWrites_append (builtins : List (String × α)) (before after : List (Write α)) :
    ∃ later, ofWrites builtins (before ++ after) = ofWrites builtins before ++ later := by
  induction after using List.reverseRecOn with
  | nil => exact ⟨[], by simp⟩
  | append_singleton after write ih =>
    obtain ⟨later, hl⟩ := ih
    refine ⟨later ++ [entry builtins (ofWrites builtins (before ++ after)) write], ?_⟩
    rw [← List.append_assoc, ofWrites_snoc, hl, List.append_assoc]

theorem take_ofWrites (builtins : List (String × α)) (before after : List (Write α)) :
    (ofWrites builtins (before ++ after)).take before.length = ofWrites builtins before := by
  obtain ⟨later, hl⟩ := ofWrites_append builtins before after
  rw [hl, List.take_left' (ofWrites_length builtins before)]

/-- The entry of a write is made from the entries before it. -/
theorem ofWrites_entry (builtins : List (String × α)) (before after : List (Write α))
    (write : Write α) :
    (ofWrites builtins (before ++ write :: after))[before.length]?
      = some (entry builtins (ofWrites builtins before) write) := by
  obtain ⟨later, hl⟩ := ofWrites_append builtins (before ++ [write]) after
  rw [List.append_assoc, List.singleton_append] at hl
  rw [hl, ofWrites_snoc, List.append_assoc, List.getElem?_append_right]
  · simp [ofWrites_length]
  · exact Nat.le_of_eq (ofWrites_length builtins before)

end History

namespace Scope

/-- The scope holds what the history gives: the same names, with the same values. -/
def Holds (scope : Scope α) (builtins history : List (String × α)) : Prop :=
  ∀ name, scope.table.find? name = History.find? builtins history name

theorem Holds.set {scope : Scope α} {builtins history : List (String × α)}
    (h : scope.Holds builtins history) (entry : String × α) :
    (scope.set entry.1 entry.2).Holds builtins (history ++ [entry]) := by
  intro name
  rw [History.find?_snoc, ← h name]
  exact Table.find?_insert scope.table entry.1 name entry.2

variable [Scalar α]

def perform (scope : Scope α) : Operation α → Scope α
  | .withOverrides overrides => scope.withOverrides overrides
  | .set name value => scope.set name value
  | .evaluateGuide guide => (scope.evaluateGuide guide).2
  | .evaluateGuides guides => scope.defineAll guides

def run (scope : Scope α) (operations : List (Operation α)) : Scope α :=
  operations.foldl perform scope

def apply (scope : Scope α) : Write α → Scope α
  | .value name value => scope.set name value
  | .guide guide => scope.define guide

/-- An operation is its writes, one after the other. -/
theorem perform_eq (scope : Scope α) (operation : Operation α) :
    scope.perform operation = operation.writes.foldl apply scope := by
  cases operation with
  | withOverrides overrides =>
    simp only [perform, withOverrides, Operation.writes, List.foldl_map, apply]
    induction overrides generalizing scope with
    | nil => rfl
    | cons entry overrides ih =>
      rw [List.foldl_cons, Table.insertAll_cons, ← ih]
      rfl
  | set name value => rfl
  | evaluateGuide guide => rfl
  | evaluateGuides guides =>
    simp only [perform, defineAll, Operation.writes, List.foldl_map, apply]

theorem run_eq (scope : Scope α) (operations : List (Operation α)) :
    scope.run operations = (operations.flatMap Operation.writes).foldl apply scope := by
  induction operations generalizing scope with
  | nil => rfl
  | cons operation operations ih =>
    rw [run, List.foldl_cons, ← run, ih, perform_eq, List.flatMap_cons, List.foldl_append]

theorem Holds.get {scope : Scope α} {builtins history : List (String × α)}
    (h : scope.Holds builtins history) : scope.get = History.get builtins history := by
  funext name
  rw [Scope.get, History.get, h name]

/-- A guide is evaluated to the value that its entry has. -/
theorem Holds.evaluateGuide {scope : Scope α} {builtins history : List (String × α)}
    (h : scope.Holds builtins history) (guide : Guide) :
    (scope.evaluateGuide guide).1 = History.guideValue builtins history guide := by
  cases hp : (Formula.parse guide.formula : Except FormulaError (Formula α)) with
  | ok f => simp only [Scope.evaluateGuide, evaluate, History.guideValue, hp, h.get]
  | error error => simp only [Scope.evaluateGuide, evaluate, History.guideValue, hp]

/-- One write keeps a scope in step with its history. -/
theorem Holds.apply {scope : Scope α} {builtins history : List (String × α)}
    (h : scope.Holds builtins history) (write : Write α) :
    (scope.apply write).Holds builtins (history ++ [History.entry builtins history write]) := by
  cases write with
  | value name value => exact h.set (name, value)
  | guide guide =>
    rw [History.entry, ← h.evaluateGuide guide]
    exact h.set (guide.name, (scope.evaluateGuide guide).1)

/-- The names that are built in, at every size. -/
theorem builtin_names (width height : α) :
    (Builtin.guides width height).map Prod.fst
      = ["w", "h", "l", "t", "r", "b", "hc", "vc", "ss", "ls", "cd2", "cd4", "cd8", "3cd4", "3cd8",
        "5cd8", "7cd8", "wd2", "wd3", "wd4", "wd5", "wd6", "wd8", "wd10", "wd12", "wd32", "hd2",
        "hd3", "hd4", "hd5", "hd6", "hd8", "ssd2", "ssd4", "ssd6", "ssd8", "ssd16", "ssd32"] :=
  rfl

theorem builtin_names_nodup (width height : α) :
    ((Builtin.guides width height).map Prod.fst).Nodup := by
  rw [builtin_names]
  decide

theorem holds_ofSize (width height : α) :
    (ofSize width height).Holds (Builtin.guides width height) [] := by
  intro name
  rw [ofSize, Table.ofList, Table.find?_insertAll _ (builtin_names_nodup width height)]
  rw [Table.find?_empty, Option.or_none]
  rfl

/-- All writes keep it so, from the built-in guides on. -/
theorem Holds.foldl {scope : Scope α} {builtins : List (String × α)}
    (h : scope.Holds builtins []) (writes : List (Write α)) :
    (writes.foldl Scope.apply scope).Holds builtins (History.ofWrites builtins writes) := by
  induction writes using List.reverseRecOn with
  | nil => exact h
  | append_singleton writes write ih =>
    rw [List.foldl_append, History.ofWrites_snoc]
    exact ih.apply write

/-- What a scope of a size holds after operations: the built-in guides and what was written since. -/
theorem holds_run (width height : α) (operations : List (Operation α)) :
    ((ofSize width height).run operations).Holds (Builtin.guides width height)
      (History.ofWrites (Builtin.guides width height) (operations.flatMap Operation.writes)) := by
  rw [run_eq]
  exact (holds_ofSize width height).foldl _

theorem contains_run_iff (width height : α) (operations : List (Operation α)) (name : String) :
    ((ofSize width height).run operations).contains name = true
      ↔ name ∈ (Builtin.guides width height).map Prod.fst
        ∨ name ∈ (operations.flatMap Operation.writes).map Write.name := by
  rw [contains, Table.contains, holds_run, History.isSome_find?_iff, History.ofWrites_names]

/-- The value of a guide among operations is that of its entry in the history. -/
theorem evaluateGuide_run (width height : α) (before after : List (Operation α)) (guide : Guide) :
    (((ofSize width height).run before).evaluateGuide guide).1
      = History.guideValue (Builtin.guides width height)
        ((History.ofWrites (Builtin.guides width height)
            ((before ++ .evaluateGuide guide :: after).flatMap Operation.writes)).take
          (before.flatMap Operation.writes).length) guide := by
  rw [(holds_run width height before).evaluateGuide guide, List.flatMap_append,
    History.take_ofWrites]

/-- A write gives its name some value. -/
theorem apply_eq_set (scope : Scope α) (write : Write α) :
    ∃ value, scope.apply write = scope.set write.name value := by
  cases write with
  | value name value => exact ⟨value, rfl⟩
  | guide guide => exact ⟨(scope.evaluateGuide guide).1, rfl⟩

theorem find?_apply (scope : Scope α) {write : Write α} {name : String} (h : name ≠ write.name) :
    (scope.apply write).table.find? name = scope.table.find? name := by
  obtain ⟨value, hv⟩ := scope.apply_eq_set write
  rw [hv]
  exact (Table.find?_insert _ _ _ _).trans (if_neg h)

/-- A name that is not written is left alone. -/
theorem find?_perform (scope : Scope α) {operation : Operation α} {name : String}
    (h : name ∉ operation.writes.map Write.name) :
    (scope.perform operation).table.find? name = scope.table.find? name := by
  rw [perform_eq]
  generalize operation.writes = writes at h
  induction writes generalizing scope with
  | nil => rfl
  | cons write writes ih =>
    rw [List.map_cons, List.mem_cons, not_or] at h
    rw [List.foldl_cons, ih _ h.2, find?_apply scope h.1]

/-- A guide that cannot be read is defined all the same, as zero. -/
theorem find?_define_error (scope : Scope α) {guide : Guide} {error : FormulaError}
    (h : (Formula.parse guide.formula : Except FormulaError (Formula α)) = .error error) :
    (scope.define guide).table.find? guide.name = some 0 := by
  have hz : scope.evaluate guide.formula = 0 := by
    rw [evaluate, h]
  rw [define, evaluateGuide, hz]
  exact (Table.find?_insert _ _ _ _).trans (if_pos rfl)

/-- After any operations a scope is what their history says. The history has one entry for each write,
made from the entries before it; a name has the last value written to it, and otherwise that of its
built-in guide, or zero; the names are those built in and those written. A guide is evaluated by the same
rule, one that cannot be read is defined as zero, and an operation leaves alone what it does not write. -/
theorem history_meaning (width height : α) (operations : List (Operation α)) :
    let builtins := Builtin.guides width height
    let writes := operations.flatMap Operation.writes
    let history := History.ofWrites builtins writes
    let scope := (ofSize width height).run operations
    (history.length = writes.length
      ∧ ∀ before write after, writes = before ++ write :: after →
        history[before.length]?
          = some (History.entry builtins (history.take before.length) write))
    ∧ (∀ name, scope.get name = History.get builtins history name)
    ∧ (∀ name, scope.contains name = true
        ↔ name ∈ builtins.map Prod.fst ∨ name ∈ writes.map Write.name)
    ∧ (∀ before guide after, operations = before ++ .evaluateGuide guide :: after →
        (((ofSize width height).run before).evaluateGuide guide).1
          = History.guideValue builtins
            (history.take (before.flatMap Operation.writes).length) guide)
    ∧ (∀ guide error,
        (Formula.parse guide.formula : Except FormulaError (Formula α)) = .error error →
        (scope.perform (.evaluateGuide guide)).get guide.name = 0
          ∧ (scope.perform (.evaluateGuide guide)).contains guide.name = true)
    ∧ (∀ operation name, name ∉ operation.writes.map Write.name →
        (scope.perform operation).get name = scope.get name
          ∧ (scope.perform operation).contains name = scope.contains name) := by
  intro builtins writes history scope
  have hholds : scope.Holds builtins history := holds_run width height operations
  refine ⟨⟨History.ofWrites_length builtins writes, ?_⟩, ?_, ?_, ?_, ?_, ?_⟩
  · intro before write after hw
    simp only [history, hw]
    rw [History.ofWrites_entry, History.take_ofWrites]
  · intro name
    rw [hholds.get]
  · exact contains_run_iff width height operations
  · rintro before guide after rfl
    exact evaluateGuide_run width height before after guide
  · intro guide error he
    have hfind := scope.find?_define_error he
    refine ⟨?_, ?_⟩
    · rw [perform, ← define, get, hfind, Option.getD_some]
    · rw [perform, ← define, contains, Table.contains, hfind, Option.isSome_some]
  · intro operation name hn
    have hfind := scope.find?_perform hn
    refine ⟨?_, ?_⟩
    · rw [get, get, hfind]
    · rw [contains, contains, Table.contains, Table.contains, hfind]

end Scope

end ShapeGeometry
