import ShapeGeometry.Formula.Parser
import ShapeGeometry.Table

/-!
The values of guides while a shape is resolved. A scope starts with the built-in guides, and each
guide that is defined is evaluated in the scope that the ones before it have left.
-/

namespace ShapeGeometry

namespace Builtin

variable {α : Type} [Scalar α]

/-- Guides for a length divided by whole numbers. -/
def fractions (length : α) (divisors : List (String × α)) : List (String × α) :=
  divisors.map fun (name, divisor) => (name, length / divisor)

def angles : List (String × α) :=
  [("cd2", 10800000), ("cd4", 5400000), ("cd8", 2700000), ("3cd4", 16200000), ("3cd8", 8100000),
   ("5cd8", 13500000), ("7cd8", 18900000)]

/-- The guides of a shape that is `width` by `height`. -/
def guides (width height : α) : List (String × α) :=
  let short := Scalar.min width height
  let long := Scalar.max width height
  [("w", width), ("h", height), ("l", 0), ("t", 0), ("r", width), ("b", height),
   ("hc", width / 2), ("vc", height / 2), ("ss", short), ("ls", long)]
  ++ angles
  ++ fractions width
    [("wd2", 2), ("wd3", 3), ("wd4", 4), ("wd5", 5), ("wd6", 6), ("wd8", 8), ("wd10", 10),
     ("wd12", 12), ("wd32", 32)]
  ++ fractions height [("hd2", 2), ("hd3", 3), ("hd4", 4), ("hd5", 5), ("hd6", 6), ("hd8", 8)]
  ++ fractions short
    [("ssd2", 2), ("ssd4", 4), ("ssd6", 6), ("ssd8", 8), ("ssd16", 16), ("ssd32", 32)]

end Builtin

/-- A named formula, as it is written. -/
structure Guide where
  name : String
  formula : String
  deriving DecidableEq, Repr

structure Scope (α : Type) where
  table : Table α

namespace Scope

variable {α : Type}

def contains (scope : Scope α) (name : String) : Bool :=
  scope.table.contains name

/-- Defines a guide, or replaces it. -/
def set (scope : Scope α) (name : String) (value : α) : Scope α :=
  ⟨scope.table.insert name value⟩

def withOverrides (scope : Scope α) (overrides : List (String × α)) : Scope α :=
  ⟨scope.table.insertAll overrides⟩

variable [Scalar α]

/-- The scope of a shape before any guide of its own is defined. -/
def ofSize (width height : α) : Scope α :=
  ⟨Table.ofList (Builtin.guides width height)⟩

/-- The value of a guide, which is zero for an unknown name. -/
def get (scope : Scope α) (name : String) : α :=
  (scope.table.find? name).getD 0

/-- The value of a reference: a literal, or the name of a guide. -/
def resolve (scope : Scope α) (reference : String) : α :=
  (Operand.ofToken (Text.trim reference)).value scope.get

/-- The value of a formula, which is zero where it cannot be read. -/
def evaluate (scope : Scope α) (formula : String) : α :=
  match Formula.parse formula with
  | .ok f => f.eval scope.get
  | .error _ => 0

/-- The value of a guide, and the scope in which it is defined. -/
def evaluateGuide (scope : Scope α) (guide : Guide) : α × Scope α :=
  let value := scope.evaluate guide.formula
  (value, scope.set guide.name value)

def define (scope : Scope α) (guide : Guide) : Scope α :=
  (scope.evaluateGuide guide).2

/-- Defines guides strictly in their order. -/
def defineAll (scope : Scope α) (guides : List Guide) : Scope α :=
  guides.foldl define scope

theorem get_set (scope : Scope α) (name other : String) (value : α) :
    (scope.set name value).get other = if other = name then value else scope.get other := by
  by_cases h : other = name <;> simp [get, set, Table.find?_insert, h]

end Scope

end ShapeGeometry
