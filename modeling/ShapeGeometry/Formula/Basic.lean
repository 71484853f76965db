import ShapeGeometry.Plane

/-!
Guide formulas and their values. Every formula has a value: operands that are missing read as zero,
the guarded cases are zero, and a result that is not a number is replaced by zero.
-/

namespace ShapeGeometry

inductive Operator where
  | val
  | mulDiv
  | addSub
  | addDiv
  | ifElse
  | abs
  | sqrt
  | min
  | max
  /-- The length of a vector. -/
  | mod
  | pin
  | sin
  | cos
  | tan
  | arcTan2
  | cosArcTan2
  | sinArcTan2
  deriving DecidableEq, Repr

namespace Operator

def all : List Operator :=
  [val, mulDiv, addSub, addDiv, ifElse, abs, sqrt, min, max, mod, pin, sin, cos, tan, arcTan2,
   cosArcTan2, sinArcTan2]

def keyword : Operator → String
  | val => "val"
  | mulDiv => "*/"
  | addSub => "+-"
  | addDiv => "+/"
  | ifElse => "?:"
  | abs => "abs"
  | sqrt => "sqrt"
  | min => "min"
  | max => "max"
  | mod => "mod"
  | pin => "pin"
  | sin => "sin"
  | cos => "cos"
  | tan => "tan"
  | arcTan2 => "at2"
  | cosArcTan2 => "cat2"
  | sinArcTan2 => "sat2"

def ofKeyword? (word : String) : Option Operator :=
  all.find? (·.keyword = word)

theorem ofKeyword?_keyword (op : Operator) : ofKeyword? op.keyword = some op := by
  cases op <;> decide

/-- The number of operands that an operator reads. -/
def arity : Operator → Nat
  | val | abs | sqrt => 1
  | min | max | sin | cos | tan | arcTan2 => 2
  | mulDiv | addSub | addDiv | ifElse | mod | pin | cosArcTan2 | sinArcTan2 => 3

end Operator

inductive Operand (α : Type) where
  | literal (value : α)
  | guide (name : String)
  deriving DecidableEq, Repr

structure Formula (α : Type) where
  operator : Operator
  operands : List (Operand α)
  deriving DecidableEq, Repr

namespace Operand

/-- A token is a literal when all of it reads as a number that is finite, and otherwise the name of a
guide. -/
def ofToken {α : Type} [Scalar α] (token : String) : Operand α :=
  match NumberText.ofChars? token.toList with
  | some (.numeral n) =>
    match Scalar.ofNumeral? n with
    | some value => literal value
    | none => guide token
  | some (.infinity _) => guide token
  | some (.notANumber _) => guide token
  | none => guide token

/-- The value of an operand where names stand for the values of `env`. -/
def value {α : Type} (env : String → α) : Operand α → α
  | literal v => v
  | guide name => env name

end Operand

variable {α : Type} [Scalar α]

namespace Operator

/-- The operator on its operands, before a result that is not a number is replaced. -/
def apply (op : Operator) (x y z : α) : α :=
  match op with
  | val => x
  | mulDiv => if z == 0 then 0 else x * y / z
  | addSub => x + y - z
  | addDiv => if z == 0 then 0 else (x + y) / z
  | ifElse => if 0 < x then y else z
  | abs => Scalar.abs x
  | sqrt => if x < 0 then 0 else Scalar.sqrt x
  | min => Scalar.min x y
  | max => Scalar.max x y
  | mod => Scalar.sqrt (x * x + y * y + z * z)
  | pin => if y < x then x else if z < y then z else y
  | sin => x * Scalar.sin (Angle.unitsToRadians y)
  | cos => x * Scalar.cos (Angle.unitsToRadians y)
  | tan => x * Scalar.tan (Angle.unitsToRadians y)
  | arcTan2 => Angle.radiansToUnits (Scalar.atan2 y x)
  | cosArcTan2 => x * Scalar.cos (Scalar.atan2 z y)
  | sinArcTan2 => x * Scalar.sin (Scalar.atan2 z y)

end Operator

namespace Formula

/-- The value of the operand at a position, or zero where there is none. -/
def argument (f : Formula α) (env : String → α) (position : Nat) : α :=
  match f.operands[position]? with
  | some operand => operand.value env
  | none => 0

def eval (f : Formula α) (env : String → α) : α :=
  let result := f.operator.apply (f.argument env 0) (f.argument env 1) (f.argument env 2)
  if Scalar.isNaN result then 0 else result

end Formula

end ShapeGeometry
