import ShapeGeometry.Decimal.Numeral

/-!
The numbers that guides and outlines are computed with. Everything between the reading of a
formula and the path data is written over `Scalar`, so that one set of definitions serves both
binary64 and the real numbers.
-/

namespace ShapeGeometry

class Scalar (α : Type) extends
    Add α, Sub α, Mul α, Div α, Neg α, BEq α, LT α, LE α, NatCast α, OfScientific α where
  decidableLT : DecidableLT α
  decidableLE : DecidableLE α
  isNaN : α → Bool
  abs : α → α
  sqrt : α → α
  sin : α → α
  cos : α → α
  tan : α → α
  /-- The angle of the point `(x, y)`, in radians. -/
  atan2 (y x : α) : α
  /-- What is left of the dividend after division with a quotient cut toward zero. -/
  remainder (dividend divisor : α) : α
  pi : α
  /-- The scalar nearest to a numeral, unless the numeral is out of range. -/
  ofNumeral? : Numeral → Option α

namespace Scalar

variable {α : Type} [Scalar α]

instance : DecidableLT α :=
  Scalar.decidableLT

instance : DecidableLE α :=
  Scalar.decidableLE

instance (priority := low) (n : Nat) : OfNat α n :=
  ⟨(n : α)⟩

def tau : α :=
  2 * pi

/-- The smaller of two scalars; one that is not a number gives way to the other. -/
protected def min (x y : α) : α :=
  if isNaN x then y else if isNaN y then x else if x < y then x else y

/-- The larger of two scalars; one that is not a number gives way to the other. -/
protected def max (x y : α) : α :=
  if isNaN x then y else if isNaN y then x else if y < x then x else y

/-- The remainder that is never negative. -/
def euclideanRemainder (dividend divisor : α) : α :=
  let r := remainder dividend divisor
  if r < 0 then r + abs divisor else r

end Scalar

end ShapeGeometry
