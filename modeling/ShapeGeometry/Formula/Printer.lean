import ShapeGeometry.Binary64
import ShapeGeometry.Formula.Basic

namespace ShapeGeometry

namespace Decimal

open Binary64

/-- Of the two decimals with `count` digits that enclose `x`, the nearer one that reads back, or the
larger where both are equally near. -/
def nearestOfLength? (x : Float) (v : Fields) (count : Nat) : Option Numeral :=
  let exponent := leadingExponent v.numerator v.denominator + 1 - count
  let num := v.numerator * Nat.pow 10 (-exponent).toNat
  let den := v.denominator * Nat.pow 10 exponent.toNat
  let low := Numeral.strip ⟨v.negative, num / den, exponent⟩
  let high := Numeral.strip ⟨v.negative, num / den + 1, exponent⟩
  let (near, far) := if 2 * (num % den) < den then (low, high) else (high, low)
  if ofNumeral? near = some x then some near
  else if ofNumeral? far = some x then some far
  else none

/-- The decimal expansion with all its digits. -/
def expansion (v : Fields) : Numeral :=
  ⟨v.negative, v.numerator * Nat.pow 5 (-v.exponent).toNat, min v.exponent 0⟩

/-- The decimal with the fewest digits that reads back as `x`, whose fields are `v`. -/
def shortest (x : Float) (v : Fields) : Numeral :=
  if v.significand = 0 then ⟨v.negative, 0, 0⟩
  else ((List.range 17).findSome? fun n => nearestOfLength? x v (n + 1)).getD (expansion v)

/-- The shortest text that reads back, never with a power of ten. -/
def chars (x : Float) : List Char :=
  match fields? x with
  | some v => (shortest x v).chars
  | none => if x.isNaN then ['N', 'a', 'N'] else signed (x < 0) ['i', 'n', 'f']

def text (x : Float) : String :=
  String.ofList (chars x)

end Decimal

def Operand.text : Operand Float → String
  | literal v => Decimal.text v
  | guide name => name

def Formula.text (f : Formula Float) : String :=
  " ".intercalate (f.operator.keyword :: f.operands.map Operand.text)

end ShapeGeometry
