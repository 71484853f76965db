import ShapeGeometry.Decimal.Numeral

namespace ShapeGeometry

namespace Decimal

def digits (n : Nat) : List Char :=
  Nat.toDigits 10 n

/-- The digits, with zeros in front where there are fewer than `width`. -/
def paddedDigits (width n : Nat) : List Char :=
  List.replicate (width - (digits n).length) '0' ++ digits n

/-- The digits of `n / 10 ^ places` in front of the point, and those after it. -/
def split (n places : Nat) : List Char × List Char :=
  let unit := Nat.pow 10 places
  (digits (n / unit), if places = 0 then [] else paddedDigits places (n % unit))

/-- A point stands only in front of digits. -/
def pointed : List Char × List Char → List Char
  | (whole, []) => whole
  | (whole, fraction) => whole ++ '.' :: fraction

def signed (negative : Bool) (text : List Char) : List Char :=
  if negative then '-' :: text else text

/-- The power of ten of the leading digit of a positive ratio: the `k` with
`10 ^ k ≤ num / den < 10 ^ (k + 1)`. Below one it is read off the inverse, which is rounded up. -/
def leadingExponent (num den : Nat) : Int :=
  if den ≤ num then ((digits (num / den)).length : Int) - 1
  else -((digits ((den - 1) / num)).length : Int)

end Decimal

namespace Numeral

open Decimal

/-- The numeral written out, with zeros where its digits do not reach the point. -/
def chars (n : Numeral) : List Char :=
  signed n.negative (pointed (split (n.coefficient * Nat.pow 10 n.exponent.toNat) (-n.exponent).toNat))

/-- Moves the zeros at the end of the coefficient into the power of ten. -/
def strip (n : Numeral) : Numeral :=
  if _h : n.coefficient ≠ 0 ∧ n.coefficient % 10 = 0 then
    strip ⟨n.negative, n.coefficient / 10, n.exponent + 1⟩
  else n
termination_by n.coefficient
decreasing_by omega

end Numeral

/-- The natural nearest to `num / den`, and the even one of two that are equally near. -/
def roundHalfEven (num den : Nat) : Nat :=
  let low := num / den
  let twice := 2 * (num % den)
  if twice < den then low
  else if den < twice then low + 1
  else low + low % 2

theorem roundHalfEven_one (num : Nat) : roundHalfEven num 1 = num := by
  simp [roundHalfEven, Nat.mod_one]

/-- A quotient without remainder is its own nearest natural. -/
theorem roundHalfEven_mul (n : Nat) {den : Nat} (h : 0 < den) : roundHalfEven (n * den) den = n := by
  simp [roundHalfEven, Nat.mul_div_cancel n h, h]

end ShapeGeometry
