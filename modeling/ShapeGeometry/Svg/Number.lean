import ShapeGeometry.Binary64

namespace ShapeGeometry

namespace Decimal

open Binary64

/-- The magnitude in units of `10 ^ -places`, to the nearest unit and to the even one in a tie. -/
def roundToPlaces (v : Fields) (places : Nat) : Nat :=
  roundHalfEven (v.numerator * Nat.pow 10 places) v.denominator

/-- Drops the zeros at the end. -/
def trimZeros (fraction : List Char) : List Char :=
  (fraction.reverse.dropWhile (· = '0')).reverse

/-- Rounded text without zeros at the end of the fraction, and without the sign of a zero. -/
def trimmedChars (v : Fields) (places : Nat) : List Char :=
  let units := roundToPlaces v places
  let (whole, fraction) := split units places
  signed (v.negative && units ≠ 0) (pointed (whole, trimZeros fraction))

end Decimal

namespace Svg.Number

def significantFigures : Nat :=
  6

/-- The text where `magnitude` is the power of ten of the leading digit. Values of a million and
more keep all the digits of their integer part. -/
def charsAt (magnitude : Int) (v : Binary64.Fields) : List Char :=
  Decimal.trimmedChars v (significantFigures - 1 - magnitude).toNat

/-- Values nearer to zero than this are written as zero. -/
def threshold : Float :=
  1e-9

/-- A value that is not finite is written as zero too. -/
def chars (x : Float) : List Char :=
  match Binary64.fields? x with
  | none => ['0']
  | some v =>
    if x.abs < threshold then ['0']
    else charsAt (Decimal.leadingExponent v.numerator v.denominator) v

def text (x : Float) : String :=
  String.ofList (chars x)

end Svg.Number

end ShapeGeometry
