import ShapeGeometry.Decimal.Digits
import ShapeGeometry.Scalar

/-!
Binary64 numbers as integers times powers of two: the fields of a finite number, the number
nearest to a ratio or a decimal, and the exact remainder. All this is on naturals; the other
operations of the scalar are those of the machine, each rounded once.
-/

namespace ShapeGeometry.Binary64

/-- The value `± significand · 2 ^ exponent`. -/
structure Fields where
  negative : Bool
  significand : Nat
  exponent : Int
  deriving DecidableEq, Repr

/-- The numerator of the magnitude, over `Fields.denominator`. -/
def Fields.numerator (v : Fields) : Nat :=
  v.significand <<< v.exponent.toNat

def Fields.denominator (v : Fields) : Nat :=
  1 <<< (-v.exponent).toNat

/-- The exponent of the subnormal numbers. -/
def minExponent : Int :=
  -1074

/-- The bits of infinity, which stand above those of every finite magnitude. -/
def infinityBits : Nat :=
  2047 <<< 52

/-- The fields of a finite number; infinities and not-a-number have none. -/
def fields? (x : Float) : Option Fields :=
  let bits := x.toBits.toNat
  let negative := decide (1 <<< 63 ≤ bits)
  let field := (bits >>> 52) % 2048
  let fraction := bits % (1 <<< 52)
  if field = 2047 then none
  else if field = 0 then some ⟨negative, fraction, minExponent⟩
  else some ⟨negative, (1 <<< 52) + fraction, (field : Int) - 1075⟩

def ofMagnitudeBits (negative : Bool) (bits : Nat) : Float :=
  Float.ofBits (UInt64.ofNat ((if negative then 1 <<< 63 else 0) + bits))

def zero (negative : Bool) : Float :=
  ofMagnitudeBits negative 0

/-- The exponent at which `num / den` has a significand of 53 bits, or fewer at `minExponent`. -/
def exponentOfRatio (num den : Nat) : Int :=
  let top : Int := (num.log2 : Int) - den.log2
  let reached := den <<< top.toNat ≤ num <<< (-top).toNat
  max minExponent (if reached then top - 52 else top - 53)

/-- The bits of the magnitude nearest to `num / den`, ties to even. A significand that rounds up to
`2 ^ 53` carries into the exponent field, and past the largest number into `infinityBits`. -/
def magnitudeBits (num den : Nat) : Nat :=
  if num = 0 then 0
  else
    let e := exponentOfRatio num den
    ((e - minExponent).toNat <<< 52)
      + roundHalfEven (num <<< (-e).toNat) (den <<< e.toNat)

/-- The number nearest to `± num / den`, unless that is beyond the largest one. -/
def ofRatio? (negative : Bool) (num den : Nat) : Option Float :=
  let bits := magnitudeBits num den
  if bits < infinityBits then some (ofMagnitudeBits negative bits) else none

/-- The number nearest to a decimal. Magnitudes of `10 ^ 309` and more are out of range; those below
half the smallest subnormal are zero, and a power of ten is at least three powers of two. -/
def ofNumeral? (n : Numeral) : Option Float :=
  if n.coefficient = 0 then some (zero n.negative)
  else if 308 < n.exponent then none
  else if (n.coefficient.log2 : Int) + 1076 ≤ 3 * -n.exponent then some (zero n.negative)
  else ofRatio? n.negative (n.coefficient * Nat.pow 10 n.exponent.toNat)
      (Nat.pow 10 (-n.exponent).toNat)

def nan : Float :=
  0 / 0

/-- The remainder with the sign of the dividend. It is computed on the common exponent, where it is
an integer that needs no rounding. -/
def remainder (dividend divisor : Float) : Float :=
  match fields? dividend, fields? divisor with
  | some a, some b =>
    if b.significand = 0 then nan
    else
      let e := min a.exponent b.exponent
      let left := a.significand <<< (a.exponent - e).toNat
      let right := b.significand <<< (b.exponent - e).toNat
      let rest : Fields := ⟨a.negative, left % right, e⟩
      (ofRatio? rest.negative rest.numerator rest.denominator).getD nan
  | some _, none => if divisor.isNaN then nan else dividend
  | none, _ => nan

/-- The binary64 number nearest to π. -/
def pi : Float :=
  Float.ofBits 0x400921fb54442d18

instance : Scalar Float where
  natCast := Float.ofNat
  decidableLT := inferInstance
  decidableLE := inferInstance
  isNaN := Float.isNaN
  abs := Float.abs
  sqrt := Float.sqrt
  sin := Float.sin
  cos := Float.cos
  tan := Float.tan
  atan2 := Float.atan2
  remainder := remainder
  pi := pi
  ofNumeral? := ofNumeral?

end ShapeGeometry.Binary64
