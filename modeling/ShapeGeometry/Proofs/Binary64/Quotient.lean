import ShapeGeometry.Binary64
import ShapeGeometry.Proofs.Binary64.Bits

namespace ShapeGeometry.Binary64

open Float.Model UnpackedFloat

/-- Only a full exponent field over a fraction other than zero is read as no number. -/
theorem isNaN_unpack {bits : BitVec 64}
    (h : @unpackExponent .binary64 bits = -1#11 → @unpackMantissa .binary64 bits = 0#52) :
    (UnpackedFloat.unpack .binary64 bits).isNaN = false := by
  unfold UnpackedFloat.unpack
  dsimp only
  split
  · next hone =>
    rw [if_pos (h hone)]
    rfl
  · split
    · split
      · rfl
      · rfl
    · rfl

/-- Packing makes no number into something else. -/
theorem isNaN_unpack_pack {f : UnpackedFloat} (h : f.isNaN = false) :
    (UnpackedFloat.unpack .binary64 (UnpackedFloat.pack .binary64 f)).isNaN = false := by
  apply isNaN_unpack
  intro hone
  cases f with
  | notANumber => cases h
  | infinity sign => exact unpackMantissa_packComponents
  | zero sign => exact unpackMantissa_packComponents
  | finite sign mantissa exponent hm =>
    unfold UnpackedFloat.pack at hone ⊢
    dsimp only at hone ⊢
    split at hone
    · next hover =>
      -- beyond the largest number there is infinity
      rw [if_pos hover]
      exact unpackMantissa_packComponents
    · next hover =>
      exfalso
      split at hone
      · rw [unpackExponent_packComponents] at hone
        have hfull := congrArg BitVec.toNat hone
        rw [BitVec.toNat_ofNat] at hfull
        change _ = 2047 at hfull
        omega
      · rw [unpackExponent_packComponents] at hone
        exact absurd hone (by decide)

theorem isNaN_roundWithAccuracy (sign : Sign) (mantissa : Nat) (exponent : Int) (accuracy : Accuracy) :
    (roundWithAccuracy .binary64 sign mantissa exponent accuracy).isNaN = false := by
  unfold roundWithAccuracy
  dsimp only
  split
  · rfl
  · rfl

theorem isNaN_div_unpacked {f g : UnpackedFloat} (hf : f.isNaN = false) (hg : g.isFinite = true)
    (hzero : ∀ sign, g ≠ .zero sign) : (UnpackedFloat.div .binary64 f g).isNaN = false := by
  cases g with
  | notANumber => cases hg
  | infinity sign => cases hg
  | zero sign => exact absurd rfl (hzero sign)
  | finite sign mantissa exponent hm =>
    cases f with
    | notANumber => cases hf
    | infinity sign' => rfl
    | zero sign' => rfl
    | finite sign' mantissa' exponent' hm' => exact isNaN_roundWithAccuracy _ _ _ _

/-- A zero is equal to zero, whatever its sign. -/
theorem ne_zero_of_beq {x : Float} (h : (x == 0) = false) (sign : Sign) :
    x.toModel.unpack ≠ .zero sign := by
  intro hx
  have hbeq : (x == 0) = x.toModel.unpack.beq (0 : Float).toModel.unpack := rfl
  have hzero : (0 : Float).toModel.unpack = .zero .positive := rfl
  rw [hbeq, hx, hzero] at h
  cases sign with
  | negative => exact absurd h (by decide)
  | positive => exact absurd h (by decide)

theorem isNaN_div {x divisor : Float} (hx : x.isNaN = false) (hd : divisor.isFinite = true)
    (hzero : (divisor == 0) = false) : (x / divisor).isNaN = false :=
  isNaN_unpack_pack (isNaN_div_unpacked hx hd (ne_zero_of_beq hzero))

theorem isNaN_ite {x y : Float} (hx : x.isNaN = false) (hy : y.isNaN = false) (choice : Prop)
    [Decidable choice] : (if choice then x else y).isNaN = false := by
  split
  · exact hx
  · exact hy

theorem isNaN_min {x y : Float} (hx : x.isNaN = false) (hy : y.isNaN = false) :
    (Scalar.min x y).isNaN = false :=
  isNaN_ite hy (isNaN_ite hx (isNaN_ite hx hy _) _) _

theorem isNaN_max {x y : Float} (hx : x.isNaN = false) (hy : y.isNaN = false) :
    (Scalar.max x y).isNaN = false :=
  isNaN_ite hy (isNaN_ite hx (isNaN_ite hx hy _) _) _

end ShapeGeometry.Binary64
