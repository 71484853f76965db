import ShapeGeometry.Plane
import ShapeGeometry.Proofs.Binary64.Quotient

namespace ShapeGeometry.Binary64

open Float.Model UnpackedFloat

/-- The sign of a number, which zeros and infinities have too. -/
def sign? : UnpackedFloat → Option Sign
  | .notANumber => none
  | .infinity sign => some sign
  | .zero sign => some sign
  | .finite sign _ _ _ => some sign

theorem unpackSign_packComponents {spec : Format} {sign : Sign} {exponent mantissa} :
    Sign.ofBitVec (unpackSign (packComponents spec sign exponent mantissa)) = sign := by
  have hsign : unpackSign (packComponents spec sign exponent mantissa) = sign.toBitVec := by
    ext i hi
    have hfirst : i = 0 := by omega
    subst hfirst
    simp [unpackSign, packComponents, BitVec.getLsbD_append, BitVec.getElem_append]
  rw [hsign]
  cases sign with
  | negative => rfl
  | positive => rfl

theorem unpackSign_pack {f : UnpackedFloat} {sign : Sign} (h : sign? f = some sign) :
    Sign.ofBitVec (@unpackSign .binary64 (UnpackedFloat.pack .binary64 f)) = sign := by
  cases f with
  | notANumber => cases h
  | infinity _ => cases h; exact unpackSign_packComponents
  | zero _ => cases h; exact unpackSign_packComponents
  | finite _ mantissa exponent hm =>
    cases h
    unfold UnpackedFloat.pack
    dsimp only
    split
    · exact unpackSign_packComponents
    · split
      · exact unpackSign_packComponents
      · exact unpackSign_packComponents

theorem sign?_unpack {bits : BitVec 64} (h : (UnpackedFloat.unpack .binary64 bits).isNaN = false) :
    sign? (UnpackedFloat.unpack .binary64 bits) = some (Sign.ofBitVec (@unpackSign .binary64 bits)) := by
  unfold UnpackedFloat.unpack at h ⊢
  dsimp only at h ⊢
  split
  · split
    · rfl
    · next hone hm =>
      rw [if_pos hone, if_neg hm] at h
      cases h
  · split
    · split
      · rfl
      · rfl
    · rfl

theorem isNaN_of_sign? {f : UnpackedFloat} {sign : Sign} (h : sign? f = some sign) : f.isNaN = false := by
  cases f with
  | notANumber => cases h
  | _ => rfl

theorem sign?_unpack_pack {f : UnpackedFloat} {sign : Sign} (h : sign? f = some sign) :
    sign? (UnpackedFloat.unpack .binary64 (UnpackedFloat.pack .binary64 f)) = some sign := by
  rw [sign?_unpack (isNaN_unpack_pack (isNaN_of_sign? h)), unpackSign_pack h]

theorem unpack_pack_notANumber :
    UnpackedFloat.unpack .binary64 (UnpackedFloat.pack .binary64 .notANumber) = .notANumber :=
  rfl

theorem unpack_pack_zero (sign : Sign) :
    UnpackedFloat.unpack .binary64 (UnpackedFloat.pack .binary64 (.zero sign)) = .zero sign := by
  cases sign with
  | negative => rfl
  | positive => rfl

theorem sign?_roundWithAccuracy (sign : Sign) (mantissa : Nat) (exponent : Int) (accuracy : Accuracy) :
    sign? (roundWithAccuracy .binary64 sign mantissa exponent accuracy) = some sign := by
  unfold roundWithAccuracy
  dsimp only
  split
  · rfl
  · rfl

theorem sign?_mul_finite {f : UnpackedFloat} {sign sign' : Sign} (h : sign? f = some sign) (mantissa : Nat)
    (exponent : Int) (hm : 0 < mantissa) :
    sign? (UnpackedFloat.mul .binary64 f (.finite sign' mantissa exponent hm)) = some (sign * sign') := by
  cases f with
  | notANumber => cases h
  | infinity _ => cases h; rfl
  | zero _ => cases h; rfl
  | finite _ _ _ _ => cases h; exact sign?_roundWithAccuracy _ _ _ _

theorem lt_zero_iff {x : Float} {sign : Sign} (h : sign? x.toModel.unpack = some sign)
    (hzero : ∀ s, x.toModel.unpack ≠ .zero s) : x < 0 ↔ sign = .negative := by
  have hlt : x < 0 ↔ x.toModel.unpack.lt (.zero .positive) = true := decide_eq_true_iff
  rw [hlt]
  generalize x.toModel.unpack = f at h hzero ⊢
  cases f with
  | notANumber => cases h
  | zero s => exact absurd rfl (hzero s)
  | infinity s =>
    cases h
    cases sign with
    | negative => exact iff_of_true rfl rfl
    | positive => exact iff_of_false Bool.false_ne_true nofun
  | finite s mantissa exponent hm =>
    cases h
    cases sign with
    | negative => exact iff_of_true rfl rfl
    | positive => exact iff_of_false Bool.false_ne_true nofun

theorem not_lt_of_notANumber {x y : Float} (h : x.toModel.unpack = .notANumber) : ¬ x < y := by
  have hlt : x < y ↔ x.toModel.unpack.lt y.toModel.unpack = true := decide_eq_true_iff
  rw [hlt, h]
  exact Bool.false_ne_true

/-- A product with a positive factor has the sign of the other one, unless it is zero. -/
theorem mul_lt_zero_iff {x factor : Float} {mantissa : Nat} {exponent : Int} {hm : 0 < mantissa}
    (hf : factor.toModel.unpack = .finite .positive mantissa exponent hm)
    (hzero : ∀ s, (x * factor).toModel.unpack ≠ .zero s) : x * factor < 0 ↔ x < 0 := by
  have hproduct : (x * factor).toModel.unpack
      = UnpackedFloat.unpack .binary64 (UnpackedFloat.pack .binary64
          (UnpackedFloat.mul .binary64 x.toModel.unpack (.finite .positive mantissa exponent hm))) := by
    rw [← hf]
    rfl
  cases hs : sign? x.toModel.unpack with
  | none =>
    have hx : x.toModel.unpack = .notANumber := by
      cases hx : x.toModel.unpack with
      | notANumber => rfl
      | _ =>
        rw [hx] at hs
        cases hs
    have hnone : (x * factor).toModel.unpack = .notANumber := by
      have hmul : UnpackedFloat.mul .binary64 .notANumber (.finite .positive mantissa exponent hm)
          = .notANumber := rfl
      rw [hproduct, hx, hmul, unpack_pack_notANumber]
    exact iff_of_false (not_lt_of_notANumber hnone) (not_lt_of_notANumber hx)
  | some sign =>
    have hsign : sign? (x * factor).toModel.unpack = some (sign * .positive) := by
      rw [hproduct]
      exact sign?_unpack_pack (sign?_mul_finite hs mantissa exponent hm)
    have hx (s : Sign) : x.toModel.unpack ≠ .zero s := by
      intro hx
      have hmul : UnpackedFloat.mul .binary64 (.zero s) (.finite .positive mantissa exponent hm)
          = .zero (s * .positive) := rfl
      apply hzero (s * .positive)
      rw [hproduct, hx, hmul, unpack_pack_zero]
    rw [lt_zero_iff hsign hzero, lt_zero_iff hs hx]
    cases sign with
    | negative => exact Iff.rfl
    | positive => exact Iff.rfl

theorem abs_eq_zero {x : Float} {sign : Sign} (h : x.toModel.unpack = .zero sign) : x.abs = 0 := by
  have habs : x.abs = Float.ofModel (Float.Model.pack x.toModel.unpack.abs) := rfl
  rw [habs, h]
  rfl

/-- An angle that does not come to nothing in radians is negative there just when it is in degrees. -/
theorem degreesToRadians_lt_zero_iff {angle : Float}
    (h : ¬ Scalar.abs (Angle.degreesToRadians angle) < (1e-10 : Float)) :
    Angle.degreesToRadians angle < 0 ↔ angle < 0 := by
  have hdegree : (Scalar.pi / 180 : Float).toModel.unpack = .finite .positive 5030569068109113 (-58) (by decide) :=
    rfl
  have hpos : (0 : Float) < 1e-10 := by decide +kernel
  apply mul_lt_zero_iff hdegree
  intro sign hzero
  apply h
  have habs : Scalar.abs (Angle.degreesToRadians angle) = 0 := abs_eq_zero hzero
  rw [habs]
  exact hpos

end ShapeGeometry.Binary64
