import Mathlib
import ShapeGeometry.Binary64

namespace ShapeGeometry.Binary64

open Float.Model UnpackedFloat

theorem unpackExponent_toNat (bits : BitVec 64) :
    (@unpackExponent .binary64 bits).toNat = bits.toNat / 2 ^ 52 % 2 ^ 11 := by
  simp [unpackExponent, Nat.shiftRight_eq_div_pow]

/-- Bits whose exponent field is not full are valid. -/
theorem valid_of_exponent {bits : BitVec 64} (h : bits.toNat / 2 ^ 52 % 2 ^ 11 ≠ 2047) :
    Format.binary64.Valid bits := by
  refine ⟨fun hone => ?_⟩
  have hexp := unpackExponent_toNat bits
  rw [hone] at hexp
  exact absurd hexp.symm h

theorem toBits_ofBits {bits : UInt64} (h : bits.toNat / 2 ^ 52 % 2 ^ 11 ≠ 2047) :
    (Float.ofBits bits).toBits = bits :=
  congrArg UInt64.ofBitVec (pack_unpack_of_valid (valid_of_exponent h))

theorem isFinite_iff {x : Float} :
    x.isFinite = true ↔ x.toBits.toNat / 2 ^ 52 % 2 ^ 11 ≠ 2047 := by
  have hexp := unpackExponent_toNat x.toBits.toBitVec
  rw [UInt64.toNat_toBitVec] at hexp
  have hfull : @unpackExponent .binary64 x.toBits.toBitVec = -1#11
      ↔ x.toBits.toNat / 2 ^ 52 % 2 ^ 11 = 2047 := by
    rw [← hexp]
    exact BitVec.toNat_inj.symm
  rw [ne_eq, ← hfull]
  change (UnpackedFloat.unpack .binary64 x.toBits.toBitVec).isFinite = true ↔ _
  simp only [UnpackedFloat.unpack]
  split
  · next hone =>
    split
    · exact iff_of_false Bool.false_ne_true fun h => h hone
    · exact iff_of_false Bool.false_ne_true fun h => h hone
  · next hone =>
    split
    · split
      · exact iff_of_true rfl hone
      · exact iff_of_true rfl hone
    · exact iff_of_true rfl hone

/-- The bits of the magnitude, when the exponent counts from that of the subnormal numbers. -/
def Fields.magnitude (v : Fields) : Nat :=
  (v.exponent - minExponent).toNat <<< 52 + v.significand

/-- The significand has 53 bits, or fewer at the exponent of the subnormal numbers. -/
structure Fields.Canonical (v : Fields) : Prop where
  significand_lt : v.significand < 2 ^ 53
  le_exponent : minExponent ≤ v.exponent
  exponent_le : v.exponent ≤ 971
  normal : 2 ^ 52 ≤ v.significand ∨ v.exponent = minExponent

theorem Fields.Canonical.magnitude_lt {v : Fields} (h : v.Canonical) :
    v.magnitude < infinityBits := by
  obtain ⟨hs, hl, he, -⟩ := h
  simp only [magnitude, minExponent, infinityBits] at *
  omega

theorem fields?_eq (x : Float) :
    fields? x =
      let bits := x.toBits.toNat
      if bits / 2 ^ 52 % 2 ^ 11 = 2047 then none
      else if bits / 2 ^ 52 % 2 ^ 11 = 0 then
        some ⟨decide (2 ^ 63 ≤ bits), bits % 2 ^ 52, -1074⟩
      else
        some ⟨decide (2 ^ 63 ≤ bits), 2 ^ 52 + bits % 2 ^ 52,
          ((bits / 2 ^ 52 % 2 ^ 11 : Nat) : Int) - 1075⟩ := by
  simp only [fields?, Nat.shiftRight_eq_div_pow]
  rfl

theorem fields?_isSome_iff {x : Float} : (fields? x).isSome = true ↔ x.isFinite = true := by
  rw [isFinite_iff, fields?_eq]
  dsimp only
  split
  · next h => exact iff_of_false Bool.false_ne_true fun hn => hn h
  · next h =>
    split
    · exact iff_of_true rfl h
    · exact iff_of_true rfl h

theorem isNaN_of_isFinite {x : Float} (h : x.isFinite = true) : x.isNaN = false := by
  rw [Float.isFinite, Float.Model.isFinite] at h
  rw [Float.isNaN, Float.Model.isNaN]
  cases hu : x.toModel.unpack with
  | notANumber =>
    rw [hu] at h
    cases h
  | infinity sign => rfl
  | zero sign => rfl
  | finite sign mantissa exponent hm => rfl

theorem eq_ofMagnitudeBits {x : Float} {negative : Bool} {bits : Nat}
    (h : x.toBits.toNat = (if negative then 2 ^ 63 else 0) + bits) :
    x = ofMagnitudeBits negative bits := by
  have hpow : 1 <<< 63 = 2 ^ 63 := rfl
  rw [ofMagnitudeBits, hpow, ← h, UInt64.ofNat_toNat, Float.ofBits_toBits]

/-- The sign bit stands above the bits of the magnitude. -/
theorem sign_bit {bits : Nat} (h : bits < 2 ^ 64) :
    bits = (if decide (2 ^ 63 ≤ bits) then 2 ^ 63 else 0) + bits % 2 ^ 63 := by
  by_cases hs : 2 ^ 63 ≤ bits
  · rw [if_pos (decide_eq_true hs)]
    omega
  · rw [if_neg (by simpa using hs)]
    omega

/-- A number with an empty exponent field. -/
theorem subnormal_fields (negative : Bool) {fraction : Nat} (h : fraction < 2 ^ 52) :
    Fields.Canonical ⟨negative, fraction, minExponent⟩
      ∧ Fields.magnitude ⟨negative, fraction, minExponent⟩ = fraction := by
  refine ⟨⟨?_, Int.le_refl _, ?_, .inr rfl⟩, ?_⟩
  · exact Nat.lt_trans h (by omega)
  · rw [minExponent]
    dsimp only
    omega
  · simp [Fields.magnitude]

/-- A number whose exponent field is neither empty nor full. -/
theorem normal_fields (negative : Bool) {field fraction : Nat} (h : fraction < 2 ^ 52)
    (hl : 0 < field) (hu : field < 2047) :
    Fields.Canonical ⟨negative, 2 ^ 52 + fraction, (field : Int) - 1075⟩
      ∧ Fields.magnitude ⟨negative, 2 ^ 52 + fraction, (field : Int) - 1075⟩
        = field * 2 ^ 52 + fraction := by
  have hfield : ((field : Int) - 1075 - minExponent).toNat = field - 1 := by
    rw [minExponent]
    omega
  refine ⟨⟨?_, ?_, ?_, .inl ?_⟩, ?_⟩
  · dsimp only
    omega
  · rw [minExponent]
    dsimp only
    omega
  · dsimp only
    omega
  · exact Nat.le_add_right _ _
  · simp only [Fields.magnitude, hfield, Nat.shiftLeft_eq]
    omega

/-- The fields of a number are canonical, and the number is made of them. -/
theorem of_fields? {x : Float} {v : Fields} (h : fields? x = some v) :
    v.Canonical ∧ x = ofMagnitudeBits v.negative v.magnitude := by
  have hsign := sign_bit x.toBits.toNat_lt
  rw [fields?_eq] at h
  dsimp only at h
  have hfraction : x.toBits.toNat % 2 ^ 52 < 2 ^ 52 := Nat.mod_lt _ (by omega)
  split at h
  · cases h
  split at h
  · next hfull hzero =>
    cases h
    obtain ⟨hcanonical, hmag⟩ :=
      subnormal_fields (decide (2 ^ 63 ≤ x.toBits.toNat)) hfraction
    refine ⟨hcanonical, eq_ofMagnitudeBits (hsign.trans ?_)⟩
    rw [minExponent] at hmag
    rw [hmag]
    dsimp only
    omega
  · next hfull hzero =>
    cases h
    obtain ⟨hcanonical, hmag⟩ :=
      normal_fields (decide (2 ^ 63 ≤ x.toBits.toNat)) hfraction (Nat.pos_of_ne_zero hzero)
        (by omega)
    refine ⟨hcanonical, eq_ofMagnitudeBits (hsign.trans ?_)⟩
    rw [hmag]
    dsimp only
    omega

/-- Magnitudes below infinity are those of finite numbers. -/
theorem isFinite_ofMagnitudeBits (negative : Bool) {bits : Nat} (h : bits < infinityBits) :
    (ofMagnitudeBits negative bits).isFinite = true := by
  have hinf : infinityBits = 2047 * 2 ^ 52 := rfl
  have hpow : 1 <<< 63 = 2 ^ 63 := rfl
  have hfield : (UInt64.ofNat ((if negative then 1 <<< 63 else 0) + bits)).toNat
      / 2 ^ 52 % 2 ^ 11 ≠ 2047 := by
    rw [UInt64.toNat_ofNat', hpow]
    cases negative with
    | true =>
      rw [if_pos rfl]
      omega
    | false =>
      rw [if_neg Bool.false_ne_true]
      omega
  rw [isFinite_iff, ofMagnitudeBits, toBits_ofBits hfield]
  exact hfield

end ShapeGeometry.Binary64
