import ShapeGeometry.Proofs.Binary64.Nearest

namespace ShapeGeometry.Binary64

open Float.Model UnpackedFloat

/-- The bits of a finite number, by its sign and its magnitude. -/
theorem toBits_ofMagnitudeBits (negative : Bool) {bits : Nat} (h : bits < infinityBits) :
    (ofMagnitudeBits negative bits).toBits.toNat = (if negative then 2 ^ 63 else 0) + bits := by
  rw [infinityBits, Nat.shiftLeft_eq] at h
  have hpow : 1 <<< 63 = 2 ^ 63 := rfl
  have htoNat : (UInt64.ofNat ((if negative then 1 <<< 63 else 0) + bits)).toNat
      = (if negative then 2 ^ 63 else 0) + bits := by
    rw [UInt64.toNat_ofNat', hpow]
    apply Nat.mod_eq_of_lt
    split <;> omega
  rw [ofMagnitudeBits, toBits_ofBits, htoNat]
  rw [htoNat]
  split <;> omega

/-- The fields are read off the magnitude, and the sign bit above it. -/
theorem fields?_of_toBits {x : Float} {negative : Bool} {bits : Nat} (h : bits < infinityBits)
    (hx : x.toBits.toNat = (if negative then 2 ^ 63 else 0) + bits) :
    fields? x = some (if bits / 2 ^ 52 = 0 then ⟨negative, bits, -1074⟩
      else ⟨negative, 2 ^ 52 + bits % 2 ^ 52, (bits / 2 ^ 52 : Nat) - 1075⟩) := by
  rw [infinityBits, Nat.shiftLeft_eq] at h
  have hsign : decide (2 ^ 63 ≤ x.toBits.toNat) = negative := by
    cases negative with
    | true => exact decide_eq_true (by rw [hx, if_pos rfl]; omega)
    | false => exact decide_eq_false (by rw [hx, if_neg Bool.false_ne_true]; omega)
  have hfield : x.toBits.toNat / 2 ^ 52 % 2 ^ 11 = bits / 2 ^ 52 := by
    rw [hx]
    split <;> omega
  have hfraction : x.toBits.toNat % 2 ^ 52 = bits % 2 ^ 52 := by
    rw [hx]
    split <;> omega
  rw [fields?_eq]
  simp only [hsign, hfield, hfraction]
  rw [if_neg (by omega)]
  split
  · next hzero =>
    rw [Nat.mod_eq_of_lt (by omega)]
  · rfl

/-- Canonical fields are those of a number. -/
theorem fields?_ofMagnitudeBits {v : Fields} (h : v.Canonical) :
    fields? (ofMagnitudeBits v.negative v.magnitude) = some v := by
  rw [fields?_of_toBits h.magnitude_lt (toBits_ofMagnitudeBits v.negative h.magnitude_lt)]
  obtain ⟨negative, significand, exponent⟩ := v
  obtain ⟨hs, hmin, hmax, hnormal⟩ := h
  simp only [Fields.magnitude, minExponent, Nat.shiftLeft_eq] at *
  split
  · simp only [Option.some.injEq, Fields.mk.injEq]
    exact ⟨trivial, by omega, by omega⟩
  · simp only [Option.some.injEq, Fields.mk.injEq]
    exact ⟨trivial, by omega, by omega⟩

def Fields.sign (v : Fields) : Sign :=
  if v.negative then .negative else .positive

/-- The number taken apart, as comparison does it. -/
def Fields.unpacked (v : Fields) : UnpackedFloat :=
  if h : 0 < v.significand then .finite v.sign v.significand v.exponent h else .zero v.sign

theorem ofBitVec_unpackSign (bits : BitVec 64) :
    Sign.ofBitVec (@unpackSign .binary64 bits) = if 2 ^ 63 ≤ bits.toNat then .negative else .positive := by
  have hlt := bits.isLt
  have hsign : (@unpackSign .binary64 bits).toNat = bits.toNat / 2 ^ 63 % 2 := by
    simp [unpackSign, Nat.shiftRight_eq_div_pow]
  have hzero : @unpackSign .binary64 bits = 0#1 ↔ ¬ 2 ^ 63 ≤ bits.toNat := by
    rw [← BitVec.toNat_inj, hsign]
    change bits.toNat / 2 ^ 63 % 2 = 0 ↔ _
    omega
  rw [Sign.ofBitVec]
  by_cases h : 2 ^ 63 ≤ bits.toNat
  · rw [if_neg (mt hzero.mp (not_not.mpr h)), if_pos h]
  · rw [if_pos (hzero.mpr h), if_neg h]

theorem unpackMantissa_toNat (bits : BitVec 64) :
    (@unpackMantissa .binary64 bits).toNat = bits.toNat % 2 ^ 52 := by
  simp [unpackMantissa]

/-- A normal number has a bit in front of its fraction. -/
theorem toNat_one_append (fraction : BitVec 52) :
    (1#1 ++ fraction).toNat = 2 ^ 52 + fraction.toNat := by
  rw [BitVec.toNat_append, ← Nat.shiftLeft_add_eq_or_of_lt fraction.isLt]
  rfl

theorem unpack_of_fields? {x : Float} {v : Fields} (h : fields? x = some v) :
    x.toModel.unpack = v.unpacked := by
  have hexp := unpackExponent_toNat x.toBits.toBitVec
  have hmantissa := unpackMantissa_toNat x.toBits.toBitVec
  have hsign := ofBitVec_unpackSign x.toBits.toBitVec
  rw [UInt64.toNat_toBitVec] at hexp hmantissa hsign
  have hfull : @unpackExponent .binary64 x.toBits.toBitVec = -1#11
      ↔ x.toBits.toNat / 2 ^ 52 % 2 ^ 11 = 2047 := by
    rw [← hexp]
    exact BitVec.toNat_inj.symm
  have hnone : @unpackExponent .binary64 x.toBits.toBitVec = 0#11
      ↔ x.toBits.toNat / 2 ^ 52 % 2 ^ 11 = 0 := by
    rw [← hexp]
    exact BitVec.toNat_inj.symm
  have hempty : @unpackMantissa .binary64 x.toBits.toBitVec = 0#52
      ↔ x.toBits.toNat % 2 ^ 52 = 0 := by
    rw [← hmantissa]
    exact BitVec.toNat_inj.symm
  rw [fields?_eq] at h
  change UnpackedFloat.unpack .binary64 x.toBits.toBitVec = _
  dsimp only at h
  unfold UnpackedFloat.unpack
  dsimp only
  rw [hsign]
  split at h
  · cases h
  next hn =>
  rw [if_neg (mt hfull.mp hn)]
  split at h
  · next hz =>
    cases h
    rw [if_pos (hnone.mpr hz)]
    split
    · next he =>
      rw [Fields.unpacked, dif_neg (by dsimp only; rw [hempty.mp he]; omega)]
      simp [Fields.sign]
    · next he =>
      have hpos : 0 < x.toBits.toNat % 2 ^ 52 := Nat.pos_of_ne_zero (mt hempty.mpr he)
      rw [Fields.unpacked, dif_pos hpos]
      congr 1
      · simp [Fields.sign]
      · rw [hexp, hz]
        rfl
  · next hz =>
    cases h
    rw [if_neg (mt hnone.mp hz), Fields.unpacked, dif_pos (Nat.add_pos_left (by norm_num) _)]
    congr 1
    · simp [Fields.sign]
    · rw [toNat_one_append, hmantissa]
    · rw [hexp]
      rfl

theorem Fields.Canonical.magnitudeBits_eq {v : Fields} (h : v.Canonical) :
    magnitudeBits v.numerator v.denominator = v.magnitude := by
  rcases Nat.eq_zero_or_pos v.significand with hs | hs
  · have hexponent : v.exponent = minExponent := h.normal.resolve_left (by omega)
    simp [magnitudeBits, Fields.numerator, Fields.magnitude, hs, hexponent]
  · apply magnitudeBits_exact h hs v.denominator_pos
    rw [← v.abs_value_eq_ratio, v.abs_value]

section Order

variable {u v : Fields}

/-- Exponents are compared first, and significands where they are equal. -/
theorem compare_magnitude (hu : u.Canonical) (hv : v.Canonical) :
    compare u.magnitude v.magnitude
      = (compare u.exponent v.exponent).then (compare u.significand v.significand) := by
  obtain ⟨hsu, hminu, -, hnu⟩ := hu
  obtain ⟨hsv, hminv, -, hnv⟩ := hv
  simp only [Fields.magnitude, minExponent, Nat.shiftLeft_eq] at *
  rcases lt_trichotomy u.exponent v.exponent with h | h | h
  · rw [compare_lt_iff_lt.mpr h, Ordering.lt_then, compare_lt_iff_lt]
    omega
  · rw [compare_eq_iff_eq.mpr h, Ordering.eq_then, h]
    rcases lt_trichotomy u.significand v.significand with hs | hs | hs
    · rw [compare_lt_iff_lt.mpr hs, compare_lt_iff_lt]
      omega
    · rw [hs, compare_eq_iff_eq.mpr rfl, compare_eq_iff_eq.mpr rfl]
    · rw [compare_gt_iff_gt.mpr hs, compare_gt_iff_gt]
      omega
  · rw [compare_gt_iff_gt.mpr h, Ordering.gt_then, compare_gt_iff_gt]
    omega

theorem Fields.Canonical.abs_value_eq (hu : u.Canonical) (hv : v.Canonical)
    (h : u.magnitude = v.magnitude) : |u.value| = |v.value| := by
  have hcompare := compare_magnitude hu hv
  rw [compare_eq_iff_eq.mpr h, eq_comm, Ordering.then_eq_eq, compare_eq_iff_eq, compare_eq_iff_eq] at hcompare
  rw [abs_value, abs_value, hcompare.1, hcompare.2]

/-- Numbers of one sign are ordered like their bits. -/
theorem magnitude_le_iff (hu : u.Canonical) (hv : v.Canonical) :
    u.magnitude ≤ v.magnitude ↔ |u.value| ≤ |v.value| := by
  have hmono {u v : Fields} (hu : u.Canonical) (hv : v.Canonical) (h : |u.value| ≤ |v.value|) :
      u.magnitude ≤ v.magnitude := by
    rw [u.abs_value_eq_ratio, v.abs_value_eq_ratio] at h
    rw [← hu.magnitudeBits_eq, ← hv.magnitudeBits_eq]
    exact magnitudeBits_mono u.denominator_pos v.denominator_pos h
  refine ⟨fun h => ?_, hmono hu hv⟩
  by_contra hlt
  have heq := h.antisymm (hmono hv hu (not_le.mp hlt).le)
  exact hlt (hu.abs_value_eq hv heq).le

theorem compare_abs_value (hu : u.Canonical) (hv : v.Canonical) :
    compare |u.value| |v.value|
      = (compare u.exponent v.exponent).then (compare u.significand v.significand) := by
  rw [← compare_magnitude hu hv]
  have huv := magnitude_le_iff hu hv
  have hvu := magnitude_le_iff hv hu
  rcases lt_trichotomy |u.value| |v.value| with h | h | h
  · rw [compare_lt_iff_lt.mpr h, eq_comm, compare_lt_iff_lt, ← not_le, hvu, not_le]
    exact h
  · rw [compare_eq_iff_eq.mpr h, eq_comm, compare_eq_iff_eq]
    exact (huv.mpr h.le).antisymm (hvu.mpr h.ge)
  · rw [compare_gt_iff_gt.mpr h, eq_comm, compare_gt_iff_gt, ← not_le, huv, not_le]
    exact h

theorem compare_neg_neg (a b : Rat) : compare (-a) (-b) = (compare a b).swap := by
  rcases lt_trichotomy a b with h | rfl | h
  · rw [compare_lt_iff_lt.mpr h, compare_gt_iff_gt.mpr (neg_lt_neg h)]
    rfl
  · rw [compare_eq_iff_eq.mpr rfl, compare_eq_iff_eq.mpr rfl]
    rfl
  · rw [compare_gt_iff_gt.mpr h, compare_lt_iff_lt.mpr (neg_lt_neg h)]
    rfl

theorem significand_pos_iff {v : Fields} : 0 < v.significand ↔ 0 < |v.value| := by
  rw [v.abs_value, mul_pos_iff_of_pos_right (by positivity), Nat.cast_pos]

/-- Numbers are compared as their values are. -/
theorem compare_unpacked (hu : u.Canonical) (hv : v.Canonical) :
    u.unpacked.compare v.unpacked = some (compare u.value v.value) := by
  have hcompare := compare_abs_value hu hv
  have hzero {w : Fields} (h : ¬ 0 < w.significand) : |w.value| = 0 :=
    le_antisymm (not_lt.mp (mt significand_pos_iff.mpr h)) (abs_nonneg _)
  rw [u.value_eq, v.value_eq, Fields.unpacked, Fields.unpacked, Fields.sign, Fields.sign]
  by_cases hsu : 0 < u.significand
  · have ha := significand_pos_iff.mp hsu
    rw [dif_pos hsu]
    by_cases hsv : 0 < v.significand
    · have hb := significand_pos_iff.mp hsv
      rw [dif_pos hsv]
      generalize |u.value| = a at *
      generalize |v.value| = b at *
      cases u.negative with
      | true =>
        cases v.negative with
        | true =>
          have hswap : compare (-1 * a) (-1 * b) = (compare a b).swap := by
            rw [neg_one_mul, neg_one_mul, compare_neg_neg]
          exact congrArg some (hswap.trans (congrArg Ordering.swap hcompare)).symm
        | false => exact congrArg some (compare_lt_iff_lt.mpr (by simp; linarith)).symm
      | false =>
        cases v.negative with
        | true => exact congrArg some (compare_gt_iff_gt.mpr (by simp; linarith)).symm
        | false =>
          have hsame : compare (1 * a) (1 * b) = compare a b := by rw [one_mul, one_mul]
          exact congrArg some (hsame.trans hcompare).symm
    · rw [dif_neg hsv, hzero hsv, mul_zero]
      cases u.negative with
      | true => exact congrArg some (compare_lt_iff_lt.mpr (by simpa using ha)).symm
      | false => exact congrArg some (compare_gt_iff_gt.mpr (by simpa using ha)).symm
  · rw [dif_neg hsu, hzero hsu, mul_zero]
    by_cases hsv : 0 < v.significand
    · have hb := significand_pos_iff.mp hsv
      rw [dif_pos hsv]
      cases v.negative with
      | true => exact congrArg some (compare_gt_iff_gt.mpr (by simpa using hb)).symm
      | false => exact congrArg some (compare_lt_iff_lt.mpr (by simpa using hb)).symm
    · rw [dif_neg hsv, hzero hsv, mul_zero]
      rfl

theorem le_iff_value_le {x y : Float} (hx : fields? x = some u) (hy : fields? y = some v) :
    x ≤ y ↔ u.value ≤ v.value := by
  have hle : x ≤ y ↔ (x.toModel.unpack.compare y.toModel.unpack).any (·.isLE) = true :=
    decide_eq_true_iff
  rw [hle, unpack_of_fields? hx, unpack_of_fields? hy, compare_unpacked (of_fields? hx).1 (of_fields? hy).1,
    Option.any_some, Ordering.isLE_iff_ne_gt, compare_gt_iff_gt]
  exact not_lt

theorem lt_iff_value_lt {x y : Float} (hx : fields? x = some u) (hy : fields? y = some v) :
    x < y ↔ u.value < v.value := by
  have hlt : x < y ↔ (x.toModel.unpack.compare y.toModel.unpack == some .lt) = true :=
    decide_eq_true_iff
  rw [hlt, unpack_of_fields? hx, unpack_of_fields? hy, compare_unpacked (of_fields? hx).1 (of_fields? hy).1,
    beq_iff_eq, Option.some.injEq]
  exact compare_lt_iff_lt

/-- The number without its sign. -/
def Fields.unsigned (v : Fields) : Fields :=
  { v with negative := false }

theorem Fields.Canonical.unsigned (h : v.Canonical) : v.unsigned.Canonical := by
  obtain ⟨hs, hmin, hmax, hnormal⟩ := h
  exact ⟨hs, hmin, hmax, hnormal⟩

theorem Fields.value_unsigned (v : Fields) : v.unsigned.value = |v.value| := by
  rw [value_eq, abs_value, abs_value]
  exact one_mul _

theorem Fields.abs_unpacked (v : Fields) : v.unpacked.abs = v.unsigned.unpacked := by
  by_cases h : 0 < v.significand
  · have hunsigned : 0 < v.unsigned.significand := h
    rw [unpacked, dif_pos h, unpacked, dif_pos hunsigned]
    rfl
  · have hunsigned : ¬ 0 < v.unsigned.significand := h
    rw [unpacked, dif_neg h, unpacked, dif_neg hunsigned]
    rfl

theorem fields?_abs {x : Float} (hx : fields? x = some v) : fields? x.abs = some v.unsigned := by
  have hfields := fields?_ofMagnitudeBits (of_fields? hx).1.unsigned
  have hunpack : x.toModel.unpack.abs
      = (ofMagnitudeBits v.unsigned.negative v.unsigned.magnitude).toModel.unpack := by
    rw [unpack_of_fields? hx, unpack_of_fields? hfields, Fields.abs_unpacked]
  have habs : x.abs = ofMagnitudeBits v.unsigned.negative v.unsigned.magnitude := by
    calc x.abs = Float.ofModel (Float.Model.pack x.toModel.unpack.abs) := rfl
      _ = Float.ofBits (ofMagnitudeBits v.unsigned.negative v.unsigned.magnitude).toBits := by
        rw [hunpack]
        rfl
      _ = ofMagnitudeBits v.unsigned.negative v.unsigned.magnitude := Float.ofBits_toBits _
  rw [habs, hfields]

end Order

end ShapeGeometry.Binary64
