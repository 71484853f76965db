import ShapeGeometry.Proofs.Binary64.Order
import ShapeGeometry.Proofs.Decimal.ReadBack

namespace ShapeGeometry.Binary64

/-- The magnitude is that nearest to a positive value. -/
structure Fields.IsNearest (w : Fields) (value : Rat) : Prop where
  canonical : w.Canonical
  pos : 0 < value
  magnitude : ∃ num den : Nat, 0 < den ∧ (num : Rat) / den = value ∧ w.magnitude = magnitudeBits num den

section Nearest

variable {u v w : Fields} {value : Rat}

/-- A number is nearest to its own value. -/
theorem Fields.Canonical.isNearest (hv : v.Canonical) (hne : v.value ≠ 0) : v.IsNearest |v.value| :=
  ⟨hv, abs_pos.mpr hne, v.numerator, v.denominator, v.denominator_pos, v.abs_value_eq_ratio.symm,
    hv.magnitudeBits_eq.symm⟩

/-- Larger values have larger nearest numbers. -/
theorem Fields.IsNearest.mono {value' : Rat} (hu : u.IsNearest value) (hw : w.IsNearest value')
    (h : value ≤ value') : |u.value| ≤ |w.value| := by
  obtain ⟨num, den, hd, hr, hmagnitude⟩ := hu.magnitude
  obtain ⟨num', den', hd', hr', hmagnitude'⟩ := hw.magnitude
  rw [← magnitude_le_iff hu.canonical hw.canonical, hmagnitude, hmagnitude']
  apply magnitudeBits_mono hd hd'
  rwa [hr, hr']

theorem Fields.IsNearest.abs_value_eq (h : w.IsNearest value) (hv : v.Canonical) (heq : |v.value| = value) :
    |w.value| = value := by
  have hown : v.IsNearest value := heq ▸ hv.isNearest (abs_pos.mp (heq ▸ h.pos))
  rw [← heq]
  exact (h.mono hown le_rfl).antisymm (hown.mono h le_rfl)

/-- Above the subnormal numbers the nearest number is at most one part in `2 ^ 53` away. -/
theorem Fields.IsNearest.abs_sub_le (h : w.IsNearest value) (hnormal : 2 ^ (-1022 : Int) ≤ value) :
    |(|w.value| - value)| ≤ value * 2 ^ (-53 : Int) := by
  obtain ⟨num, den, hd, hr, hmagnitude⟩ := h.magnitude
  have hn := num_pos_of_ratio h.pos hr
  have hfinite : magnitudeBits num den < infinityBits := hmagnitude ▸ h.canonical.magnitude_lt
  obtain ⟨v, hv, -, hsame, hvalue⟩ := exists_fields hn hd hfinite false
  rw [h.canonical.abs_value_eq hv (hmagnitude.trans hsame.symm), hvalue, ← hr]
  exact abs_significandOfRatio_sub_le_mul hn hd (hr ▸ hnormal)

theorem Fields.Canonical.abs_value_lt (h : v.Canonical) : |v.value| < overflowBound := by
  rcases Nat.eq_zero_or_pos v.numerator with hzero | hpos
  · rw [v.abs_value_eq_ratio, hzero, Nat.cast_zero, zero_div]
    exact overflowBound_pos
  · have hfinite := h.magnitude_lt
    rw [← h.magnitudeBits_eq, ← not_le, infinityBits_le_iff hpos v.denominator_pos, not_le] at hfinite
    rwa [v.abs_value_eq_ratio]

/-- Integers of 53 bits are numbers. -/
theorem exists_canonical_natCast {n : Nat} (hpos : 0 < n) (h : n < 2 ^ 53) :
    ∃ v : Fields, v.Canonical ∧ |v.value| = n := by
  have hlog : n.log2 < 53 := (Nat.log2_lt hpos.ne').mpr h
  obtain ⟨k, hk⟩ := Nat.exists_eq_add_of_le (Nat.le_of_lt_succ hlog)
  have hlow := Nat.mul_le_mul_right (2 ^ k) (Nat.log2_self_le hpos.ne')
  have hhigh := Nat.mul_lt_mul_of_pos_right (Nat.lt_log2_self (n := n)) (Nat.two_pow_pos k)
  have hsucc : n.log2 + 1 + k = 53 := by omega
  rw [← pow_add, ← hk] at hlow
  rw [← pow_add, hsucc] at hhigh
  refine ⟨⟨false, n * 2 ^ k, -(k : Int)⟩, ⟨hhigh, ?_, ?_, .inl hlow⟩, ?_⟩
  · rw [minExponent]
    dsimp only
    omega
  · dsimp only
    omega
  · rw [Fields.abs_value, zpow_neg, zpow_natCast]
    push_cast
    exact mul_inv_cancel_right₀ (by positivity) _

end Nearest

/-- A numeral that is in range and has few places is read as the number nearest to it. -/
theorem exists_nearest {n : Numeral} (hpos : 0 < n.magnitude) (hlow : -300 ≤ n.exponent)
    (hhigh : n.exponent ≤ 0) (hfinite : n.magnitude < overflowBound) :
    ∃ y w, ofNumeral? n = some y ∧ fields? y = some w ∧ w.negative = n.negative
      ∧ w.IsNearest n.magnitude := by
  have hden : 0 < Nat.pow 10 (-n.exponent).toNat := Nat.pow_pos (by omega)
  have hratio := n.magnitude_eq.symm
  have hnum := num_pos_of_ratio hpos hratio
  have hc : n.coefficient ≠ 0 := (Nat.pos_of_mul_pos_right hnum).ne'
  have hbits : magnitudeBits (n.coefficient * Nat.pow 10 n.exponent.toNat) (Nat.pow 10 (-n.exponent).toNat)
      < infinityBits := by
    rw [← not_le, infinityBits_le_iff hnum hden, hratio]
    exact not_le.mpr hfinite
  obtain ⟨w, hw, hnegative, hmagnitude, -⟩ := exists_fields hnum hden hbits n.negative
  refine ⟨ofMagnitudeBits w.negative w.magnitude, w, ?_, fields?_ofMagnitudeBits hw, hnegative,
    hw, hpos, _, _, hden, hratio, hmagnitude⟩
  rw [Decimal.ofNumeral?_eq_ofRatio? hc (by omega) (by omega), ofRatio?, if_pos hbits, hnegative, hmagnitude]

end ShapeGeometry.Binary64
