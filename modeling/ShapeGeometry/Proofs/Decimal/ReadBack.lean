import ShapeGeometry.Formula.Printer
import ShapeGeometry.Proofs.Binary64.Rounding
import ShapeGeometry.Proofs.Decimal.Positional

namespace ShapeGeometry.Decimal

open Binary64

theorem isFinite_of_ofNumeral? {n : Numeral} {x : Float} (h : ofNumeral? n = some x) :
    x.isFinite = true := by
  have hzero : ∀ negative, (zero negative).isFinite = true := fun negative =>
    isFinite_ofMagnitudeBits negative (Nat.succ_pos _)
  unfold ofNumeral? at h
  split at h
  · cases h
    exact hzero _
  split at h
  · cases h
  split at h
  · cases h
    exact hzero _
  · simp only [ofRatio?] at h
    split at h
    · next hlt =>
      cases h
      exact isFinite_ofMagnitudeBits _ hlt
    · cases h

/-- Away from both ends of the range a numeral is rounded as a ratio. -/
theorem ofNumeral?_eq_ofRatio? {n : Numeral} (hc : n.coefficient ≠ 0) (hu : n.exponent ≤ 308)
    (hl : 3 * -n.exponent < (n.coefficient.log2 : Int) + 1076) :
    ofNumeral? n = ofRatio? n.negative (n.coefficient * Nat.pow 10 n.exponent.toNat)
      (Nat.pow 10 (-n.exponent).toNat) := by
  rw [ofNumeral?, if_neg hc, if_neg (Int.not_lt.mpr hu), if_neg (Int.not_le.mpr hl)]

/-- A power of ten that is in range can be made part of the coefficient. -/
theorem ofNumeral?_positional {n : Numeral} {x : Float} (h : ofNumeral? n = some x) :
    ofNumeral? n.positional = some x := by
  rcases Int.le_total n.exponent 0 with he | he
  · have hsame : n.positional = n := by
      have hz : n.exponent.toNat = 0 := Int.toNat_of_nonpos he
      have hneg : -((-n.exponent).toNat : Int) = n.exponent := by omega
      rw [Numeral.positional, hz, hneg]
      simp
    rw [hsame, h]
  · have hz : (-n.exponent).toNat = 0 := by omega
    have hpositional : n.positional
        = ⟨n.negative, n.coefficient * Nat.pow 10 n.exponent.toNat, 0⟩ := by
      rw [Numeral.positional, hz]
      rfl
    rw [hpositional]
    by_cases hc : n.coefficient = 0
    · rw [ofNumeral?, if_pos hc] at h
      rw [ofNumeral?, hc, Nat.zero_mul, if_pos rfl, h]
    · have hu : n.exponent ≤ 308 := by
        apply Int.not_lt.mp
        intro hlt
        rw [ofNumeral?, if_neg hc, if_pos hlt] at h
        cases h
      have hpow : Nat.pow 10 n.exponent.toNat ≠ 0 := Nat.ne_of_gt (Nat.pow_pos (by omega))
      rw [ofNumeral?_eq_ofRatio? hc hu (by omega), hz] at h
      rw [ofNumeral?_eq_ofRatio? (Nat.mul_ne_zero hc hpow) (by dsimp only; omega)
        (by dsimp only; omega)]
      simpa using h

/-- Of two candidates one is kept only where it reads back. -/
theorem ofNumeral?_of_choice {x : Float} {near far n : Numeral}
    (h : (if ofNumeral? near = some x then some near
      else if ofNumeral? far = some x then some far else none) = some n) :
    ofNumeral? n = some x := by
  split at h
  · next hnear =>
    cases h
    exact hnear
  split at h
  · next hfar =>
    cases h
    exact hfar
  · cases h

theorem ofNumeral?_nearestOfLength? {x : Float} {v : Fields} {count : Nat} {n : Numeral}
    (h : nearestOfLength? x v count = some n) : ofNumeral? n = some x := by
  simp only [nearestOfLength?] at h
  exact ofNumeral?_of_choice h

theorem expansion_pos {v : Fields} (hs : 0 < v.significand) : 0 < (expansion v).coefficient := by
  simp only [expansion, Fields.numerator, Nat.shiftLeft_eq, Nat.pow_eq]
  positivity

/-- A power of five has at least twice as many bits as its exponent. -/
theorem log2_expansion {v : Fields} (hs : 0 < v.significand) :
    2 * (-v.exponent).toNat ≤ (expansion v).coefficient.log2 := by
  have hnumerator : 0 < v.numerator := by
    simp only [Fields.numerator, Nat.shiftLeft_eq]
    positivity
  rw [Nat.le_log2 (Nat.ne_of_gt (expansion_pos hs))]
  calc 2 ^ (2 * (-v.exponent).toNat) = (2 ^ 2) ^ (-v.exponent).toNat := pow_mul 2 2 _
    _ ≤ 5 ^ (-v.exponent).toNat := Nat.pow_le_pow_left (by omega) _
    _ ≤ v.numerator * 5 ^ (-v.exponent).toNat := Nat.le_mul_of_pos_left _ hnumerator

/-- The expansion is the exact value. -/
theorem expansion_ratio (v : Fields) :
    (((expansion v).coefficient * Nat.pow 10 (expansion v).exponent.toNat : Nat) : Rat)
        / (Nat.pow 10 (-(expansion v).exponent).toNat : Nat)
      = v.significand * 2 ^ v.exponent := by
  have hz : (min v.exponent 0).toNat = 0 := by omega
  have hk : (-min v.exponent 0).toNat = (-v.exponent).toNat := by omega
  have hten : (10 : Rat) ^ (-v.exponent).toNat
      = 2 ^ (-v.exponent).toNat * 5 ^ (-v.exponent).toNat := by
    rw [← mul_pow]
    norm_num
  have hfive : (5 : Rat) ^ (-v.exponent).toNat ≠ 0 := by positivity
  simp only [expansion, Fields.numerator, Nat.shiftLeft_eq, hz, hk, Nat.pow_eq, pow_zero, mul_one]
  push_cast
  rw [hten, zpow_toNat, mul_div_mul_right _ _ hfive, mul_div_assoc]

theorem ofNumeral?_expansion {x : Float} {v : Fields} (h : fields? x = some v)
    (hs : 0 < v.significand) : ofNumeral? (expansion v) = some x := by
  obtain ⟨hc, hx⟩ := of_fields? h
  have hlog := log2_expansion hs
  have hl := hc.le_exponent
  have hexponent : (expansion v).exponent = min v.exponent 0 := rfl
  have hden : 0 < Nat.pow 10 (-(expansion v).exponent).toNat := Nat.pow_pos (by omega)
  rw [minExponent] at hl
  rw [ofNumeral?_eq_ofRatio? (Nat.ne_of_gt (expansion_pos hs)) (by omega) (by omega), hx]
  exact ofRatio?_exact hc hs hden (expansion_ratio v)

theorem ofNumeral?_zero {x : Float} {v : Fields} (h : fields? x = some v)
    (hs : v.significand = 0) : ofNumeral? ⟨v.negative, 0, 0⟩ = some x := by
  obtain ⟨hc, hx⟩ := of_fields? h
  have hexponent : v.exponent = minExponent := by
    rcases hc.normal with hn | he
    · omega
    · exact he
  have hmagnitude : v.magnitude = 0 := by
    rw [Fields.magnitude, hs, hexponent, Int.sub_self]
    rfl
  rw [ofNumeral?, if_pos rfl, zero, hx, hmagnitude]

/-- The shortest decimal reads back, whether it is found among the short ones or is the expansion. -/
theorem ofNumeral?_shortest {x : Float} {v : Fields} (h : fields? x = some v) :
    ofNumeral? (shortest x v) = some x := by
  unfold shortest
  split
  · next hs => exact ofNumeral?_zero h hs
  · next hs =>
    cases hf : (List.range 17).findSome? fun n => nearestOfLength? x v (n + 1) with
    | none => exact ofNumeral?_expansion h (Nat.pos_of_ne_zero hs)
    | some n =>
      obtain ⟨count, -, hcount⟩ := List.exists_of_findSome?_eq_some hf
      exact ofNumeral?_nearestOfLength? hcount

/-- The text of a finite number is a numeral, and it is read as the number. -/
theorem ofChars?_chars_of_isFinite {x : Float} (h : x.isFinite = true) :
    ∃ n, Numeral.ofChars? (chars x) = some n ∧ ofNumeral? n = some x := by
  obtain ⟨v, hv⟩ := Option.isSome_iff_exists.mp (fields?_isSome_iff.mpr h)
  refine ⟨(shortest x v).positional, ?_, ofNumeral?_positional (ofNumeral?_shortest hv)⟩
  simp only [chars, hv, Numeral.ofChars?_chars]

end ShapeGeometry.Decimal
