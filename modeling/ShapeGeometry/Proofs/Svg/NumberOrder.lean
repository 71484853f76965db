import ShapeGeometry.Proofs.Svg.NumberAccuracy

namespace ShapeGeometry.Svg.Number

open Binary64 Decimal

section ReadBack

variable {v w : Fields}

theorem rounded_zero (v : Fields) : rounded v 0 = roundToPlaces v 0 := by
  rw [rounded, pow_zero, div_one]

/-- A whole number is its own rounding. -/
theorem rounded_of_whole {n : Nat} (h : |v.value| = n) (places : Nat) : rounded v places = n := by
  have hunits : ((n * 10 ^ places : Nat) : Rat) / 10 ^ places = n := by
    push_cast
    exact mul_div_cancel_right₀ _ (by positivity)
  rw [rounded_eq (n := n * 10 ^ places), hunits]
  rw [hunits, h, sub_self, abs_zero]
  positivity

/-- A number that is rounded to an integer is one, or is small enough for the integer to be a number. -/
theorem rounded_zero_exact (hv : v.Canonical) (hpos : 0 < rounded v 0) :
    ∃ u : Fields, u.Canonical ∧ |u.value| = rounded v 0 := by
  rcases le_or_gt 0 v.exponent with he | he
  · obtain ⟨e, he⟩ := Int.eq_ofNat_of_zero_le he
    have hwhole : |v.value| = (v.significand * 2 ^ e : Nat) := by
      rw [v.abs_value, he, zpow_natCast]
      push_cast
      rfl
    exact ⟨v, hv, by rw [rounded_of_whole hwhole, hwhole]⟩
  · rw [rounded_zero] at hpos ⊢
    have hle : roundToPlaces v 0 ≤ 2 ^ 52 := by
      apply roundHalfEven_le_of_le v.denominator_pos
      rw [ratio_in_units, pow_zero, mul_one, v.abs_value]
      have hs : (v.significand : Rat) ≤ 2 ^ 53 := by exact_mod_cast hv.significand_lt.le
      have hhalf : (2 : Rat) ^ v.exponent ≤ 2 ^ (-1 : Int) := zpow_le_zpow_right₀ (by norm_num) (by omega)
      calc (v.significand : Rat) * 2 ^ v.exponent ≤ 2 ^ 53 * 2 ^ (-1 : Int) :=
            mul_le_mul hs hhalf (by positivity) (by positivity)
        _ = ((2 ^ 52 : Nat) : Rat) := by norm_num
    exact exists_canonical_natCast (by exact_mod_cast hpos) (by omega)

/-- What is written without places is read as it is. -/
theorem rounded_of_isNearest_whole (hv : v.Canonical) (hlog : 5 ≤ Int.log 10 |v.value|)
    (hw : w.IsNearest (rounded v (exactPlaces v))) :
    rounded w (exactPlaces w) = rounded v (exactPlaces v) := by
  rw [exactPlaces_eq_zero hlog] at hw ⊢
  obtain ⟨u, hu, hvalue⟩ := rounded_zero_exact hv hw.pos
  have hexact := hw.abs_value_eq hu hvalue
  rw [rounded_zero] at hexact ⊢
  exact rounded_of_whole hexact _

theorem rounded_log_of_near {k : Int} (h : NearPower |v.value| k) (hk : k ≤ 6) :
    rounded v (exactPlaces v) = 10 ^ k := by
  have hlog := h.log
  apply rounded_eq_of_near h
  · rw [exactPlaces, placesAt]
    omega
  · rw [exactPlaces, placesAt]
    omega

/-- There are a hundred thousand units of the last place in the power of ten of the leading digit. -/
theorem pow_log_eq_units (hlog : Int.log 10 |v.value| ≤ 5) :
    (10 : Rat) ^ Int.log 10 |v.value| = 10 ^ 5 * (1 / 10 ^ exactPlaces v) := by
  have hsum : Int.log 10 |v.value| = ((5 : Nat) : Int) - exactPlaces v := by
    rw [exactPlaces, placesAt]
    omega
  rw [hsum, zpow_sub₀ (by norm_num), zpow_natCast, zpow_natCast, mul_one_div]

/-- The rounding to six figures is a power of ten, or between two of them and at least a unit away from both. -/
theorem rounded_cases (hne : v.value ≠ 0) (hlog : Int.log 10 |v.value| ≤ 5) :
    let unit : Rat := 1 / 10 ^ exactPlaces v
    rounded v (exactPlaces v) = 10 ^ Int.log 10 |v.value|
      ∨ rounded v (exactPlaces v) = 10 ^ (Int.log 10 (|v.value|) + 1)
      ∨ 10 ^ Int.log 10 |v.value| + unit ≤ rounded v (exactPlaces v)
        ∧ rounded v (exactPlaces v) + unit ≤ 10 ^ (Int.log 10 (|v.value|) + 1) := by
  intro unit
  have hunit : 0 < unit := by positivity
  have hlow : (10 : Rat) ^ Int.log 10 |v.value| = (10 ^ 5 : Nat) * unit := by
    push_cast
    exact pow_log_eq_units hlog
  have hhigh : (10 : Rat) ^ (Int.log 10 (|v.value|) + 1) = (10 ^ 6 : Nat) * unit := by
    rw [zpow_add_one₀ (by norm_num), hlow]
    push_cast
    ring
  have hrounded : rounded v (exactPlaces v) = roundToPlaces v (exactPlaces v) * unit := by
    rw [rounded, mul_one_div]
  have hge := pow_log_le_rounded hne
  have hle : rounded v (exactPlaces v) ≤ 10 ^ (Int.log 10 (|v.value|) + 1) :=
    rounded_le_pow (by rw [exactPlaces, placesAt]; omega) (lt_pow_log_succ v).le
  rw [hrounded, hlow] at hge
  rw [hrounded, hhigh] at hle
  rw [hrounded, hlow, hhigh]
  generalize roundToPlaces v (exactPlaces v) = units at *
  have hge' : 10 ^ 5 ≤ units := by exact_mod_cast le_of_mul_le_mul_right hge hunit
  have hle' : units ≤ 10 ^ 6 := by exact_mod_cast le_of_mul_le_mul_right hle hunit
  rcases hge'.eq_or_lt with heq | hlt
  · exact .inl (by rw [heq])
  rcases hle'.eq_or_lt with heq | hlt'
  · exact .inr (.inl (by rw [heq]))
  · have hnext : ((10 ^ 5 + 1 : Nat) : Rat) * unit ≤ units * unit :=
      mul_le_mul_of_nonneg_right (by exact_mod_cast hlt) hunit.le
    have hprevious : ((units + 1 : Nat) : Rat) * unit ≤ (10 ^ 6 : Nat) * unit :=
      mul_le_mul_of_nonneg_right (by exact_mod_cast hlt') hunit.le
    push_cast at hnext hprevious ⊢
    exact .inr (.inr ⟨by linarith, by linarith⟩)

/-- One part in `2 ^ 53` is little enough next to a power of ten. -/
theorem nearPower_of_abs_sub_le {value : Rat} {k : Int} (h : |value - 10 ^ k| ≤ 10 ^ k * 2 ^ (-53 : Int)) :
    NearPower value k := by
  have hpow : (0 : Rat) < 10 ^ k := by positivity
  have hsmall : (2 : Rat) ^ (-53 : Int) ≤ 1 / 10 ^ 14 := by norm_num
  calc |value - 10 ^ k| ≤ 10 ^ k * 2 ^ (-53 : Int) := h
    _ ≤ 10 ^ k * (1 / 10 ^ 14) := mul_le_mul_of_nonneg_left hsmall hpow.le
    _ = 10 ^ k / 10 ^ 14 := mul_one_div _ _

/-- What is written with places is rounded to the same decimal after it has been read: next to a power of ten with
any places, and elsewhere with those that it had. -/
theorem rounded_of_isNearest_pointed (hne : v.value ≠ 0) (hmin : -9 ≤ Int.log 10 |v.value|)
    (hlog : Int.log 10 |v.value| ≤ 5) (hw : w.IsNearest (rounded v (exactPlaces v))) :
    rounded w (exactPlaces w) = rounded v (exactPlaces v) := by
  have hge := pow_log_le_rounded hne
  have hnormal : (2 : Rat) ^ (-1022 : Int) ≤ rounded v (exactPlaces v) := by
    calc (2 : Rat) ^ (-1022 : Int) ≤ 2 ^ (-30 : Int) := zpow_le_zpow_right₀ (by norm_num) (by norm_num)
      _ ≤ 10 ^ (-9 : Int) := by norm_num
      _ ≤ 10 ^ Int.log 10 |v.value| := zpow_le_zpow_right₀ (by norm_num) hmin
      _ ≤ rounded v (exactPlaces v) := hge
  have herror := hw.abs_sub_le hnormal
  rcases rounded_cases hne hlog with hpower | hpower | ⟨hlow, hhigh⟩
  · rw [hpower] at herror ⊢
    exact rounded_log_of_near (nearPower_of_abs_sub_le herror) (by omega)
  · rw [hpower] at herror ⊢
    exact rounded_log_of_near (nearPower_of_abs_sub_le herror) (by omega)
  · have hunits := pow_log_eq_units hlog
    have hsucc : (10 : Rat) ^ (Int.log 10 (|v.value|) + 1) = 10 ^ Int.log 10 |v.value| * 10 :=
      zpow_add_one₀ (by norm_num) _
    have hunit : (0 : Rat) < 1 / 10 ^ exactPlaces v := by positivity
    have hclose : |(|w.value| - rounded v (exactPlaces v))| < 1 / 10 ^ exactPlaces v / 2 := by
      calc |(|w.value| - rounded v (exactPlaces v))| ≤ rounded v (exactPlaces v) * 2 ^ (-53 : Int) := herror
        _ ≤ 10 ^ 6 * (1 / 10 ^ exactPlaces v) * 2 ^ (-53 : Int) :=
          mul_le_mul_of_nonneg_right (by linarith) (by positivity)
        _ < 1 / 10 ^ exactPlaces v / 2 := by linarith
    obtain ⟨hless, hmore⟩ := abs_lt.mp hclose
    have hsame : Int.log 10 |w.value| = Int.log 10 |v.value| := by
      apply log_eq (by norm_num)
      · linarith
      · rw [Nat.cast_ofNat]
        linarith
      · rw [Nat.cast_ofNat]
        linarith
    have hplaces : exactPlaces w = exactPlaces v := by rw [exactPlaces, hsame, exactPlaces]
    rw [hplaces]
    exact rounded_eq (by rwa [abs_sub_comm])

end ReadBack

section Text

variable {x y : Float} {v w : Fields}

theorem chars_of_le (hx : fields? x = some v) (hv : 1 / 10 ^ 9 ≤ |v.value|) :
    chars x = plainChars v.negative (roundToPlaces v (exactPlaces v)) (exactPlaces v) := by
  rw [chars_eq_charsWith, charsWith_of_le _ hx hv, leadingExponentOf_eq hx (abs_pos.mp (value_pos_of_le hv)),
    charsAt_log_eq_plainChars]

theorem log_ge_of_le (hv : 1 / 10 ^ 9 ≤ |v.value|) : -9 ≤ Int.log 10 |v.value| := by
  apply le_log_of_pow_le
  refine le_trans ?_ hv
  norm_num

/-- The rounding of a number that is not written as zero is in range. -/
theorem rounded_lt_overflowBound (hv : v.Canonical) (hle : 1 / 10 ^ 9 ≤ |v.value|) :
    rounded v (exactPlaces v) < overflowBound := by
  have hpos := rounded_pos (abs_pos.mp (value_pos_of_le hle))
  rcases le_or_gt 5 (Int.log 10 |v.value|) with hlog | hlog
  · rw [exactPlaces_eq_zero hlog] at hpos ⊢
    obtain ⟨u, hu, hvalue⟩ := rounded_zero_exact hv hpos
    rw [← hvalue]
    exact hu.abs_value_lt
  · have hhigh := (lt_pow_log_succ v).le.trans
      (zpow_le_zpow_right₀ (by norm_num : (1 : Rat) ≤ 10) (by omega : Int.log 10 (|v.value|) + 1 ≤ 5))
    calc rounded v (exactPlaces v) ≤ 10 ^ (5 : Int) := rounded_le_pow (by omega) hhigh
      _ < 2 ^ (20 : Int) := by norm_num
      _ ≤ 2 ^ (1023 : Int) := zpow_le_zpow_right₀ (by norm_num) (by norm_num)
      _ ≤ overflowBound := overflowBound_bounds.1

/-- The number that is read is written like the one that was. -/
theorem rounded_of_isNearest (hv : v.Canonical) (hle : 1 / 10 ^ 9 ≤ |v.value|)
    (hw : w.IsNearest (rounded v (exactPlaces v))) :
    rounded w (exactPlaces w) = rounded v (exactPlaces v) := by
  rcases le_or_gt 5 (Int.log 10 |v.value|) with hlog | hlog
  · exact rounded_of_isNearest_whole hv hlog hw
  · exact rounded_of_isNearest_pointed (abs_pos.mp (value_pos_of_le hle)) (log_ge_of_le hle) hlog.le hw

/-- A number that is not below the threshold is not read as one below it. -/
theorem le_of_isNearest (hle : 1 / 10 ^ 9 ≤ |v.value|) (hw : w.IsNearest (rounded v (exactPlaces v))) :
    1 / 10 ^ 9 ≤ |w.value| := by
  rw [← thresholdFields_le_iff hw.canonical]
  apply thresholdFields_isNearest.mono hw
  calc (1 : Rat) / 10 ^ 9 = 10 ^ (-9 : Int) := by norm_num
    _ ≤ 10 ^ Int.log 10 |v.value| := zpow_le_zpow_right₀ (by norm_num) (log_ge_of_le hle)
    _ ≤ rounded v (exactPlaces v) := pow_log_le_rounded (abs_pos.mp (value_pos_of_le hle))

/-- A number that is not written as zero is read as the number nearest to what is written, with the sign that is
written. -/
theorem exists_read (hx : fields? x = some v) (hle : 1 / 10 ^ 9 ≤ |v.value|) :
    ∃ n y w, Numeral.ofChars? (chars x) = some n ∧ ofNumeral? n = some y ∧ fields? y = some w
      ∧ w.negative = v.negative ∧ w.IsNearest (rounded v (exactPlaces v)) := by
  have hv := (of_fields? hx).1
  have hne := abs_pos.mp (value_pos_of_le hle)
  obtain ⟨n, hread, hnegative, hmagnitude, hlow, hhigh⟩ :=
    ofChars?_plainChars v.negative (roundToPlaces v (exactPlaces v)) (exactPlaces v)
  have hvalue : n.magnitude = rounded v (exactPlaces v) := hmagnitude
  have hplaces : exactPlaces v ≤ 14 := by
    have := log_ge_of_le hle
    rw [exactPlaces, placesAt]
    omega
  obtain ⟨y, w, hy, hw, hsign, hnearest⟩ := exists_nearest (hvalue ▸ rounded_pos hne) (by omega) hhigh
    (hvalue ▸ rounded_lt_overflowBound hv hle)
  rw [decide_eq_true (roundToPlaces_ne_zero hne), Bool.and_true] at hnegative
  exact ⟨n, y, w, chars_of_le hx hle ▸ hread, hy, hw, hsign.trans hnegative, hvalue ▸ hnearest⟩

theorem chars_eq_zero (h : ∀ v, fields? x = some v → |v.value| < 1 / 10 ^ 9) : chars x = ['0'] := by
  rw [chars_eq_charsWith]
  cases hx : fields? x with
  | none => simp only [charsWith, hx]
  | some v => exact charsWith_of_lt _ hx (h v hx)

/-- A text that is read and written again is the same text. -/
theorem chars_idempotent (x : Float) :
    ∃ n y, Numeral.ofChars? (chars x) = some n ∧ ofNumeral? n = some y ∧ chars y = chars x := by
  by_cases hsmall : ∀ v, fields? x = some v → |v.value| < 1 / 10 ^ 9
  · refine ⟨⟨false, 0, 0⟩, zero false, ?_, rfl, ?_⟩
    · rw [chars_eq_zero hsmall]
      rfl
    · rw [chars_eq_zero hsmall]
      decide +kernel
  · push Not at hsmall
    obtain ⟨v, hx, hle⟩ := hsmall
    obtain ⟨n, y, w, hread, hy, hw, hnegative, hnearest⟩ := exists_read hx hle
    refine ⟨n, y, hread, hy, ?_⟩
    rw [chars_of_le hx hle, chars_of_le hw (le_of_isNearest hle hnearest), hnegative]
    exact plainChars_congr _ (rounded_of_isNearest (of_fields? hx).1 hle hnearest)

end Text

section Order

variable {x y : Float} {u v : Fields}

/-- The magnitude that is written. -/
def writtenMagnitude (v : Fields) : Rat :=
  if |v.value| < 1 / 10 ^ 9 then 0 else rounded v (exactPlaces v)

/-- The value that is written. -/
def written (v : Fields) : Rat :=
  (if v.negative then -1 else 1) * writtenMagnitude v

theorem writtenMagnitude_nonneg (v : Fields) : 0 ≤ writtenMagnitude v := by
  rw [writtenMagnitude]
  split
  · exact le_rfl
  · exact rounded_nonneg v _

/-- Larger magnitudes are written as larger decimals: with the same places since rounding is monotone, and with
fewer since a power of ten is in between. -/
theorem writtenMagnitude_mono (h : |u.value| ≤ |v.value|) : writtenMagnitude u ≤ writtenMagnitude v := by
  rcases lt_or_ge |u.value| (1 / 10 ^ 9) with hu | hu
  · rw [writtenMagnitude, if_pos hu]
    exact writtenMagnitude_nonneg v
  have hv := hu.trans h
  rw [writtenMagnitude, writtenMagnitude, if_neg (not_lt.mpr hu), if_neg (not_lt.mpr hv)]
  have hlog : Int.log 10 |u.value| ≤ Int.log 10 |v.value| := Int.log_mono_right (value_pos_of_le hu) h
  by_cases hplaces : exactPlaces u = exactPlaces v
  · rw [hplaces]
    exact rounded_mono h _
  · rw [exactPlaces, exactPlaces, placesAt, placesAt] at hplaces
    calc rounded u (exactPlaces u) ≤ 10 ^ (Int.log 10 (|u.value|) + 1) :=
          rounded_le_pow (by rw [exactPlaces, placesAt]; omega) (lt_pow_log_succ u).le
      _ ≤ 10 ^ Int.log 10 |v.value| := zpow_le_zpow_right₀ (by norm_num) (by omega)
      _ ≤ rounded v (exactPlaces v) := pow_log_le_rounded (abs_pos.mp (value_pos_of_le hv))

/-- What is written is a decimal with the sign of the value. -/
theorem exists_written (hx : fields? x = some v) :
    ∃ n, Numeral.ofChars? (chars x) = some n ∧ n.value = written v := by
  rcases lt_or_ge |v.value| (1 / 10 ^ 9) with hv | hv
  · refine ⟨⟨false, 0, 0⟩, ?_, ?_⟩
    · rw [chars_eq_charsWith, charsWith_of_lt _ hx hv]
      rfl
    · rw [written, writtenMagnitude, if_pos hv, mul_zero, Numeral.value, Numeral.magnitude, Nat.cast_zero,
        zero_mul, mul_zero]
  · obtain ⟨n, hn, hvalue⟩ := exists_numeral_log v
    rw [charsAt_log_eq_plainChars, ← chars_of_le hx hv] at hn
    rw [written, writtenMagnitude, if_neg (not_lt.mpr hv)]
    exact ⟨n, hn, hvalue⟩

theorem writtenMagnitude_of_zero (h : |v.value| ≤ 0) : writtenMagnitude v = 0 :=
  if_pos (h.trans_lt (by positivity))

theorem written_mono (h : u.value ≤ v.value) : written u ≤ written v := by
  have hu := writtenMagnitude_nonneg u
  have hv := writtenMagnitude_nonneg v
  rw [u.value_eq, v.value_eq] at h
  rw [written, written]
  cases hnu : u.negative with
  | false =>
    cases hnv : v.negative with
    | false =>
      simp only [hnu, hnv, Bool.false_eq_true, ↓reduceIte, one_mul] at h ⊢
      exact writtenMagnitude_mono h
    | true =>
      -- only zeros are ordered so
      simp only [hnu, hnv, Bool.false_eq_true, ↓reduceIte, one_mul, neg_one_mul] at h ⊢
      have hua := abs_nonneg u.value
      have hva := abs_nonneg v.value
      have hzero : |u.value| ≤ 0 ∧ |v.value| ≤ 0 := ⟨by linarith, by linarith⟩
      rw [writtenMagnitude_of_zero hzero.1, writtenMagnitude_of_zero hzero.2, neg_zero]
  | true =>
    cases hnv : v.negative with
    | false =>
      simp only [hnu, hnv, Bool.false_eq_true, ↓reduceIte, one_mul, neg_one_mul] at h ⊢
      linarith
    | true =>
      simp only [hnu, hnv, ↓reduceIte, neg_one_mul] at h ⊢
      exact neg_le_neg (writtenMagnitude_mono (neg_le_neg_iff.mp h))

/-- Larger numbers have texts of larger decimals. -/
theorem chars_mono (hx : x.isFinite = true) (hy : y.isFinite = true) (h : x ≤ y) :
    ∃ m n, Numeral.ofChars? (chars x) = some m ∧ Numeral.ofChars? (chars y) = some n
      ∧ m.value ≤ n.value := by
  obtain ⟨u, hu⟩ := Option.isSome_iff_exists.mp (fields?_isSome_iff.mpr hx)
  obtain ⟨v, hv⟩ := Option.isSome_iff_exists.mp (fields?_isSome_iff.mpr hy)
  obtain ⟨m, hm, hmvalue⟩ := exists_written hu
  obtain ⟨n, hn, hnvalue⟩ := exists_written hv
  refine ⟨m, n, hm, hn, ?_⟩
  rw [hmvalue, hnvalue]
  exact written_mono ((le_iff_value_le hu hv).mp h)

/-- Numbers in path data are stable: a text that is read and written again is the same text, and larger numbers
have texts of larger decimals, however the power of ten of the leading digit is computed for the numbers that are
written. -/
theorem stable_charsWith (exponentOf : Float → Int) :
    (∀ x, FollowsLogarithm exponentOf x →
      ∃ n y, Numeral.ofChars? (charsWith exponentOf x) = some n ∧ ofNumeral? n = some y
        ∧ (FollowsLogarithm exponentOf y → charsWith exponentOf y = charsWith exponentOf x))
      ∧ ∀ x y, FollowsLogarithm exponentOf x → FollowsLogarithm exponentOf y →
        x.isFinite = true → y.isFinite = true → x ≤ y →
          ∃ m n, Numeral.ofChars? (charsWith exponentOf x) = some m
            ∧ Numeral.ofChars? (charsWith exponentOf y) = some n ∧ m.value ≤ n.value := by
  constructor
  · intro x hx
    obtain ⟨n, y, hread, hy, hsame⟩ := chars_idempotent x
    rw [hx.charsWith_eq]
    exact ⟨n, y, hread, hy, fun h => h.charsWith_eq.trans hsame⟩
  · intro x y hx hy
    rw [hx.charsWith_eq, hy.charsWith_eq]
    exact chars_mono

/-- Neighbours on both sides of a change of places. -/
theorem stable_neighbours :
    FollowsLogarithm leadingExponentOf 9.999994 ∧ FollowsLogarithm leadingExponentOf 9.999996
      ∧ Float.isFinite 9.999994 = true ∧ Float.isFinite 9.999996 = true ∧ (9.999994 : Float) ≤ 9.999996
      ∧ (∃ n y, Numeral.ofChars? (charsWith leadingExponentOf 9.999996) = some n ∧ ofNumeral? n = some y
        ∧ charsWith leadingExponentOf y = charsWith leadingExponentOf 9.999996)
      ∧ ∃ m n, Numeral.ofChars? (charsWith leadingExponentOf 9.999994) = some m
        ∧ Numeral.ofChars? (charsWith leadingExponentOf 9.999996) = some n ∧ m.value ≤ n.value := by
  obtain ⟨hidempotent, hmono⟩ := stable_charsWith leadingExponentOf
  have hfollows := followsLogarithm_leadingExponentOf
  have hfirst : Float.isFinite 9.999994 = true := by decide +kernel
  have hsecond : Float.isFinite 9.999996 = true := by decide +kernel
  have hle : (9.999994 : Float) ≤ 9.999996 := by decide +kernel
  obtain ⟨n, y, hread, hy, hsame⟩ := hidempotent 9.999996 (hfollows _)
  exact ⟨hfollows _, hfollows _, hfirst, hsecond, hle, ⟨n, y, hread, hy, hsame (hfollows y)⟩,
    hmono _ _ (hfollows _) (hfollows _) hfirst hsecond hle⟩

end Order

end ShapeGeometry.Svg.Number
