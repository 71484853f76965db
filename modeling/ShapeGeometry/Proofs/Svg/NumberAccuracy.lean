import ShapeGeometry.Proofs.Binary64.Reading
import ShapeGeometry.Proofs.Decimal.Places

namespace ShapeGeometry.Svg.Number

open Binary64 Decimal

/-- The text, where `exponentOf` computes the power of ten of the leading digit. -/
def charsWith (exponentOf : Float → Int) (x : Float) : List Char :=
  match fields? x with
  | none => ['0']
  | some v => if x.abs < threshold then ['0'] else charsAt (exponentOf x) v

/-- The power of ten of the leading digit, for a number that is not written as zero. It may be off by one where the
value is a power of ten up to one part in `10 ^ 14`, and from a million up any one will do that leaves no places. -/
def FollowsLogarithm (exponentOf : Float → Int) (x : Float) : Prop :=
  ∀ v, fields? x = some v → 1 / 10 ^ 9 ≤ |v.value| →
    exponentOf x = Int.log 10 |v.value|
      ∨ (∃ k, NearPower |v.value| k) ∧ |exponentOf x - Int.log 10 (|v.value|)| ≤ 1
      ∨ 10 ^ 6 ≤ |v.value| ∧ 5 ≤ exponentOf x

/-- How many places stand after the point where the leading digit has a given power of ten. -/
def placesAt (magnitude : Int) : Nat :=
  (5 - magnitude).toNat

/-- Numbers of six figures in front of the point have none after it. -/
theorem placesAt_eq_zero {magnitude : Int} (h : 5 ≤ magnitude) : placesAt magnitude = 0 := by
  rw [placesAt]
  omega

/-- The places that the exact power of ten leaves. -/
def exactPlaces (v : Fields) : Nat :=
  placesAt (Int.log 10 |v.value|)

theorem charsAt_eq (magnitude : Int) (v : Fields) :
    charsAt magnitude v
      = plainChars v.negative (roundToPlaces v (placesAt magnitude)) (placesAt magnitude) :=
  trimmedChars_eq v (placesAt magnitude)

theorem charsAt_log_eq_plainChars (v : Fields) :
    charsAt (Int.log 10 |v.value|) v
      = plainChars v.negative (roundToPlaces v (exactPlaces v)) (exactPlaces v) :=
  charsAt_eq _ v

/-- Two roundings that agree have one text. -/
theorem charsAt_congr {v : Fields} {first second : Int}
    (h : rounded v (placesAt first) = rounded v (placesAt second)) : charsAt first v = charsAt second v :=
  plainChars_congr v.negative h

def thresholdFields : Fields :=
  ⟨false, 4835703278458517, -82⟩

theorem fields?_threshold : fields? threshold = some thresholdFields := by
  decide +kernel

/-- The threshold is the number nearest to `10 ^ -9`. -/
theorem thresholdFields_isNearest : thresholdFields.IsNearest (1 / 10 ^ 9) := by
  refine ⟨(of_fields? fields?_threshold).1, by positivity, 1, 10 ^ 9, by norm_num, by norm_num, ?_⟩
  decide +kernel

/-- There is no number between the threshold and `10 ^ -9`. -/
theorem thresholdFields_le_iff {v : Fields} (hv : v.Canonical) :
    |thresholdFields.value| ≤ |v.value| ↔ 1 / 10 ^ 9 ≤ |v.value| := by
  constructor
  · intro h
    refine le_trans ?_ h
    rw [Fields.abs_value, thresholdFields]
    norm_num
  · intro h
    have hpos : 0 < |v.value| := lt_of_lt_of_le (by positivity) h
    exact thresholdFields_isNearest.mono (hv.isNearest (abs_pos.mp hpos)) h

theorem abs_lt_threshold_iff {x : Float} {v : Fields} (hx : fields? x = some v) :
    x.abs < threshold ↔ |v.value| < 1 / 10 ^ 9 := by
  have hpositive : thresholdFields.value = |thresholdFields.value| := thresholdFields.value_unsigned
  rw [lt_iff_value_lt (fields?_abs hx) fields?_threshold, v.value_unsigned, hpositive, ← not_le,
    thresholdFields_le_iff (of_fields? hx).1, not_le]

section Text

variable {x : Float} {v : Fields}

theorem charsWith_of_not_isFinite (exponentOf : Float → Int) (h : x.isFinite = false) :
    charsWith exponentOf x = ['0'] := by
  have hnone : fields? x = none := by
    rw [← Option.not_isSome_iff_eq_none, fields?_isSome_iff, h]
    exact Bool.false_ne_true
  rw [charsWith, hnone]

theorem charsWith_of_lt (exponentOf : Float → Int) (hx : fields? x = some v) (h : |v.value| < 1 / 10 ^ 9) :
    charsWith exponentOf x = ['0'] := by
  simp only [charsWith, hx, if_pos ((abs_lt_threshold_iff hx).mpr h)]

theorem charsWith_of_le (exponentOf : Float → Int) (hx : fields? x = some v) (h : 1 / 10 ^ 9 ≤ |v.value|) :
    charsWith exponentOf x = charsAt (exponentOf x) v := by
  simp only [charsWith, hx, if_neg (mt (abs_lt_threshold_iff hx).mp (not_lt.mpr h))]

theorem value_pos_of_le (h : 1 / 10 ^ 9 ≤ |v.value|) : 0 < |v.value| :=
  lt_of_lt_of_le (by positivity) h

/-- The exact power of ten. -/
def leadingExponentOf (x : Float) : Int :=
  match fields? x with
  | none => 0
  | some v => leadingExponent v.numerator v.denominator

theorem leadingExponentOf_eq (hx : fields? x = some v) (hv : v.value ≠ 0) :
    leadingExponentOf x = Int.log 10 |v.value| := by
  simp only [leadingExponentOf, hx]
  rw [leadingExponent_eq (Fields.numerator_pos_iff.mpr hv) v.denominator_pos, v.abs_value_eq_ratio]

theorem followsLogarithm_leadingExponentOf (x : Float) : FollowsLogarithm leadingExponentOf x :=
  fun _ hx hv => .inl (leadingExponentOf_eq hx (abs_pos.mp (value_pos_of_le hv)))

theorem chars_eq_charsWith (x : Float) : chars x = charsWith leadingExponentOf x := by
  rw [chars, charsWith]
  cases hx : fields? x with
  | none => rfl
  | some v => simp only [leadingExponentOf, hx]

variable {exponentOf : Float → Int}

/-- Where no places are left, it makes no difference how many figures there are. -/
theorem charsAt_of_le {first second : Int} (hfirst : 5 ≤ first) (hsecond : 5 ≤ second) :
    charsAt first v = charsAt second v := by
  apply charsAt_congr
  rw [placesAt_eq_zero hfirst, placesAt_eq_zero hsecond]

/-- The places that an exponent of one too many or too few gives are enough next to a power of ten. -/
theorem charsAt_of_near {k magnitude : Int} (hnear : NearPower |v.value| k)
    (hone : |magnitude - Int.log 10 (|v.value|)| ≤ 1) :
    charsAt magnitude v = charsAt (Int.log 10 |v.value|) v := by
  rw [abs_le] at hone
  have hlog : k - 1 ≤ Int.log 10 |v.value| ∧ Int.log 10 |v.value| ≤ k := by
    rcases hnear.log with hlog | hlog <;> omega
  rcases le_or_gt k 6 with hk | hk
  · have hpower {magnitude : Int} (hlow : k - 2 ≤ magnitude) (hhigh : magnitude ≤ k + 1) :
        rounded v (placesAt magnitude) = 10 ^ k := by
      apply rounded_eq_of_near hnear
      · rw [placesAt]
        omega
      · rw [placesAt]
        omega
    apply charsAt_congr
    rw [hpower (by omega) (by omega), hpower (by omega) (by omega)]
  · exact charsAt_of_le (by omega) (by omega)

theorem le_log_of_pow_le {k : Int} (h : 10 ^ k ≤ |v.value|) : k ≤ Int.log 10 |v.value| := by
  have hpos : 0 < |v.value| := lt_of_lt_of_le (by positivity) h
  rw [← Int.zpow_le_iff_le_log (by norm_num) hpos]
  exact_mod_cast h

theorem FollowsLogarithm.charsAt_eq (h : FollowsLogarithm exponentOf x) (hx : fields? x = some v)
    (hv : 1 / 10 ^ 9 ≤ |v.value|) :
    charsAt (exponentOf x) v = charsAt (Int.log 10 |v.value|) v := by
  rcases h v hx hv with hexact | ⟨⟨k, hnear⟩, hone⟩ | ⟨hlarge, hnone⟩
  · rw [hexact]
  · exact charsAt_of_near hnear hone
  · have hlog : 6 ≤ Int.log 10 |v.value| := le_log_of_pow_le (by exact_mod_cast hlarge)
    exact charsAt_of_le hnone (by omega)

/-- However the logarithm is computed, the text is the same. -/
theorem FollowsLogarithm.charsWith_eq (h : FollowsLogarithm exponentOf x) :
    charsWith exponentOf x = chars x := by
  rw [chars_eq_charsWith]
  cases hx : fields? x with
  | none => simp only [charsWith, hx]
  | some v =>
    rcases lt_or_ge |v.value| (1 / 10 ^ 9) with hv | hv
    · rw [charsWith_of_lt _ hx hv, charsWith_of_lt _ hx hv]
    · rw [charsWith_of_le _ hx hv, charsWith_of_le _ hx hv, h.charsAt_eq hx hv,
        (followsLogarithm_leadingExponentOf x).charsAt_eq hx hv]

end Text

/-- A text is the decimal `n`, which is the value rounded to some places: six significant figures, or all those of
the integer part. -/
structure SixFigures (v : Fields) (places : Nat) (text : List Char) (n : Numeral) : Prop where
  read : Numeral.ofChars? text = some n
  multiple : ∃ units : Int, n.value = units / 10 ^ places
  nearest : |n.value - v.value| ≤ 1 / 10 ^ places / 2
  accurate : |n.value - v.value| ≤ 5 / 10 ^ 6 * |v.value|
  sameSign : 0 < n.value * v.value
  /-- The integer part stands in full, and alone where it has six figures. -/
  whole : ∃ fraction, text = signed v.negative (pointed (digits ⌊|n.value|⌋₊, fraction))
    ∧ (10 ^ 5 ≤ |v.value| → fraction = [])

section Accuracy

variable {v : Fields}

/-- The text is the rounded magnitude with the sign of the value. -/
theorem exists_numeral (v : Fields) (magnitude : Int) :
    ∃ n, Numeral.ofChars? (charsAt magnitude v) = some n
      ∧ n.value = (if v.negative then -1 else 1) * rounded v (placesAt magnitude) := by
  obtain ⟨n, hn, hnegative, hmagnitude, -⟩ :=
    ofChars?_plainChars v.negative (roundToPlaces v (placesAt magnitude)) (placesAt magnitude)
  exact ⟨n, hn, value_of_plain hnegative hmagnitude⟩

theorem exists_numeral_log (v : Fields) :
    ∃ n, Numeral.ofChars? (charsAt (Int.log 10 |v.value|) v) = some n
      ∧ n.value = (if v.negative then -1 else 1) * rounded v (exactPlaces v) :=
  exists_numeral v _

theorem abs_sign_mul (negative : Bool) (value : Rat) : |(if negative then -1 else 1) * value| = |value| := by
  cases negative <;> simp

theorem abs_sign_mul_sub (v : Fields) (value : Rat) :
    |(if v.negative then -1 else 1) * value - v.value| = |(value - |v.value|)| := by
  rw [v.value_eq, ← mul_sub, abs_sign_mul, ← v.value_eq]

/-- A magnitude with the sign of the value has the same sign as the value. -/
theorem sign_mul_mul_value (v : Fields) (value : Rat) :
    (if v.negative then -1 else 1) * value * v.value = value * |v.value| := by
  have hsign : (if v.negative then (-1 : Rat) else 1) * (if v.negative then -1 else 1) = 1 := by
    split <;> norm_num
  calc (if v.negative then -1 else 1) * value * v.value
      = (if v.negative then -1 else 1) * value * ((if v.negative then -1 else 1) * |v.value|) := by
        rw [← v.value_eq]
    _ = value * |v.value| := by rw [mul_mul_mul_comm, hsign, one_mul]

theorem pow_log_le (hv : v.value ≠ 0) : 10 ^ Int.log 10 |v.value| ≤ |v.value| := by
  exact_mod_cast Int.zpow_log_le_self (b := 10) (by norm_num) (abs_pos.mpr hv)

theorem lt_pow_log_succ (v : Fields) : |v.value| < 10 ^ (Int.log 10 (|v.value|) + 1) := by
  exact_mod_cast Int.lt_zpow_succ_log_self (b := 10) (by norm_num) |v.value|

/-- The power of ten below the value has no more places than are kept. -/
theorem pow_log_le_rounded (hv : v.value ≠ 0) :
    10 ^ Int.log 10 |v.value| ≤ rounded v (exactPlaces v) := by
  apply pow_le_rounded _ (pow_log_le hv)
  rw [exactPlaces, placesAt]
  omega

theorem rounded_pos (hv : v.value ≠ 0) : 0 < rounded v (exactPlaces v) :=
  lt_of_lt_of_le (by positivity) (pow_log_le_rounded hv)

theorem roundToPlaces_ne_zero (hv : v.value ≠ 0) : roundToPlaces v (exactPlaces v) ≠ 0 := by
  intro hzero
  have hpos := rounded_pos hv
  rw [rounded, hzero, Nat.cast_zero, zero_div] at hpos
  exact lt_irrefl _ hpos

theorem exactPlaces_eq_zero (h : 5 ≤ Int.log 10 |v.value|) : exactPlaces v = 0 :=
  placesAt_eq_zero h

/-- Half a unit of the sixth figure. -/
theorem half_unit_le (hv : v.value ≠ 0) :
    (1 : Rat) / 10 ^ exactPlaces v / 2 ≤ 5 / 10 ^ 6 * |v.value| := by
  have hten : (10 : Rat) ≠ 0 := by norm_num
  have hunit : (1 : Rat) / 10 ^ exactPlaces v ≤ 10 ^ Int.log 10 |v.value| / 10 ^ 5 := by
    rw [one_div, ← zpow_natCast, ← zpow_natCast, ← zpow_sub₀ hten, ← zpow_neg]
    apply zpow_le_zpow_right₀ (by norm_num)
    rw [exactPlaces, placesAt]
    push_cast
    omega
  have hlog := pow_log_le hv
  linarith

/-- The integer part of the text is that of the decimal. -/
theorem charsAt_log_eq (hv : v.value ≠ 0) :
    ∃ fraction, charsAt (Int.log 10 |v.value|) v
        = signed v.negative (pointed (digits ⌊rounded v (exactPlaces v)⌋₊, fraction))
      ∧ (10 ^ 5 ≤ |v.value| → fraction = []) := by
  have hunits := roundToPlaces_ne_zero hv
  have hfloor : ⌊rounded v (exactPlaces v)⌋₊
      = roundToPlaces v (exactPlaces v) / 10 ^ exactPlaces v := by
    rw [rounded, ← Nat.floor_div_eq_div (K := Rat)]
    push_cast
    rfl
  refine ⟨trimZeros (split (roundToPlaces v (exactPlaces v)) (exactPlaces v)).2, ?_, ?_⟩
  · rw [charsAt_log_eq_plainChars, plainChars, decide_eq_true hunits, Bool.and_true, hfloor]
    rfl
  · intro hlarge
    have hlog : 5 ≤ Int.log 10 |v.value| := le_log_of_pow_le (by exact_mod_cast hlarge)
    rw [exactPlaces_eq_zero hlog]
    rfl

/-- Numbers in path data have six significant figures. The text of a number from `10 ^ -9` up is the number rounded
to the places that the power of ten of its leading digit leaves, however that power is computed; all others are
written as zero. -/
theorem sixFigures_charsWith {exponentOf : Float → Int} {x : Float} (h : FollowsLogarithm exponentOf x) :
    (x.isFinite = false → charsWith exponentOf x = ['0'])
      ∧ ∀ v, fields? x = some v →
        (|v.value| < 1 / 10 ^ 9 → charsWith exponentOf x = ['0'])
          ∧ (1 / 10 ^ 9 ≤ |v.value| → charsWith exponentOf x = chars x
            ∧ ∃ n, SixFigures v (placesAt (exponentOf x)) (charsWith exponentOf x) n) := by
  refine ⟨charsWith_of_not_isFinite exponentOf, fun v hx => ⟨charsWith_of_lt exponentOf hx, fun hv => ?_⟩⟩
  have hne : v.value ≠ 0 := abs_pos.mp (value_pos_of_le hv)
  refine ⟨h.charsWith_eq, ?_⟩
  obtain ⟨n, hread, hvalue⟩ := exists_numeral v (exponentOf x)
  -- the same text, with the places that the exact power leaves
  obtain ⟨n', hread', hvalue'⟩ := exists_numeral_log v
  have htext := h.charsAt_eq hx hv
  have hsame : n = n' := by
    rw [htext, hread'] at hread
    exact (Option.some.inj hread).symm
  subst hsame
  have hpos := rounded_pos hne
  have habs : |n.value| = rounded v (exactPlaces v) := by
    rw [hvalue', abs_sign_mul, abs_of_pos hpos]
  obtain ⟨fraction, hchars, hfraction⟩ := charsAt_log_eq hne
  rw [charsWith_of_le exponentOf hx hv]
  refine ⟨n, hread, ⟨(if v.negative then -1 else 1) * roundToPlaces v (placesAt (exponentOf x)), ?_⟩,
    ?_, ?_, ?_, fraction, ?_, hfraction⟩
  · rw [hvalue, rounded]
    push_cast
    rw [mul_div_assoc]
  · rw [hvalue, abs_sign_mul_sub]
    exact abs_rounded_sub_le v _
  · rw [hvalue', abs_sign_mul_sub]
    exact (abs_rounded_sub_le v _).trans (half_unit_le hne)
  · rw [hvalue', sign_mul_mul_value]
    exact mul_pos hpos (abs_pos.mpr hne)
  · rw [htext, habs, hchars]

/-- The rounding carries into a new digit. -/
theorem sixFigures_carry :
    FollowsLogarithm leadingExponentOf 999999.7 ∧ fields? 999999.7 = some ⟨false, 8589932015019622, -33⟩
      ∧ charsWith leadingExponentOf 999999.7 = "1000000".toList
      ∧ ∃ n, SixFigures ⟨false, 8589932015019622, -33⟩ 0 "1000000".toList n := by
  have hfields : fields? 999999.7 = some ⟨false, 8589932015019622, -33⟩ := by decide +kernel
  have hplaces : placesAt (leadingExponentOf 999999.7) = 0 := by decide +kernel
  have htext : charsWith leadingExponentOf 999999.7 = "1000000".toList := by decide +kernel
  have hvalue : 1 / 10 ^ 9 ≤ |Fields.value ⟨false, 8589932015019622, -33⟩| := by
    rw [Fields.abs_value]
    norm_num
  have hfollows := followsLogarithm_leadingExponentOf 999999.7
  have hsix := ((sixFigures_charsWith hfollows).2 _ hfields).2 hvalue
  rw [hplaces, htext] at hsix
  exact ⟨hfollows, hfields, htext, hsix.2⟩

end Accuracy

end ShapeGeometry.Svg.Number
