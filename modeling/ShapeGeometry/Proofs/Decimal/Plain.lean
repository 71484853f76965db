import ShapeGeometry.Proofs.Binary64.Range
import ShapeGeometry.Proofs.Decimal.Positional
import ShapeGeometry.Svg.Number

namespace ShapeGeometry

open Numeral

/-- The language `-?D+(.D+)?`: without a plus, a power of ten, or a point at either end. -/
def Numeral.IsPlain (text : List Char) : Prop :=
  ∃ sign whole places, (sign = [] ∨ sign = ['-']) ∧ IsDigits whole ∧ AllDigits places
    ∧ text = sign ++ Decimal.pointed (whole, places)

/-- The value, with its sign. -/
def Numeral.value (n : Numeral) : Rat :=
  (if n.negative then -1 else 1) * n.magnitude

namespace Decimal

theorem mem_of_mem_trimZeros {fraction : List Char} {c : Char} (h : c ∈ trimZeros fraction) :
    c ∈ fraction := by
  have hs := (List.dropWhile_suffix (· = '0') (l := fraction.reverse)).subset
  exact List.mem_reverse.mp (hs (List.mem_reverse.mp h))

theorem isPlain_signed (negative : Bool) {whole places : List Char} (hw : IsDigits whole)
    (hp : AllDigits places) : IsPlain (signed negative (pointed (whole, places))) := by
  cases negative with
  | false => exact ⟨[], whole, places, .inl rfl, hw, hp, rfl⟩
  | true => exact ⟨['-'], whole, places, .inr rfl, hw, hp, rfl⟩

theorem isPlain_trimmedChars (v : Binary64.Fields) (places : Nat) :
    IsPlain (trimmedChars v places) := by
  rw [trimmedChars]
  apply isPlain_signed
  · exact isDigits_split _ _
  · exact fun c hc => allDigits_split _ _ c (mem_of_mem_trimZeros hc)

/-- The text of `± units / 10 ^ places`: no zeros at the end of the fraction, and no sign in front of a zero. -/
def plainChars (negative : Bool) (units places : Nat) : List Char :=
  let (whole, fraction) := split units places
  signed (negative && units ≠ 0) (pointed (whole, trimZeros fraction))

theorem trimmedChars_eq (v : Binary64.Fields) (places : Nat) :
    trimmedChars v places = plainChars v.negative (roundToPlaces v places) places :=
  rfl

theorem trimZeros_concat_zero (fraction : List Char) : trimZeros (fraction ++ ['0']) = trimZeros fraction := by
  simp [trimZeros]

/-- What is dropped are zeros. -/
theorem exists_trimZeros (fraction : List Char) :
    ∃ count, fraction = trimZeros fraction ++ List.replicate count '0' := by
  induction fraction using List.reverseRecOn with
  | nil => exact ⟨0, rfl⟩
  | append_singleton fraction c ih =>
    by_cases hc : c = '0'
    · obtain ⟨count, hcount⟩ := ih
      refine ⟨count + 1, ?_⟩
      rw [hc, trimZeros_concat_zero, List.replicate_succ', ← List.append_assoc, ← hcount]
    · refine ⟨0, ?_⟩
      simp [trimZeros, hc]

/-- The zeros that are dropped count for nothing. -/
theorem fraction?_trimmed (units places : Nat) :
    ∃ coefficient exponent, fraction? (pointed ((split units places).1, trimZeros (split units places).2))
        = some (coefficient, exponent)
      ∧ (coefficient : Rat) * 10 ^ exponent = units / 10 ^ places
      ∧ -(places : Int) ≤ exponent ∧ exponent ≤ 0 := by
  have hwhole := isDigits_split units places
  have hlength := length_split units places
  have hvalue := ofDigitChars_split_append units places
  have hall := allDigits_split units places
  obtain ⟨count, hcount⟩ := exists_trimZeros (split units places).2
  generalize (split units places).1 = whole at *
  generalize (split units places).2 = fraction at *
  generalize trimZeros fraction = trimmed at *
  subst hcount
  have htrimmed : AllDigits trimmed := fun c hc => hall c (List.mem_append_left _ hc)
  rw [List.length_append, List.length_replicate] at hlength
  rw [← List.append_assoc, Nat.ofDigitChars_append, Nat.ofDigitChars_replicate_zero] at hvalue
  refine ⟨_, _, fraction?_pointed_digits hwhole htrimmed, ?_, by omega, by omega⟩
  rw [← hvalue, ← hlength, zpow_neg, zpow_natCast, pow_add]
  push_cast
  field_simp

/-- The text reads as the decimal. -/
theorem ofChars?_plainChars (negative : Bool) (units places : Nat) :
    ∃ n, ofChars? (plainChars negative units places) = some n ∧ n.negative = (negative && units ≠ 0)
      ∧ n.magnitude = units / 10 ^ places ∧ -(places : Int) ≤ n.exponent ∧ n.exponent ≤ 0 := by
  have hfraction := isFraction_pointed (isDigits_split units places)
    fun c hc => allDigits_split units places c (mem_of_mem_trimZeros hc)
  obtain ⟨coefficient, exponent, hread, hmagnitude, hexponent⟩ := fraction?_trimmed units places
  rw [plainChars]
  cases negative && decide (units ≠ 0) with
  | true => exact ⟨_, ofChars?_append (.inr (.inr rfl)) hfraction hread, rfl, hmagnitude, hexponent⟩
  | false => exact ⟨_, ofChars?_append (.inl rfl) hfraction hread, rfl, hmagnitude, hexponent⟩

/-- A zero has the same value with a sign and without. -/
theorem value_of_plain {n : Numeral} {negative : Bool} {units places : Nat}
    (hn : n.negative = (negative && units ≠ 0)) (hm : n.magnitude = units / 10 ^ places) :
    n.value = (if negative then -1 else 1) * ((units : Rat) / 10 ^ places) := by
  rw [value, hn, hm]
  rcases Nat.eq_zero_or_pos units with rfl | hpos
  · rw [Nat.cast_zero, zero_div, mul_zero, mul_zero]
  · rw [decide_eq_true hpos.ne', Bool.and_true]

/-- A zero more, for a place more. -/
theorem paddedDigits_mul_ten {width n : Nat} (hw : 0 < width) (h : n < 10 ^ width) :
    paddedDigits (width + 1) (n * 10) = paddedDigits width n ++ ['0'] := by
  rcases Nat.eq_zero_or_pos n with rfl | hn
  · have hzero : digits 0 = ['0'] := rfl
    obtain ⟨k, rfl⟩ := Nat.exists_eq_succ_of_ne_zero hw.ne'
    rw [paddedDigits, paddedDigits, Nat.zero_mul, hzero, List.length_singleton, Nat.succ_sub_one,
      Nat.succ_sub_one, List.replicate_succ']
  · have hdigits : digits (n * 10) = digits n ++ ['0'] := by
      have happend := Nat.toDigits_append_toDigits (b := 10) (n := n) (d := 0) (by omega) hn (by omega)
      rw [Nat.add_zero, Nat.mul_comm 10] at happend
      exact happend.symm
    rw [paddedDigits, paddedDigits, hdigits, List.length_append, List.length_singleton, Nat.add_sub_add_right,
      List.append_assoc]

theorem plainChars_mul_ten (negative : Bool) (units places : Nat) :
    plainChars negative (units * 10) (places + 1) = plainChars negative units places := by
  have hwhole : units * 10 / 10 ^ (places + 1) = units / 10 ^ places := by
    rw [pow_succ, Nat.mul_div_mul_right _ _ (by omega)]
  have hfraction : units * 10 % 10 ^ (places + 1) = units % 10 ^ places * 10 := by
    rw [pow_succ, Nat.mul_mod_mul_right]
  have hzero : (units * 10 ≠ 0) = (units ≠ 0) := by simp
  have htrim : trimZeros (split (units * 10) (places + 1)).2 = trimZeros (split units places).2 := by
    simp only [split, Nat.pow_eq, hfraction, if_neg (Nat.succ_ne_zero places)]
    split
    · next h =>
      subst h
      rw [pow_zero, Nat.mod_one]
      rfl
    · next h =>
      rw [paddedDigits_mul_ten (Nat.pos_of_ne_zero h) (Nat.mod_lt _ (by positivity)), trimZeros_concat_zero]
  rw [plainChars, plainChars]
  simp only [htrim, hzero]
  rw [split, split]
  simp only [Nat.pow_eq, hwhole]

theorem plainChars_mul_pow (negative : Bool) (units places count : Nat) :
    plainChars negative (units * 10 ^ count) (places + count) = plainChars negative units places := by
  induction count with
  | zero => rw [pow_zero, Nat.mul_one, Nat.add_zero]
  | succ count ih => rw [pow_succ, ← Nat.mul_assoc, ← Nat.add_assoc, plainChars_mul_ten, ih]

/-- Equal decimals have equal texts, whatever the places they are counted in. -/
theorem plainChars_congr (negative : Bool) {units places units' places' : Nat}
    (h : (units : Rat) / 10 ^ places = units' / 10 ^ places') :
    plainChars negative units places = plainChars negative units' places' := by
  have hcross : units * 10 ^ places' = units' * 10 ^ places := by
    rw [div_eq_div_iff (by positivity) (by positivity)] at h
    exact_mod_cast h
  rw [← plainChars_mul_pow negative units places places', hcross, Nat.add_comm, plainChars_mul_pow]

end Decimal

theorem Svg.Number.isPlain_chars (x : Float) : IsPlain (chars x) := by
  have hzero : IsPlain ['0'] :=
    @Decimal.isPlain_signed false ['0'] [] (Decimal.isDigits_digits 0) allDigits_nil
  rw [chars]
  split
  · exact hzero
  split
  · exact hzero
  · exact Decimal.isPlain_trimmedChars _ _

end ShapeGeometry
