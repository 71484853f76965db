import Mathlib.Algebra.Group.Nat.Defs
import ShapeGeometry.Decimal.Digits
import ShapeGeometry.Proofs.Decimal.NumeralShape

namespace ShapeGeometry

namespace Decimal

open Numeral

theorem isDigits_digits (n : Nat) : IsDigits (digits n) := by
  refine ⟨Nat.toDigits_ne_nil, ?_⟩
  intro c hc
  exact Nat.isDigit_of_mem_toDigits (by omega) (by omega) hc

theorem allDigits_paddedDigits (width n : Nat) : AllDigits (paddedDigits width n) := by
  apply AllDigits.append
  · intro c hc
    rw [List.eq_of_mem_replicate hc]
    rfl
  · exact (isDigits_digits n).all

theorem length_paddedDigits {width n : Nat} (hw : 0 < width) (h : n < Nat.pow 10 width) :
    (paddedDigits width n).length = width := by
  have hle : (digits n).length ≤ width := (Nat.length_toDigits_le_iff (by omega) hw).mpr h
  rw [paddedDigits, List.length_append, List.length_replicate]
  omega

theorem ofDigitChars_paddedDigits (width n : Nat) :
    Nat.ofDigitChars 10 (paddedDigits width n) 0 = n := by
  rw [paddedDigits, Nat.ofDigitChars_append, Nat.ofDigitChars_replicate_zero, Nat.mul_zero]
  exact Nat.ofDigitChars_ten_toDigits

/-- Digits on both sides of a point are those of one integer. -/
theorem ofDigitChars_split {whole fraction width : Nat} (hw : 0 < width)
    (h : fraction < Nat.pow 10 width) :
    Nat.ofDigitChars 10 (digits whole ++ paddedDigits width fraction) 0
      = Nat.pow 10 width * whole + fraction := by
  have hwhole : Nat.ofDigitChars 10 (digits whole) 0 = whole := Nat.ofDigitChars_ten_toDigits
  rw [Nat.ofDigitChars_append, hwhole, Nat.ofDigitChars_eq_ofDigitChars_zero,
    length_paddedDigits hw h, ofDigitChars_paddedDigits]
  rfl

theorem isFraction_pointed {whole places : List Char} (hw : IsDigits whole) (hp : AllDigits places) :
    IsFraction (pointed (whole, places)) := by
  cases places with
  | nil => exact .whole hw
  | cons c cs => exact .pointed hw hp

/-- Digits on both sides of a point are read as one integer, and the places are counted. -/
theorem fraction?_pointed_digits {whole places : List Char} (hw : IsDigits whole) (hp : AllDigits places) :
    fraction? (pointed (whole, places))
      = some (Nat.ofDigitChars 10 (whole ++ places) 0, -(places.length : Int)) := by
  cases places with
  | nil =>
    rw [List.append_nil]
    exact fraction?_whole hw
  | cons c cs => exact fraction?_pointed hw.all (isDigits_append hw hp)

section Split

variable (n places : Nat)

theorem isDigits_split : IsDigits (split n places).1 :=
  isDigits_digits _

theorem allDigits_split : AllDigits (split n places).2 := by
  rw [split]
  split
  · exact allDigits_nil
  · exact allDigits_paddedDigits _ _

theorem length_split : (split n places).2.length = places := by
  rw [split]
  split
  · next h => rw [h, List.length_nil]
  · next h => exact length_paddedDigits (Nat.pos_of_ne_zero h) (Nat.mod_lt _ (Nat.pow_pos (by omega)))

/-- The digits on both sides of the point are those of the number. -/
theorem ofDigitChars_split_append :
    Nat.ofDigitChars 10 ((split n places).1 ++ (split n places).2) 0 = n := by
  rw [split]
  split
  · next h =>
    subst h
    rw [List.append_nil, Nat.pow_eq, Nat.pow_zero, Nat.div_one]
    exact Nat.ofDigitChars_ten_toDigits
  · next h =>
    rw [ofDigitChars_split (Nat.pos_of_ne_zero h) (Nat.mod_lt _ (Nat.pow_pos (by omega))), Nat.div_add_mod]

/-- A number of places is read as it is written. -/
theorem fraction?_pointed_split :
    IsFraction (pointed (split n places))
      ∧ fraction? (pointed (split n places)) = some (n, -(places : Int)) := by
  have hwhole := isDigits_split n places
  have hplaces := allDigits_split n places
  refine ⟨isFraction_pointed hwhole hplaces, ?_⟩
  have hread := fraction?_pointed_digits hwhole hplaces
  rwa [ofDigitChars_split_append, length_split] at hread

end Split

end Decimal

namespace Numeral

open Decimal

/-- The same decimal without a positive power of ten. -/
def positional (n : Numeral) : Numeral :=
  ⟨n.negative, n.coefficient * Nat.pow 10 n.exponent.toNat, -((-n.exponent).toNat : Int)⟩

/-- The text reads as the same decimal, with its power of ten made part of the coefficient. -/
theorem ofChars?_chars (n : Numeral) : ofChars? n.chars = some n.positional := by
  obtain ⟨hf, hv⟩ := fraction?_pointed_split
    (n.coefficient * Nat.pow 10 n.exponent.toNat) (-n.exponent).toNat
  cases hn : n.negative with
  | true =>
    have h := ofChars?_append (.inr (.inr rfl)) hf hv
    simpa [chars, signed, hn, positional] using h
  | false =>
    have h := ofChars?_append (.inl rfl) hf hv
    simpa [chars, signed, hn, positional] using h

end Numeral

end ShapeGeometry
