import Mathlib.Computability.RegularExpressions
import Mathlib.Data.List.DropRight
import Mathlib.Data.Rat.Floor
import ShapeGeometry.Proofs.Svg.NumberAccuracy

/-!
Numbers in path data, printed step by step. The places come from a logarithm by machine arithmetic that refuses to
overflow, and the zeros and the point at the end are cut off the printed text.
-/

namespace ShapeGeometry

open Binary64 Decimal Numeral

/-! ### Plain notation -/

namespace PlainNumber

open RegularExpression

def leadingDigit : RegularExpression Char :=
  (['1', '2', '3', '4', '5', '6', '7', '8', '9'].map char).sum

def digit : RegularExpression Char :=
  char '0' + leadingDigit

def optional (expression : RegularExpression Char) : RegularExpression Char :=
  1 + expression

def integer : RegularExpression Char :=
  char '0' + leadingDigit * star digit

def fraction : RegularExpression Char :=
  char '.' * star digit * leadingDigit

/-- The expression `-?(0|[1-9][0-9]*)(\.[0-9]*[1-9])?`. -/
def grammar : RegularExpression Char :=
  optional (char '-') * (integer * optional fraction)

theorem mem_leadingDigit {c : Char} (h : c.isDigit = true) (hc : c ≠ '0') : [c] ∈ leadingDigit.matches' := by
  obtain ⟨hlow, hhigh⟩ := Char.isDigit_iff_toNat.mp h
  change 48 ≤ c.toNat at hlow
  change c.toNat ≤ 57 at hhigh
  rw [← c.ofNat_toNat] at hc ⊢
  rw [← rmatch_iff_matches']
  interval_cases c.toNat
  · exact absurd rfl hc
  all_goals rfl

theorem mem_digit {c : Char} (h : c.isDigit = true) : [c] ∈ digit.matches' := by
  rw [digit, matches'_add, Language.mem_add]
  by_cases hc : c = '0'
  · exact .inl (congrArg List.singleton hc)
  · exact .inr (mem_leadingDigit h hc)

theorem mem_star_digit {text : List Char} (h : AllDigits text) : text ∈ (star digit).matches' := by
  rw [matches'_star, Language.mem_kstar]
  refine ⟨text.map fun c => [c], (List.flatMap_singleton' text).symm, ?_⟩
  intro word hw
  obtain ⟨c, hc, rfl⟩ := List.mem_map.mp hw
  exact mem_digit (h c hc)

theorem mem_optional {expression : RegularExpression Char} {text : List Char}
    (h : text = [] ∨ text ∈ expression.matches') : text ∈ (optional expression).matches' := by
  rw [optional, matches'_add, Language.mem_add]
  exact h

end PlainNumber

/-- The language of plain notation. -/
def IsPlainNumber (text : List Char) : Prop :=
  text ∈ PlainNumber.grammar.matches'

instance : DecidablePred IsPlainNumber :=
  inferInstanceAs (DecidablePred (· ∈ PlainNumber.grammar.matches'))

example : IsPlainNumber "-10.05".toList := by decide

/-- A zero in front and one at the end. -/
example : ¬ IsPlainNumber "-01".toList ∧ ¬ IsPlainNumber "1.50".toList := by decide

namespace Decimal

/-- The digits of a positive number do not begin with a zero. -/
theorem exists_leadingDigit {n : Nat} (h : 0 < n) : ∃ first rest, digits n = first :: rest ∧ first ≠ '0' := by
  induction n using Nat.strong_induction_on with
  | _ n ih =>
    rw [digits, Nat.toDigits_eq_if (by omega)]
    split
    · exact ⟨n.digitChar, [], rfl, Nat.digitChar_eq_zero.not.mpr h.ne'⟩
    · obtain ⟨first, rest, hdigits, hfirst⟩ := ih (n / 10) (by omega) (by omega)
      rw [digits] at hdigits
      rw [hdigits]
      exact ⟨first, _, List.cons_append, hfirst⟩

theorem digits_mem_integer (n : Nat) : digits n ∈ PlainNumber.integer.matches' := by
  rw [PlainNumber.integer, RegularExpression.matches'_add, Language.mem_add]
  rcases Nat.eq_zero_or_pos n with rfl | hpos
  · exact .inl rfl
  · obtain ⟨first, rest, hdigits, hfirst⟩ := exists_leadingDigit hpos
    have hall := (isDigits_digits n).all
    rw [hdigits] at hall ⊢
    refine .inr (Language.append_mem_mul (a := [first]) (b := rest) ?_ ?_)
    · exact PlainNumber.mem_leadingDigit (hall first List.mem_cons_self) hfirst
    · exact PlainNumber.mem_star_digit fun c hc => hall c (List.mem_cons_of_mem first hc)

/-- No zero is left at the end. -/
theorem trimZeros_cases {fraction : List Char} (h : AllDigits fraction) :
    trimZeros fraction = [] ∨ ∃ places last, trimZeros fraction = places ++ [last]
      ∧ AllDigits places ∧ last.isDigit = true ∧ last ≠ '0' := by
  induction fraction using List.reverseRecOn with
  | nil => exact .inl rfl
  | append_singleton places last ih =>
    have hplaces : AllDigits places := fun c hc => h c (List.mem_append_left _ hc)
    by_cases hc : last = '0'
    · rw [hc, trimZeros_concat_zero]
      exact ih hplaces
    · exact .inr ⟨places, last, by simp [trimZeros, hc], hplaces, h last (by simp), hc⟩

/-- A point and a fraction behind it, if there is one. -/
theorem pointed_eq (whole fraction : List Char) :
    pointed (whole, fraction) = whole ++ if fraction = [] then [] else '.' :: fraction := by
  cases fraction with
  | nil => simp [pointed]
  | cons c rest => simp [pointed]

theorem fraction_mem {fraction : List Char} (h : AllDigits fraction) :
    (if trimZeros fraction = [] then [] else '.' :: trimZeros fraction)
      ∈ (PlainNumber.optional PlainNumber.fraction).matches' := by
  apply PlainNumber.mem_optional
  rcases trimZeros_cases h with hnil | ⟨places, last, htrim, hplaces, hdigit, hlast⟩
  · exact .inl (if_pos hnil)
  · have hpoint : '.' :: places ∈ (.char '.' * .star PlainNumber.digit : RegularExpression Char).matches' :=
      Language.append_mem_mul (a := ['.']) rfl (PlainNumber.mem_star_digit hplaces)
    rw [htrim, if_neg (by simp)]
    exact .inr (Language.append_mem_mul hpoint (PlainNumber.mem_leadingDigit hdigit hlast))

theorem signed_mem (negative : Bool) {text : List Char} {expression : RegularExpression Char}
    (h : text ∈ expression.matches') :
    signed negative text ∈ (PlainNumber.optional (.char '-') * expression).matches' := by
  cases negative with
  | false => exact Language.append_mem_mul (a := []) (PlainNumber.mem_optional (.inl rfl)) h
  | true => exact Language.append_mem_mul (a := ['-']) (PlainNumber.mem_optional (.inr rfl)) h

theorem isPlainNumber_signed (negative : Bool) (n : Nat) {fraction : List Char} (h : AllDigits fraction) :
    IsPlainNumber (signed negative (pointed (digits n, trimZeros fraction))) := by
  apply signed_mem
  rw [pointed_eq]
  exact Language.append_mem_mul (digits_mem_integer n) (fraction_mem h)

theorem isPlainNumber_plainChars (negative : Bool) (units places : Nat) :
    IsPlainNumber (plainChars negative units places) :=
  isPlainNumber_signed _ _ (allDigits_split units places)

/-- The text of the magnitude is that of zero only where it is zero. -/
theorem pointed_eq_zero_iff (units places : Nat) :
    pointed ((split units places).1, trimZeros (split units places).2) = ['0'] ↔ units = 0 := by
  constructor
  · intro h
    obtain ⟨coefficient, exponent, hread, hvalue, -⟩ := fraction?_trimmed units places
    rw [h] at hread
    cases hread
    have hzero : Nat.ofDigitChars 10 ['0'] 0 = 0 := rfl
    simpa [hzero] using hvalue.symm
  · rintro rfl
    have hplaces : plainChars false 0 places = plainChars false 0 0 := plainChars_congr false (by simp)
    exact hplaces

/-- A zero with a sign is made of a zero and a sign. -/
theorem signed_eq_minus_zero_iff (negative : Bool) {text : List Char} (h : Unsigned text) :
    signed negative text = ['-', '0'] ↔ negative = true ∧ text = ['0'] := by
  cases negative with
  | true => simp [signed]
  | false =>
    simp only [signed, Bool.false_eq_true, if_false, false_and, iff_false]
    rintro rfl
    exact (h '-' rfl).1 rfl

theorem unsigned_pointed (units places : Nat) :
    Unsigned (pointed ((split units places).1, trimZeros (split units places).2)) := by
  have hfraction := isFraction_pointed (isDigits_split units places)
    fun c hc => allDigits_split units places c (mem_of_mem_trimZeros hc)
  simpa using hfraction.unsigned []

theorem plainChars_ne_minus_zero (negative : Bool) (units places : Nat) :
    plainChars negative units places ≠ ['-', '0'] := by
  intro h
  obtain ⟨hsign, hzero⟩ := (signed_eq_minus_zero_iff _ (unsigned_pointed units places)).mp h
  rw [pointed_eq_zero_iff] at hzero
  simp [hzero] at hsign

end Decimal

/-! ### Printing -/

namespace Svg.Number

/-- The text with a fixed number of places. -/
def fixedChars (v : Fields) (places : Nat) : List Char :=
  signed v.negative (pointed (split (roundToPlaces v places) places))

/-- Cuts the zeros at the end, and then a point at the end, off a text with a point. -/
def trimEnd (text : List Char) : List Char :=
  if '.' ∈ text then (text.rdropWhile (· = '0')).rdropWhile (· = '.') else text

def withoutMinusZero (text : List Char) : List Char :=
  if text = ['-', '0'] then ['0'] else text

theorem rdropWhile_concat_of_ne (text : List Char) {c last : Char} (h : last ≠ c) :
    (text ++ [last]).rdropWhile (· = c) = text ++ [last] :=
  List.rdropWhile_concat_neg _ _ _ (by simpa using h)

/-- The zeros that are cut off are those of the fraction. -/
theorem rdropWhile_zero (front fraction : List Char) :
    (front ++ '.' :: fraction).rdropWhile (· = '0') = front ++ '.' :: trimZeros fraction := by
  induction fraction using List.reverseRecOn with
  | nil => exact rdropWhile_concat_of_ne front (by decide)
  | append_singleton places last ih =>
    rw [← List.cons_append, ← List.append_assoc]
    by_cases hlast : last = '0'
    · subst hlast
      rw [List.rdropWhile_concat_pos _ _ _ (by simp), ih, trimZeros_concat_zero]
    · rw [rdropWhile_concat_of_ne _ hlast]
      simp [trimZeros, hlast]

theorem signed_append (negative : Bool) (text rest : List Char) :
    signed negative (text ++ rest) = signed negative text ++ rest := by
  cases negative <;> simp [signed]

theorem trimEnd_signed (negative : Bool) {whole fraction : List Char} (hw : IsDigits whole)
    (hf : AllDigits fraction) :
    trimEnd (signed negative (pointed (whole, fraction)))
      = signed negative (pointed (whole, trimZeros fraction)) := by
  rcases fraction.eq_nil_or_concat' with rfl | ⟨_, _, hne⟩
  · have hpoint : '.' ∉ signed negative whole := by
      have hdigit : '.' ∉ whole := fun hm => ne_of_isDigit (hw.all _ hm) rfl rfl
      cases negative <;> simp [signed, hdigit]
    exact if_neg hpoint
  rw [pointed_eq, pointed_eq, if_neg (by simp [hne]), signed_append, signed_append, trimEnd, if_pos (by simp),
    rdropWhile_zero]
  rcases trimZeros_cases hf with hnil | ⟨places, last, htrim, -, hdigit, -⟩
  · -- no fraction is left, so the point goes as well
    obtain ⟨front, last, hfront⟩ := List.eq_nil_or_concat' whole |>.resolve_left hw.ne_nil
    have hlast : last ≠ '.' := ne_of_isDigit (hw.all last (by simp [hfront])) rfl
    rw [hnil, if_pos rfl, List.append_nil, List.rdropWhile_concat_pos _ _ _ (by simp), hfront, signed_append,
      rdropWhile_concat_of_ne _ hlast]
  · have hpoint : last ≠ '.' := ne_of_isDigit hdigit rfl
    rw [htrim, if_neg (by simp), ← List.cons_append, ← List.append_assoc, rdropWhile_concat_of_ne _ hpoint]

/-- The steps come to the trimmed text. -/
theorem withoutMinusZero_trimEnd (v : Fields) (places : Nat) :
    withoutMinusZero (trimEnd (fixedChars v places)) = trimmedChars v places := by
  have htrim := trimEnd_signed v.negative (isDigits_split (roundToPlaces v places) places)
    (allDigits_split (roundToPlaces v places) places)
  have hzero := pointed_eq_zero_iff (roundToPlaces v places) places
  have hminus := signed_eq_minus_zero_iff v.negative (unsigned_pointed (roundToPlaces v places) places)
  rw [fixedChars, htrim, withoutMinusZero, trimmedChars_eq, plainChars]
  simp only [hminus, hzero]
  by_cases hunits : roundToPlaces v places = 0
  · have htext := hzero.mpr hunits
    cases v.negative with
    | true => simpa [hunits, signed] using htext.symm
    | false => simp [signed]
  · simp [hunits]

/-- The floor as a machine integer: the nearest one that there is, and zero for what is not a number. -/
def floorToInt32 (x : Float) : Int32 :=
  match fields? x with
  | some v => .ofIntClamp ⌊v.value⌋
  | none => if x.isNaN then 0 else if x < 0 then .minValue else .maxValue

/-- The difference of machine integers, which is refused where it overflows. -/
def subtract? (left right : Int32) : Option Int32 :=
  if left.toBitVec.ssubOverflow right.toBitVec then none else some (left - right)

/-- The places behind the point for a given logarithm. -/
def decimals? (log : Float) : Option Nat := do
  let next ← subtract? (.ofNat significantFigures) 1
  let difference ← subtract? next (floorToInt32 log)
  return (max difference 0).toInt.toNat

/-- Prints a number, where `log10` computes the logarithm, or stops at an overflow. -/
def print? (log10 : Float → Float) (x : Float) : Option (List Char) :=
  match fields? x with
  | none => some ['0']
  | some v =>
    if x.abs < threshold then some ['0']
    else do return withoutMinusZero (trimEnd (fixedChars v (← decimals? (log10 x.abs))))

/-- The logarithm of some number from `10 ^ -10` to `10 ^ 309`. -/
def InRange (log : Float) : Prop :=
  ∃ l, fields? log = some l ∧ -10 ≤ l.value ∧ l.value ≤ 309

theorem subtract?_eq {left right : Int32} (hlow : -2 ^ 31 ≤ left.toInt - right.toInt)
    (hhigh : left.toInt - right.toInt < 2 ^ 31) :
    subtract? left right = some (left - right) ∧ (left - right).toInt = left.toInt - right.toInt := by
  have hoverflow : ¬ left.toBitVec.ssubOverflow right.toBitVec = true := by
    simp only [BitVec.ssubOverflow, Bool.or_eq_true, decide_eq_true_eq, not_or]
    exact ⟨not_le.mpr hhigh, not_lt.mpr hlow⟩
  exact ⟨if_neg hoverflow, BitVec.toInt_sub_of_not_ssubOverflow hoverflow⟩

theorem toNat_max_zero (x : Int32) : (max x 0).toInt.toNat = x.toInt.toNat := by
  have hzero : (0 : Int32).toInt = 0 := rfl
  change (if x ≤ 0 then 0 else x).toInt.toNat = _
  by_cases h : x ≤ 0
  · have hx := Int32.le_iff_toInt_le.mp h
    rw [if_pos h]
    omega
  · rw [if_neg h]

theorem floorToInt32_bounds {log : Float} (h : InRange log) :
    -10 ≤ (floorToInt32 log).toInt ∧ (floorToInt32 log).toInt ≤ 309 := by
  obtain ⟨l, hl, hlow, hhigh⟩ := h
  have hfloor : -10 ≤ ⌊l.value⌋ ∧ ⌊l.value⌋ ≤ 309 := by
    constructor
    · exact Int.le_floor.mpr (by exact_mod_cast hlow)
    · exact_mod_cast (Int.floor_le l.value).trans hhigh
  have hmin : Int32.minValue.toInt ≤ ⌊l.value⌋ := le_trans (by decide) hfloor.1
  have hmax : ⌊l.value⌋ ≤ Int32.maxValue.toInt := hfloor.2.trans (by decide)
  rw [floorToInt32, hl]
  simp only [Int32.toInt_ofIntClamp hmin hmax]
  exact hfloor

/-- No difference on the way to the places overflows. -/
theorem decimals?_eq {log : Float} (h : InRange log) :
    decimals? log = some (placesAt (floorToInt32 log).toInt) := by
  obtain ⟨hlow, hhigh⟩ := floorToInt32_bounds h
  have hfirst : subtract? (.ofNat significantFigures) 1 = some 5 := by decide
  have hfive : (5 : Int32).toInt = 5 := rfl
  obtain ⟨hsecond, hvalue⟩ := @subtract?_eq 5 (floorToInt32 log) (by omega) (by omega)
  rw [hfive] at hvalue
  simp only [decimals?, hfirst, hsecond, Option.bind_eq_bind, Option.bind_some, toNat_max_zero, hvalue]
  rfl

/-- The power of ten that the logarithm gives the leading digit. -/
def exponentBy (log10 : Float → Float) (x : Float) : Int :=
  (floorToInt32 (log10 x.abs)).toInt

variable {log10 : Float → Float} {x : Float}

/-- The steps print what the number is with that power of ten. -/
theorem print?_eq (h : ∀ v, fields? x = some v → 1 / 10 ^ 9 ≤ |v.value| → InRange (log10 x.abs)) :
    print? log10 x = some (charsWith (exponentBy log10) x) := by
  rw [print?, charsWith]
  cases hx : fields? x with
  | none => rfl
  | some v =>
    by_cases hsmall : x.abs < threshold
    · simp only [if_pos hsmall]
    · have hlarge := not_lt.mp (mt (abs_lt_threshold_iff hx).mpr hsmall)
      simp only [if_neg hsmall, decimals?_eq (h v hx hlarge), withoutMinusZero_trimEnd]
      rfl

/-- Whatever power of ten the places are taken from. -/
theorem isPlainNumber_charsWith (exponentOf : Float → Int) (x : Float) :
    IsPlainNumber (charsWith exponentOf x) ∧ charsWith exponentOf x ≠ ['-', '0'] := by
  have hzero : IsPlainNumber ['0'] ∧ ['0'] ≠ ['-', '0'] := by decide
  rw [charsWith]
  cases fields? x with
  | none => exact hzero
  | some v =>
    by_cases hsmall : x.abs < threshold
    · simp only [if_pos hsmall]
      exact hzero
    · simp only [if_neg hsmall, charsAt_eq]
      exact ⟨isPlainNumber_plainChars _ _ _, plainChars_ne_minus_zero _ _ _⟩

/-- Printing never fails, as long as numbers from `10 ^ -9` up have a logarithm that is in range, and its texts are
in plain notation, without a sign in front of a zero. So are the texts of numbers in path data, which are the same
where the logarithm is right up to an error next to powers of ten. -/
theorem isPlainNumber_print (log10 : Float → Float) (x : Float)
    (h : ∀ v, fields? x = some v → 1 / 10 ^ 9 ≤ |v.value| → InRange (log10 x.abs)) :
    (∃ text, print? log10 x = some text ∧ IsPlainNumber text ∧ text ≠ "-0".toList
      ∧ (FollowsLogarithm (exponentBy log10) x → text = chars x))
    ∧ IsPlainNumber (chars x) ∧ chars x ≠ "-0".toList := by
  obtain ⟨hplain, hzero⟩ := isPlainNumber_charsWith (exponentBy log10) x
  refine ⟨⟨_, print?_eq h, hplain, hzero, fun hfollows => hfollows.charsWith_eq⟩, ?_⟩
  rw [chars_eq_charsWith]
  exact isPlainNumber_charsWith leadingExponentOf x

/-- A power of ten, where the logarithm is exact. -/
theorem isPlainNumber_print_small :
    let log10 (y : Float) : Float := Float.ofInt (leadingExponentOf y)
    fields? (log10 (Float.abs (-1e-5))) = some ⟨true, 5629499534213120, -50⟩
      ∧ print? log10 (-1e-5) = some "-0.00001".toList ∧ IsPlainNumber "-0.00001".toList := by
  intro log10
  have hlog : fields? (log10 (Float.abs (-1e-5))) = some ⟨true, 5629499534213120, -50⟩ := by decide +kernel
  have hprint : print? log10 (-1e-5) = some "-0.00001".toList := by decide +kernel
  have hrange : InRange (log10 (Float.abs (-1e-5))) :=
    ⟨_, hlog, by norm_num [Fields.value], by norm_num [Fields.value]⟩
  obtain ⟨⟨text, htext, hplain, -⟩, -⟩ := isPlainNumber_print log10 (-1e-5) fun _ _ _ => hrange
  rw [hprint] at htext
  exact ⟨hlog, hprint, Option.some.inj htext ▸ hplain⟩

end Svg.Number

end ShapeGeometry
