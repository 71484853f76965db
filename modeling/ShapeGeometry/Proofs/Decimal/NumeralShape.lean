import Mathlib.Data.List.TakeWhile
import ShapeGeometry.Decimal.Numeral
import ShapeGeometry.Formula.Grammar

namespace ShapeGeometry.Numeral

/-- The language `[+-]?`. -/
def IsSign (text : List Char) : Prop :=
  text = [] ∨ text = ['+'] ∨ text = ['-']

def AllDigits (text : List Char) : Prop :=
  ∀ c ∈ text, c.isDigit = true

/-- The language `D+`. -/
structure IsDigits (text : List Char) : Prop where
  ne_nil : text ≠ []
  all : AllDigits text

/-- The language `D+ | D+.D* | .D+`. -/
inductive IsFraction : List Char → Prop
  | whole {whole : List Char} (h : IsDigits whole) : IsFraction whole
  | pointed {whole places : List Char} (h : IsDigits whole) (hp : AllDigits places) :
    IsFraction (whole ++ '.' :: places)
  | pointFirst {places : List Char} (h : IsDigits places) : IsFraction ('.' :: places)

/-- The language `([eE][+-]?D+)?`. -/
inductive IsPower : List Char → Prop
  | absent : IsPower []
  | present {mark : Char} {sign digits : List Char} (hm : mark = 'e' ∨ mark = 'E')
    (hs : IsSign sign) (hd : IsDigits digits) : IsPower (mark :: (sign ++ digits))

/-- The language `[+-]?(D+ | D+.D* | .D+)([eE][+-]?D+)?`. -/
def IsNumeral (text : List Char) : Prop :=
  ∃ sign fraction power, IsSign sign ∧ IsFraction fraction ∧ IsPower power
    ∧ text = sign ++ (fraction ++ power)

theorem allDigits_nil : AllDigits [] :=
  fun _ hc => absurd hc List.not_mem_nil

theorem ne_of_isDigit {c d : Char} (hc : c.isDigit = true) (hd : d.isDigit = false) : c ≠ d := by
  rintro rfl
  rw [hc] at hd
  cases hd

theorem isExponentMark_iff {c : Char} : isExponentMark c = true ↔ c = 'e' ∨ c = 'E' := by
  simp [isExponentMark]

theorem not_isExponentMark_of_isDigit {c : Char} (h : c.isDigit = true) :
    isExponentMark c = false := by
  have he : c ≠ 'e' := ne_of_isDigit h rfl
  have hE : c ≠ 'E' := ne_of_isDigit h rfl
  simp [isExponentMark, he, hE]

theorem AllDigits.append {first second : List Char} (hf : AllDigits first)
    (hs : AllDigits second) : AllDigits (first ++ second) := by
  intro c hc
  rcases List.mem_append.mp hc with h | h
  · exact hf c h
  · exact hs c h

theorem isDigits_append {first second : List Char} (hf : IsDigits first)
    (hs : AllDigits second) : IsDigits (first ++ second) :=
  ⟨by simp [hf.ne_nil], hf.all.append hs⟩

theorem IsFraction.ne_nil {text : List Char} (h : IsFraction text) : text ≠ [] := by
  cases h with
  | whole h => exact h.ne_nil
  | pointed h hp => simp
  | pointFirst h => simp

/-- A fraction is made of digits and points. -/
theorem IsFraction.mem {text : List Char} (h : IsFraction text) {c : Char} (hc : c ∈ text) :
    c.isDigit = true ∨ c = '.' := by
  cases h with
  | whole h => exact .inl (h.all c hc)
  | pointed h hp =>
    rcases List.mem_append.mp hc with hc | hc
    · exact .inl (h.all c hc)
    · rcases List.mem_cons.mp hc with hc | hc
      · exact .inr hc
      · exact .inl (hp c hc)
  | pointFirst h =>
    rcases List.mem_cons.mp hc with hc | hc
    · exact .inr hc
    · exact .inl (h.all c hc)

/-- No sign stands in front. -/
def Unsigned (text : List Char) : Prop :=
  ∀ c ∈ text.head?, c ≠ '-' ∧ c ≠ '+'

theorem IsDigits.unsigned {digits : List Char} (h : IsDigits digits) : Unsigned digits := by
  intro c hc
  have hd := h.all c (List.mem_of_mem_head? hc)
  exact ⟨ne_of_isDigit hd rfl, ne_of_isDigit hd rfl⟩

theorem IsFraction.unsigned {fraction : List Char} (h : IsFraction fraction)
    (rest : List Char) : Unsigned (fraction ++ rest) := by
  obtain ⟨d, ds, rfl⟩ := List.exists_cons_of_ne_nil h.ne_nil
  rintro c ⟨⟩
  rcases h.mem List.mem_cons_self with hd | rfl
  · exact ⟨ne_of_isDigit hd rfl, ne_of_isDigit hd rfl⟩
  · decide

theorem splitSign_of_unsigned {text : List Char} (h : Unsigned text) :
    splitSign text = (false, text) := by
  unfold splitSign
  split
  · exact absurd rfl (h '-' rfl).1
  · exact absurd rfl (h '+' rfl).2
  · rfl

theorem splitSign_append {sign rest : List Char} (hs : IsSign sign) (hr : Unsigned rest) :
    splitSign (sign ++ rest) = (decide (sign = ['-']), rest) := by
  rcases hs with rfl | rfl | rfl
  · rw [List.nil_append, splitSign_of_unsigned hr]
    rfl
  · rfl
  · rfl

/-- What `splitSign` takes off is a sign. -/
theorem splitSign_cases (text : List Char) :
    ∃ sign, IsSign sign ∧ text = sign ++ (splitSign text).2 := by
  unfold splitSign
  split
  · exact ⟨['-'], .inr (.inr rfl), rfl⟩
  · exact ⟨['+'], .inr (.inl rfl), rfl⟩
  · exact ⟨[], .inl rfl, rfl⟩

theorem digits?_of_isDigits {text : List Char} (h : IsDigits text) :
    digits? text = some (Nat.ofDigitChars 10 text 0) := by
  have ha : text.all Char.isDigit = true := List.all_eq_true.mpr h.all
  rw [digits?, if_pos ⟨h.ne_nil, ha⟩]

theorem isDigits_of_digits? {text : List Char} {n : Nat} (h : digits? text = some n) :
    IsDigits text := by
  unfold digits? at h
  split at h
  · next hc => exact ⟨hc.1, List.all_eq_true.mp hc.2⟩
  · cases h

theorem fraction?_whole {whole : List Char} (h : IsDigits whole) :
    fraction? whole = some (Nat.ofDigitChars 10 whole 0, 0) := by
  have hp : ∀ c ∈ whole, decide (c ≠ '.') = true := by
    intro c hc
    simpa using ne_of_isDigit (h.all c hc) rfl
  have ht := List.takeWhile_eq_self_iff.mpr hp
  have hd := List.dropWhile_eq_nil_iff.mpr hp
  simp only [fraction?, ht, hd, digits?_of_isDigits h, Option.map_some]

theorem fraction?_pointed {whole places : List Char} (hw : AllDigits whole)
    (h : IsDigits (whole ++ places)) :
    fraction? (whole ++ '.' :: places)
      = some (Nat.ofDigitChars 10 (whole ++ places) 0, -(places.length : Int)) := by
  have hp : ∀ c ∈ whole, decide (c ≠ '.') = true := by
    intro c hc
    simpa using ne_of_isDigit (hw c hc) rfl
  have ht : (whole ++ '.' :: places).takeWhile (· ≠ '.') = whole := by
    rw [List.takeWhile_append_of_pos hp]
    simp
  have hd : (whole ++ '.' :: places).dropWhile (· ≠ '.') = '.' :: places := by
    rw [List.dropWhile_append_of_pos hp]
    simp
  simp only [fraction?, ht, hd, digits?_of_isDigits h, Option.map_some]

theorem fraction?_isSome {text : List Char} (h : IsFraction text) : (fraction? text).isSome := by
  cases h with
  | whole h => rw [fraction?_whole h]; rfl
  | pointed h hp => rw [fraction?_pointed h.all (isDigits_append h hp)]; rfl
  | @pointFirst places h =>
    have hf := fraction?_pointed allDigits_nil h
    rw [List.nil_append] at hf
    rw [hf]
    rfl

theorem isFraction_of_fraction? {text : List Char} {value : Nat × Int}
    (h : fraction? text = some value) : IsFraction text := by
  have ht := List.takeWhile_append_dropWhile (p := (· ≠ '.')) (l := text)
  simp only [fraction?] at h
  generalize hw : text.takeWhile (· ≠ '.') = whole at h ht
  split at h
  · next hd =>
    obtain ⟨n, hn, _⟩ := Option.map_eq_some_iff.mp h
    rw [hd, List.append_nil] at ht
    exact ht ▸ .whole (isDigits_of_digits? hn)
  · next c places hd =>
    obtain ⟨n, hn, _⟩ := Option.map_eq_some_iff.mp h
    have hc : c = '.' := by
      have hs := List.head?_dropWhile_not (· ≠ '.') text
      rw [hd] at hs
      simpa using hs
    have hall := isDigits_of_digits? hn
    rw [hd, hc] at ht
    rw [← ht]
    -- a point with no digit before it needs one after it
    cases whole with
    | nil => exact .pointFirst hall
    | cons d ds =>
      have hds : AllDigits (d :: ds) := fun x hx => hall.all x (List.mem_append_left _ hx)
      exact .pointed ⟨by simp, hds⟩ fun x hx => hall.all x (List.mem_append_right _ hx)

theorem integer?_isSome {sign digits : List Char} (hs : IsSign sign) (hd : IsDigits digits) :
    (integer? (sign ++ digits)).isSome := by
  simp [integer?, splitSign_append hs hd.unsigned, digits?_of_isDigits hd]

theorem integer?_cases {text : List Char} {value : Int} (h : integer? text = some value) :
    ∃ sign digits, IsSign sign ∧ IsDigits digits ∧ text = sign ++ digits := by
  obtain ⟨sign, hs, ht⟩ := splitSign_cases text
  simp only [integer?] at h
  obtain ⟨n, hn, _⟩ := Option.map_eq_some_iff.mp h
  exact ⟨sign, _, hs, isDigits_of_digits? hn, ht⟩

theorem IsFraction.not_mark {fraction : List Char} (h : IsFraction fraction) :
    ∀ c ∈ fraction, (!isExponentMark c) = true := by
  intro c hc
  rcases h.mem hc with hd | rfl
  · simp [not_isExponentMark_of_isDigit hd]
  · rfl

theorem IsPower.mark {power : List Char} (h : IsPower power) :
    ∀ c ∈ power.head?, isExponentMark c = true := by
  intro c hc
  cases h with
  | absent => cases hc
  | present hm hs hd =>
    cases hc
    exact isExponentMark_iff.mpr hm

/-- The fraction ends where the exponent mark stands, or at the end of the text. -/
theorem takeWhile_fraction {fraction power : List Char} (hf : IsFraction fraction)
    (hp : IsPower power) :
    (fraction ++ power).takeWhile (!isExponentMark ·) = fraction
      ∧ (fraction ++ power).dropWhile (!isExponentMark ·) = power := by
  rw [List.takeWhile_append_of_pos hf.not_mark, List.dropWhile_append_of_pos hf.not_mark]
  cases power with
  | nil => simp
  | cons c cs => simp [hp.mark c rfl]

theorem ofChars?_append {sign fraction : List Char} {coefficient : Nat} {exponent : Int}
    (hs : IsSign sign) (hf : IsFraction fraction)
    (hv : fraction? fraction = some (coefficient, exponent)) :
    ofChars? (sign ++ fraction) = some ⟨decide (sign = ['-']), coefficient, exponent⟩ := by
  have hu := hf.unsigned []
  obtain ⟨ht, hd⟩ := takeWhile_fraction hf .absent
  rw [List.append_nil] at hu ht hd
  simp only [ofChars?, splitSign_append hs hu, ht, hd, hv]

theorem ofChars?_isSome {text : List Char} (h : IsNumeral text) : (ofChars? text).isSome := by
  obtain ⟨sign, fraction, power, hs, hf, hp, rfl⟩ := h
  obtain ⟨⟨coefficient, exponent⟩, hv⟩ := Option.isSome_iff_exists.mp (fraction?_isSome hf)
  obtain ⟨ht, hd⟩ := takeWhile_fraction hf hp
  simp only [ofChars?, splitSign_append hs (hf.unsigned power), ht, hd, hv]
  cases hp with
  | absent => rfl
  | present hm hps hpd =>
    obtain ⟨e, he⟩ := Option.isSome_iff_exists.mp (integer?_isSome hps hpd)
    simp [he]

theorem isNumeral_of_ofChars? {text : List Char} {n : Numeral} (h : ofChars? text = some n) :
    IsNumeral text := by
  obtain ⟨sign, hs, ht⟩ := splitSign_cases text
  simp only [ofChars?] at h
  generalize (splitSign text).2 = rest at h ht
  have hr := List.takeWhile_append_dropWhile (p := (!isExponentMark ·)) (l := rest)
  split at h
  · cases h
  · next coefficient exponent hv =>
    have hf := isFraction_of_fraction? hv
    split at h
    · next hd =>
      rw [hd] at hr
      exact ⟨sign, _, [], hs, hf, .absent, by rw [hr, ht]⟩
    · next mark power hd =>
      obtain ⟨e, he, _⟩ := Option.map_eq_some_iff.mp h
      obtain ⟨powerSign, digits, hps, hpd, rfl⟩ := integer?_cases he
      have hm : isExponentMark mark = true := by
        have hn := List.head?_dropWhile_not (!isExponentMark ·) rest
        simpa [hd] using hn
      rw [hd] at hr
      exact ⟨sign, _, _, hs, hf, .present (isExponentMark_iff.mp hm) hps hpd, by rw [hr, ht]⟩

/-- These texts and no others are read as numerals. -/
theorem ofChars?_isSome_iff {text : List Char} : (ofChars? text).isSome ↔ IsNumeral text := by
  refine ⟨fun h => ?_, ofChars?_isSome⟩
  obtain ⟨n, hn⟩ := Option.isSome_iff_exists.mp h
  exact isNumeral_of_ofChars? hn

example : ofChars? "+.5E-2".toList = some ⟨false, 5, -3⟩ := rfl

example : ofChars? ".e3".toList = none := rfl

theorem ofChars?_eq_none_iff {text : List Char} : ofChars? text = none ↔ ¬ IsNumeral text := by
  rw [← ofChars?_isSome_iff]
  simp

/-- No blank stands in a numeral. -/
theorem IsNumeral.not_blank {text : List Char} (h : IsNumeral text) :
    ∀ c ∈ text, Text.isBlank c = false := by
  have digit : ∀ {c : Char}, c.isDigit = true → Text.isBlank c = false := by
    intro c hc
    have h₁ : c ≠ ' ' := ne_of_isDigit hc rfl
    have h₂ : c ≠ '\t' := ne_of_isDigit hc rfl
    have h₃ : c ≠ '\r' := ne_of_isDigit hc rfl
    have h₄ : c ≠ '\n' := ne_of_isDigit hc rfl
    simp [Text.isBlank, h₁, h₂, h₃, h₄]
  have sign : ∀ {s : List Char}, IsSign s → ∀ c ∈ s, Text.isBlank c = false := by
    rintro s (rfl | rfl | rfl) <;> simp [Text.isBlank]
  obtain ⟨s, fraction, power, hs, hf, hp, rfl⟩ := h
  intro c hc
  rcases List.mem_append.mp hc with hc | hc
  · exact sign hs c hc
  rcases List.mem_append.mp hc with hc | hc
  · rcases hf.mem hc with hd | rfl
    · exact digit hd
    · rfl
  cases hp with
  | absent => cases hc
  | present hm hps hpd =>
    rcases List.mem_cons.mp hc with rfl | hc
    · rcases hm with rfl | rfl <;> rfl
    · rcases List.mem_append.mp hc with hc | hc
      · exact sign hps c hc
      · exact digit (hpd.all c hc)

theorem IsNumeral.ne_nil {text : List Char} (h : IsNumeral text) : text ≠ [] := by
  obtain ⟨s, fraction, power, hs, hf, hp, rfl⟩ := h
  simp [hf.ne_nil]

end ShapeGeometry.Numeral
