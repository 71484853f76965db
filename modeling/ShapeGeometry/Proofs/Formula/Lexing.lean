import ShapeGeometry.Formula.Parser
import ShapeGeometry.Proofs.Decimal.NumeralShape
import ShapeGeometry.Proofs.Text.Words

namespace ShapeGeometry

open Numeral Text

namespace Grammar

namespace Rule

theorem seq_some {first second : Rule} {text head middle tail rest : List Char}
    (hf : first text = some (head, middle)) (hs : second middle = some (tail, rest)) :
    first.seq second text = some (head ++ tail, rest) := by
  simp only [seq, hf, hs, Option.map_some]

theorem seq_none_left {first second : Rule} {text : List Char} (hf : first text = none) :
    first.seq second text = none := by
  simp only [seq, hf]

theorem one_eq_some {p : Char → Bool} {text front rest : List Char}
    (h : one p text = some (front, rest)) :
    ∃ c, p c = true ∧ front = [c] ∧ text = c :: rest := by
  cases text with
  | nil => cases h
  | cons c cs =>
    simp only [one] at h
    split at h
    · next hc => cases h; exact ⟨c, hc, rfl, rfl⟩
    · cases h

theorem one_cons {p : Char → Bool} {c : Char} (hc : p c = true) (rest : List Char) :
    one p (c :: rest) = some ([c], rest) := by
  simp only [one, hc, if_true]

theorem one_eq_none {p : Char → Bool} {text : List Char} (h : ∀ c ∈ text.head?, p c = false) :
    one p text = none := by
  cases text with
  | nil => rfl
  | cons c cs => simp [one, h c rfl]

theorem optional_some {rule : Rule} {text front rest : List Char}
    (h : rule text = some (front, rest)) : rule.optional text = some (front, rest) := by
  simp only [optional, h, Option.getD_some]

theorem optional_none {rule : Rule} {text : List Char} (h : rule text = none) :
    rule.optional text = some ([], text) := by
  simp only [optional, h, Option.getD_none]

theorem optional_cases {rule : Rule} {text front rest : List Char}
    (h : rule.optional text = some (front, rest)) : front = [] ∨ rule text = some (front, rest) := by
  cases hr : rule text with
  | none =>
    rw [optional_none hr] at h
    cases h
    exact .inl rfl
  | some pair =>
    obtain ⟨front', rest'⟩ := pair
    rw [optional_some hr] at h
    exact .inr h

/-- A repetition takes all that it can. -/
theorem many_append {p : Char → Bool} {front rest : List Char} (hf : ∀ c ∈ front, p c = true)
    (hr : ∀ c ∈ rest.head?, p c = false) : many p (front ++ rest) = some (front, rest) := by
  rw [many, List.takeWhile_append_of_pos hf, List.dropWhile_append_of_pos hf]
  cases rest with
  | nil => simp
  | cons c cs => simp [hr c rfl]

theorem many1_append {p : Char → Bool} {front rest : List Char} (hn : front ≠ [])
    (hf : ∀ c ∈ front, p c = true) (hr : ∀ c ∈ rest.head?, p c = false) :
    many1 p (front ++ rest) = some (front, rest) := by
  obtain ⟨c, cs, rfl⟩ := List.exists_cons_of_ne_nil hn
  have hc := hf c List.mem_cons_self
  have hcs : ∀ d ∈ cs, p d = true := fun d hd => hf d (List.mem_cons_of_mem _ hd)
  exact seq_some (one_cons hc _) (many_append hcs hr)

theorem many1_eq_none {p : Char → Bool} {text : List Char} (h : ∀ c ∈ text.head?, p c = false) :
    many1 p text = none :=
  seq_none_left (one_eq_none h)

theorem many1_mem {p : Char → Bool} {text front rest : List Char}
    (h : many1 p text = some (front, rest)) : ∀ c ∈ front, p c = true := by
  obtain ⟨head, middle, tail, ho, hm, rfl⟩ := seq_eq_some h
  obtain ⟨c, hc, rfl, -⟩ := one_eq_some ho
  cases hm
  intro d hd
  rcases List.mem_append.mp hd with hd | hd
  · rcases List.mem_singleton.mp hd with rfl
    exact hc
  · exact List.mem_takeWhile_imp hd

end Rule

open Rule

theorem isSign_of_sign {text front rest : List Char} (h : sign text = some (front, rest)) :
    IsSign front := by
  rcases optional_cases h with rfl | h
  · exact .inl rfl
  · obtain ⟨c, hc, rfl, -⟩ := one_eq_some h
    have hc : c = '+' ∨ c = '-' := by simpa using hc
    rcases hc with rfl | rfl
    · exact .inr (.inl rfl)
    · exact .inr (.inr rfl)

theorem sign_append {front rest : List Char} (hs : IsSign front) (hr : Unsigned rest) :
    sign (front ++ rest) = some (front, rest) := by
  rcases hs with rfl | rfl | rfl
  · apply optional_none
    apply one_eq_none
    intro c hc
    simp [hr c hc]
  · exact optional_some (one_cons rfl rest)
  · exact optional_some (one_cons rfl rest)

theorem isDigits_of_digits {text front rest : List Char} (h : digits text = some (front, rest)) :
    IsDigits front :=
  ⟨many1_advances _ h, many1_mem h⟩

theorem digits_append {front rest : List Char} (hd : IsDigits front)
    (hr : ∀ c ∈ rest.head?, c.isDigit = false) : digits (front ++ rest) = some (front, rest) :=
  many1_append hd.ne_nil hd.all hr

theorem isFraction_of_fraction {text front rest : List Char}
    (h : fraction text = some (front, rest)) : IsFraction front := by
  rcases Option.or_eq_some_iff.mp h with h | ⟨-, h⟩
  · obtain ⟨whole, middle, tail, hw, ht, rfl⟩ := seq_eq_some h
    have hd := isDigits_of_digits hw
    rcases optional_cases ht with rfl | ht
    · rw [List.append_nil]
      exact .whole hd
    · obtain ⟨dot, next, places, hp, hm, rfl⟩ := seq_eq_some ht
      obtain ⟨c, hc, rfl, -⟩ := one_eq_some hp
      cases hm
      rw [of_decide_eq_true hc]
      exact .pointed hd fun d hd => List.mem_takeWhile_imp hd
  · obtain ⟨dot, middle, places, hp, hd, rfl⟩ := seq_eq_some h
    obtain ⟨c, hc, rfl, -⟩ := one_eq_some hp
    rw [of_decide_eq_true hc]
    exact .pointFirst (isDigits_of_digits hd)

/-- A fraction ends in front of what is neither a digit nor a point. -/
theorem fraction_append {front rest : List Char} (hf : IsFraction front)
    (hr : ∀ c ∈ rest.head?, c.isDigit = false ∧ c ≠ '.') :
    fraction (front ++ rest) = some (front, rest) := by
  have hdigit : ∀ c ∈ rest.head?, c.isDigit = false := fun c hc => (hr c hc).1
  cases hf with
  | whole h =>
    have hp : point rest = none := one_eq_none fun c hc => by simp [(hr c hc).2]
    have hn : point.seq (many Char.isDigit) rest = none := seq_none_left hp
    have hs := seq_some (digits_append h hdigit) (optional_none hn)
    rw [List.append_nil] at hs
    simp only [fraction, choice, hs, Option.some_or]
  | @pointed whole places h hp =>
    have hdot : point ('.' :: (places ++ rest)) = some (['.'], places ++ rest) :=
      one_cons rfl _
    have ho := optional_some (seq_some hdot (many_append hp hdigit))
    have hd : digits (whole ++ '.' :: (places ++ rest)) = some (whole, '.' :: (places ++ rest)) := by
      apply digits_append h
      rintro c ⟨⟩
      rfl
    have hs := seq_some hd ho
    rw [List.append_assoc, List.cons_append]
    simp only [fraction, choice, hs, Option.some_or]
    rfl
  | @pointFirst places h =>
    have hd : digits ('.' :: places ++ rest) = none := by
      apply many1_eq_none
      rintro c ⟨⟩
      rfl
    have hdot : point ('.' :: places ++ rest) = some (['.'], places ++ rest) :=
      one_cons rfl _
    have hs := seq_some hdot (digits_append h hdigit)
    have hn : digits.seq (point.seq (many Char.isDigit)).optional ('.' :: places ++ rest) = none :=
      seq_none_left hd
    simp only [fraction, choice, hn, hs, Option.none_or]
    rfl

theorem isPower_of_power {text front rest : List Char} (h : power text = some (front, rest)) :
    IsPower front := by
  rcases optional_cases h with rfl | h
  · exact .absent
  · obtain ⟨mark, middle, tail, hm, ht, rfl⟩ := seq_eq_some h
    obtain ⟨c, hc, rfl, -⟩ := one_eq_some hm
    obtain ⟨s, next, ds, hs, hd, rfl⟩ := seq_eq_some ht
    rw [List.singleton_append]
    exact .present (isExponentMark_iff.mp hc) (isSign_of_sign hs) (isDigits_of_digits hd)

/-- Nothing that can stand in a numeral begins what follows a word. -/
theorem head_of_endsWord {rest : List Char} (he : EndsWord rest) :
    ∀ c ∈ rest.head?, c.isDigit = false ∧ c ≠ '.' ∧ isExponentMark c = false := by
  intro c hc
  have hb := he c hc
  simp only [isBlank, Bool.or_eq_true, decide_eq_true_eq] at hb
  rcases hb with ((rfl | rfl) | rfl) | rfl <;> decide

theorem power_append {front rest : List Char} (hp : IsPower front) (he : EndsWord rest) :
    power (front ++ rest) = some (front, rest) := by
  cases hp with
  | absent =>
    apply optional_none
    apply seq_none_left
    exact one_eq_none fun c hc => (head_of_endsWord he c hc).2.2
  | @present mark s ds hm hs hd =>
    have hdigits := digits_append hd fun c hc => (head_of_endsWord he c hc).1
    have hu : Unsigned (ds ++ rest) := by
      obtain ⟨d, ds', rfl⟩ := List.exists_cons_of_ne_nil hd.ne_nil
      rintro c ⟨⟩
      exact hd.unsigned _ rfl
    have hsign := sign_append hs hu
    have hmark := one_cons (isExponentMark_iff.mpr hm) (s ++ (ds ++ rest))
    rw [List.cons_append, List.append_assoc]
    exact optional_some (seq_some hmark (seq_some hsign hdigits))

theorem wordEnd_of_endsWord {text : List Char} (he : EndsWord text) :
    wordEnd text = some ([], text) := by
  cases text with
  | nil => rfl
  | cons d ds => simp [wordEnd, he d rfl]

theorem endsWord_of_wordEnd {text front rest : List Char}
    (h : wordEnd text = some (front, rest)) : front = [] ∧ rest = text ∧ EndsWord text := by
  cases text with
  | nil =>
    cases h
    exact ⟨rfl, rfl, .nil⟩
  | cons c cs =>
    simp only [wordEnd] at h
    split at h
    · next hc =>
      cases h
      exact ⟨rfl, rfl, fun d hd => Option.some.inj hd ▸ hc⟩
    · cases h

theorem isNumeral_of_number {text front rest : List Char}
    (h : number text = some (front, rest)) : IsNumeral front ∧ EndsWord rest := by
  obtain ⟨s, afterSign, tail, hs, ht, rfl⟩ := seq_eq_some h
  obtain ⟨f, afterFraction, tail', hf, ht', rfl⟩ := seq_eq_some ht
  obtain ⟨p, afterPower, last, hp, he, rfl⟩ := seq_eq_some ht'
  obtain ⟨rfl, rfl, he⟩ := endsWord_of_wordEnd he
  refine ⟨⟨s, f, p, isSign_of_sign hs, isFraction_of_fraction hf, isPower_of_power hp, ?_⟩, he⟩
  rw [List.append_nil]

theorem number_append {front rest : List Char} (hn : IsNumeral front) (he : EndsWord rest) :
    number (front ++ rest) = some (front, rest) := by
  obtain ⟨s, f, p, hs, hf, hp, rfl⟩ := hn
  have hend := seq_some (power_append hp he) (wordEnd_of_endsWord he)
  have hhead : ∀ c ∈ (p ++ rest).head?, c.isDigit = false ∧ c ≠ '.' := by
    intro c hc
    cases hp with
    | absent => exact ⟨(head_of_endsWord he c hc).1, (head_of_endsWord he c hc).2.1⟩
    | present hm hps hpd =>
      cases hc
      rcases hm with rfl | rfl <;> decide
  have hfraction := seq_some (fraction_append hf hhead) hend
  have hsign := seq_some (sign_append hs (hf.unsigned (p ++ rest))) hfraction
  rw [List.append_nil] at hsign
  simpa only [List.append_assoc, number] using hsign

/-- The rule matches the numerals that end with a word, and nothing else. -/
theorem number_eq_some_iff {text front rest : List Char} :
    number text = some (front, rest) ↔ text = front ++ rest ∧ IsNumeral front ∧ EndsWord rest := by
  constructor
  · intro h
    exact ⟨(number_splits h).symm, isNumeral_of_number h⟩
  · rintro ⟨rfl, hn, he⟩
    exact number_append hn he

theorem number_run_none {run rest : List Char} (hr : IsRun run) (he : EndsWord rest)
    (hn : ¬ IsNumeral run) : number (run ++ rest) = none := by
  cases h : number (run ++ rest) with
  | none => rfl
  | some pair =>
    obtain ⟨front, left⟩ := pair
    obtain ⟨hnum, hend⟩ := isNumeral_of_number h
    have hf : IsRun front := ⟨hnum.ne_nil, hnum.not_blank⟩
    have hsame := run_unique hf hend hr he (number_splits h)
    exact absurd (hsame ▸ hnum) hn

theorem word_run {run rest : List Char} (hr : IsRun run) (he : EndsWord rest) :
    word (run ++ rest) = some (run, rest) := by
  apply many1_append hr.ne_nil
  · intro c hc
    simp [hr.not_blank c hc]
  · intro c hc
    simp [he c hc]

theorem word_eq_none {text : List Char} (he : EndsWord text) : word text = none :=
  many1_eq_none fun c hc => by simp [he c hc]

theorem number_eq_none {text : List Char} (he : EndsWord text) : number text = none := by
  cases h : number text with
  | none => rfl
  | some pair =>
    obtain ⟨front, rest⟩ := pair
    have hnum := (isNumeral_of_number h).1
    obtain ⟨c, cs, rfl⟩ := List.exists_cons_of_ne_nil hnum.ne_nil
    have hc : c ∈ text.head? := by
      rw [← number_splits h]
      rfl
    have hb := hnum.not_blank c List.mem_cons_self
    rw [he c hc] at hb
    cases hb

theorem operand_eq_error {cursor : Cursor} (he : EndsWord cursor.rest) :
    operand cursor = .error ⟨.guide, cursor.offset⟩ := by
  simp only [operand, Production.choice, Production.atomic, number_eq_none he, word_eq_none he]

end Grammar

variable {α : Type} [Scalar α]

open Grammar

theorem Operand.ofToken_of_numeral {token : String} {n : Numeral}
    (h : ofChars? token.toList = some n) :
    (ofToken token : Operand α)
      = match Scalar.ofNumeral? n with
        | some value => literal value
        | none => guide token := by
  cases hv : (Scalar.ofNumeral? n : Option α) with
  | none => simp only [ofToken, NumberText.ofChars?_of_numeral h, hv]
  | some value => simp only [ofToken, NumberText.ofChars?_of_numeral h, hv]

/-- A text that is no numeral is a name, the words for numbers that are not finite included. -/
theorem Operand.ofToken_of_not_isNumeral {token : String} (h : ¬ IsNumeral token.toList) :
    (ofToken token : Operand α) = guide token := by
  unfold ofToken
  split
  · next n hn => exact absurd hn (NumberText.ofChars?_ne_numeral (ofChars?_eq_none_iff.mpr h) n)
  · rfl
  · rfl
  · rfl

/-- A token is a literal that some numeral gives, or it is the name of a guide. -/
theorem Operand.ofToken_cases (token : String) :
    (∃ n value, Scalar.ofNumeral? n = some value ∧ (ofToken token : Operand α) = literal value)
      ∨ (ofToken token : Operand α) = guide token := by
  cases hn : Numeral.ofChars? token.toList with
  | none => exact .inr (ofToken_of_not_isNumeral (Numeral.ofChars?_eq_none_iff.mp hn))
  | some n =>
    rw [ofToken_of_numeral hn]
    cases hv : (Scalar.ofNumeral? n : Option α) with
    | none => exact .inr rfl
    | some value => exact .inl ⟨n, value, hv, rfl⟩

/-- At a word, `operand` takes the whole word, and its pair stands for the operand of that word. -/
theorem Grammar.operand_run {run rest : List Char} (hr : IsRun run) (he : EndsWord rest)
    (offset : Nat) :
    ∃ name, operand ⟨offset, run ++ rest⟩
        = .ok ([⟨name, run, offset, []⟩], Cursor.advance ⟨offset, run ++ rest⟩ run rest)
      ∧ name ≠ .endOfInput ∧ (name = .number ↔ IsNumeral run)
      ∧ (Operand.ofPair ⟨name, run, offset, []⟩ : Operand α) = .ofToken (String.ofList run) := by
  by_cases hn : IsNumeral run
  · refine ⟨.number, ?_, nofun, iff_of_true rfl hn, rfl⟩
    simp only [operand, Production.choice, Production.atomic, number_append hn he]
  · refine ⟨.guide, ?_, nofun, iff_of_false nofun hn, ?_⟩
    · simp only [operand, Production.choice, Production.atomic, number_run_none hr he hn,
        word_run hr he]
    · rw [Operand.ofToken_of_not_isNumeral (by simpa using hn)]
      rfl

end ShapeGeometry
