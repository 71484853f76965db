import ShapeGeometry.Binary64
import ShapeGeometry.Formula.Printer
import ShapeGeometry.Guide.Scope
import ShapeGeometry.Proofs.Decimal.ReadBack
import ShapeGeometry.Proofs.Formula.Reading

namespace ShapeGeometry

open Text

/-- What a word can stand for: a finite number, or a name that is one word and no literal. -/
def Operand.WellFormed : Operand Float → Prop
  | literal value => value.isFinite = true
  | guide name =>
    name ≠ "" ∧ (∀ c ∈ name.toList, isBlank c = false)
      ∧ ∀ value : Float, ofToken name ≠ literal value

def Formula.WellFormed (f : Formula Float) : Prop :=
  ∀ operand ∈ f.operands, operand.WellFormed

namespace Operand

/-- A token that is no literal is the name of a guide. -/
theorem ofToken_eq_guide_iff {token : String} :
    (ofToken token : Operand Float) = guide token ↔
      ∀ value : Float, ofToken token ≠ literal value := by
  constructor
  · intro hg value hv
    rw [hg] at hv
    cases hv
  · intro h
    rcases ofToken_cases (α := Float) token with ⟨n, value, -, hv⟩ | hg
    · exact absurd hv (h value)
    · exact hg

instance : DecidablePred WellFormed
  | literal value => inferInstanceAs (Decidable (value.isFinite = true))
  | guide name =>
    decidable_of_iff (IsRun name.toList ∧ (ofToken name : Operand Float) = guide name) <| by
      rw [ofToken_eq_guide_iff, WellFormed]
      constructor
      · rintro ⟨hr, ht⟩
        exact ⟨by simpa using hr.ne_nil, hr.not_blank, ht⟩
      · rintro ⟨hn, hb, ht⟩
        exact ⟨⟨by simpa using hn, hb⟩, ht⟩

theorem isRun_text {operand : Operand Float} (h : operand.WellFormed) :
    IsRun operand.text.toList := by
  cases operand with
  | literal value =>
    obtain ⟨n, hn, -⟩ := Decimal.ofChars?_chars_of_isFinite h
    have hnum := Numeral.isNumeral_of_ofChars? hn
    rw [text, Decimal.text, String.toList_ofList]
    exact ⟨hnum.ne_nil, hnum.not_blank⟩
  | guide name =>
    obtain ⟨hn, hb, -⟩ := h
    exact ⟨by simpa [text] using hn, hb⟩

theorem ofToken_text {operand : Operand Float} (h : operand.WellFormed) :
    ofToken operand.text = operand := by
  cases operand with
  | literal value =>
    obtain ⟨n, hn, hv⟩ := Decimal.ofChars?_chars_of_isFinite h
    have hchars : Numeral.ofChars? (text (literal value)).toList = some n := by
      rw [text, Decimal.text, String.toList_ofList, hn]
    have hvalue : Scalar.ofNumeral? n = some value := hv
    rw [ofToken_of_numeral hchars, hvalue]
  | guide name =>
    exact ofToken_eq_guide_iff.mpr h.2.2

/-- What a word is read as can be written. -/
theorem wellFormed_ofToken {word : String} (hr : IsRun word.toList) :
    (ofToken word : Operand Float).WellFormed := by
  rcases ofToken_cases (α := Float) word with ⟨n, value, hn, hv⟩ | hg
  · rw [hv]
    exact Decimal.isFinite_of_ofNumeral? hn
  · rw [hg]
    exact ⟨by simpa using hr.ne_nil, hr.not_blank, ofToken_eq_guide_iff.mp hg⟩

end Operand

theorem Operator.isRun_keyword (op : Operator) : IsRun op.keyword.toList := by
  cases op <;> decide

namespace Formula

instance (f : Formula Float) : Decidable f.WellFormed :=
  inferInstanceAs (Decidable (∀ operand ∈ f.operands, operand.WellFormed))

/-- The tokens of a formula's text are its keyword and the texts of its operands. -/
theorem tokens_text {f : Formula Float} (h : f.WellFormed) :
    tokens f.text = f.operator.keyword :: f.operands.map Operand.text := by
  apply tokens_intercalate
  intro word hm
  rcases List.mem_cons.mp hm with rfl | hm
  · exact f.operator.isRun_keyword
  · obtain ⟨operand, ho, rfl⟩ := List.mem_map.mp hm
    exact Operand.isRun_text (h operand ho)

theorem parse_text {f : Formula Float} (h : f.WellFormed) : parse f.text = .ok f := by
  have hoperands : (f.operands.map Operand.text).map Operand.ofToken = f.operands := by
    rw [List.map_map, ← List.map_id f.operands, List.map_map]
    apply List.map_congr_left
    intro operand ho
    exact Operand.ofToken_text (h operand ho)
  rw [parse, read_tokens, tokens_text h]
  simp only [Operator.ofKeyword?_keyword, hoperands]

example : WellFormed ⟨.val, [.literal (Binary64.zero true), .guide "1e999", .guide "-inf",
    .guide "3cd4"]⟩ := by
  decide

theorem wellFormed_of_parse {source : String} {f : Formula Float} (h : parse source = .ok f) :
    f.WellFormed := by
  rw [parse, read_tokens] at h
  cases ht : tokens source with
  | nil =>
    rw [ht] at h
    cases h
  | cons keyword rest =>
    cases hk : Operator.ofKeyword? keyword with
    | none =>
      simp only [ht, hk] at h
      cases h
    | some operator =>
      simp only [ht, hk] at h
      cases h
      intro operand ho
      obtain ⟨word, hw, rfl⟩ := List.mem_map.mp ho
      have hmem : word ∈ tokens source := ht ▸ List.mem_cons_of_mem keyword hw
      exact Operand.wellFormed_ofToken (isRun_of_mem_tokens hmem)

/-- Writing and reading are inverse. A formula whose parts can be words is read back from its text, bit for
bit, with as many operands as it has. Every formula that is read from some text is of this kind; its text is
the normal form of that text, and has the same value in every scope. -/
theorem round_trip :
    (∀ f : Formula Float, f.WellFormed → parse f.text = .ok f)
    ∧ ∀ (source : String) (f : Formula Float), parse source = .ok f →
      f.WellFormed ∧ parse f.text = .ok f
      ∧ (∀ again : Formula Float, parse f.text = .ok again → again.text = f.text)
      ∧ ∀ scope : Scope Float, scope.evaluate source = scope.evaluate f.text := by
  refine ⟨fun f => parse_text, ?_⟩
  intro source f h
  have hf := wellFormed_of_parse h
  have hread := parse_text hf
  refine ⟨hf, hread, ?_, ?_⟩
  · intro again ha
    rw [hread] at ha
    cases ha
    rfl
  · intro scope
    rw [Scope.evaluate, Scope.evaluate, h, hread]

end Formula

end ShapeGeometry
