import ShapeGeometry.Binary64
import ShapeGeometry.Guide.Scope
import ShapeGeometry.Proofs.Binary64.Range
import ShapeGeometry.Proofs.Formula.Reading

/-!
Words are read in two places: as operands, by the grammar of formulas, and as references, by
`Operand.ofToken`.
-/

namespace ShapeGeometry

open Grammar Text

/-- The language `[+-]?(inf|infinity|nan)`, in letters of any case. -/
def NumberText.IsNotFinite (text : List Char) : Prop :=
  ∃ sign letters, Numeral.IsSign sign
    ∧ letters.map Char.toLower ∈ infinityWords ++ notANumberWords ∧ text = sign ++ letters

theorem NumberText.toLower_of_isDigit {c : Char} (h : c.isDigit = true) : c.toLower = c := by
  have hle := (Char.isDigit_iff_toNat.mp h).2
  have hupper : ¬ (c.val ≥ 'A'.val ∧ c.val ≤ 'Z'.val) := by
    rintro ⟨hge, -⟩
    have hnat : 'A'.toNat ≤ c.toNat := UInt32.le_iff_toNat_le.mp hge
    exact absurd (Nat.le_trans hnat hle) (by decide)
  exact dif_neg hupper

theorem NumberText.letters_cons {letters : List Char}
    (h : letters.map Char.toLower ∈ infinityWords ++ notANumberWords) :
    ∃ c cs, letters = c :: cs ∧ (c.toLower = 'i' ∨ c.toLower = 'n') := by
  cases letters with
  | nil => exact absurd h (by decide)
  | cons c cs =>
    refine ⟨c, cs, rfl, ?_⟩
    simp only [infinityWords, notANumberWords, List.map_cons, List.cons_append, List.nil_append,
      List.mem_cons, List.cons.injEq, List.not_mem_nil, or_false] at h
    rcases h with h | h | h
    · exact .inl h.1
    · exact .inl h.1
    · exact .inr h.1

/-- A numeral begins with a digit or a point after its sign, and so it is none of the words. -/
theorem NumberText.IsNotFinite.not_isNumeral {text : List Char} (h : IsNotFinite text) :
    ¬ Numeral.IsNumeral text := by
  obtain ⟨sign, letters, hs, hl, rfl⟩ := h
  obtain ⟨c, cs, rfl, hc⟩ := letters_cons hl
  rintro ⟨sign', fraction, power, hs', hf, -, ht⟩
  have hu : Numeral.Unsigned (c :: cs) := by
    rintro d ⟨⟩
    constructor
    · rintro rfl
      exact absurd hc (by decide)
    · rintro rfl
      exact absurd hc (by decide)
  have hsplit := Numeral.splitSign_append hs hu
  rw [ht, Numeral.splitSign_append hs' (hf.unsigned power)] at hsplit
  obtain ⟨d, ds, rfl⟩ := List.exists_cons_of_ne_nil hf.ne_nil
  have hcd : d = c := by
    have he := (Prod.mk.inj hsplit).2
    rw [List.cons_append] at he
    exact (List.cons.inj he).1
  subst hcd
  rcases hf.mem List.mem_cons_self with hd | rfl
  · rw [toLower_of_isDigit hd] at hc
    rcases hc with rfl | rfl
    · exact absurd hd (by decide)
    · exact absurd hd (by decide)
  · exact absurd hc (by decide)

variable {α : Type} [Scalar α]

/-- The value of a word, read as the operand of a formula that only passes it on. -/
theorem Scope.evaluate_val (scope : Scope α) {word : String} (hr : IsRun word.toList) :
    scope.evaluate ("val " ++ word)
      = if Scalar.isNaN ((Operand.ofToken word).value scope.get) then 0
        else (Operand.ofToken word).value scope.get := by
  have hval : IsRun "val".toList := by decide
  have hwords : ∀ w ∈ ["val", word], IsRun w.toList := by
    intro w hm
    rcases List.mem_cons.mp hm with rfl | hm
    · exact hval
    · rcases List.mem_singleton.mp hm with rfl
      exact hr
  have ht : Formula.tokens ("val " ++ word) = ["val", word] := by
    rw [← Formula.tokens_intercalate hwords]
    congr 1
  have hparse : Formula.parse ("val " ++ word) = .ok ⟨.val, [Operand.ofToken (α := α) word]⟩ := by
    rw [Formula.parse, Formula.read_tokens, ht]
    rfl
  rw [evaluate, hparse]
  rfl

theorem Scope.resolve_of_forall (scope : Scope α) {reference : String}
    (h : ∀ c ∈ reference.toList, isWhiteSpace c = false) :
    scope.resolve reference = (Operand.ofToken reference).value scope.get := by
  rw [resolve, trim, trimChars_of_forall h, String.ofList_toList]

/-- Numerals within the range of binary64 are literals, and those beyond it are names. -/
theorem Operand.ofToken_of_magnitude {token : String} {n : Numeral}
    (h : Numeral.ofChars? token.toList = some n) :
    (n.magnitude < Binary64.overflowBound →
        ∃ value, Binary64.ofNumeral? n = some value ∧ ofToken token = literal value)
      ∧ (Binary64.overflowBound ≤ n.magnitude → (ofToken token : Operand Float) = guide token) := by
  have htoken := ofToken_of_numeral (α := Float) h
  constructor
  · intro hlt
    have hsome : Binary64.ofNumeral? n ≠ none := by
      rw [ne_eq, Binary64.ofNumeral?_eq_none_iff]
      exact not_le.mpr hlt
    obtain ⟨value, hv⟩ := Option.ne_none_iff_exists'.mp hsome
    have hscalar : Scalar.ofNumeral? n = some value := hv
    rw [hscalar] at htoken
    exact ⟨value, hv, htoken⟩
  · intro hle
    have hscalar : (Scalar.ofNumeral? n : Option Float) = none :=
      (Binary64.ofNumeral?_eq_none_iff n).mpr hle
    rwa [hscalar] at htoken

/-- The grammar of formulas and the reading of references agree on every word. The grammar takes the
whole word as one operand, wherever the word ends, and it is the operand that the word is as a
reference: a literal for a numeral in range, a name for one that is out of range and for all that is no
numeral, the words for infinity and no number among them. So both give the word one value, up to what is
not a number. -/
theorem Operand.readers_agree {word : String} (hn : word ≠ "")
    (hb : ∀ c ∈ word.toList, isBlank c = false) :
    (∀ offset rest, EndsWord rest →
      ∃ pair, Grammar.operand ⟨offset, word.toList ++ rest⟩
          = .ok ([pair], ⟨offset + word.utf8ByteSize, rest⟩)
        ∧ pair.text = word.toList ∧ (pair.name = .number ↔ Numeral.IsNumeral word.toList)
        ∧ (ofPair pair : Operand Float) = ofToken word)
    ∧ (Grammar.number word.toList = some (word.toList, []) ↔ Numeral.IsNumeral word.toList)
    ∧ ((Numeral.ofChars? word.toList).isSome = true ↔ Numeral.IsNumeral word.toList)
    ∧ (∀ n, Numeral.ofChars? word.toList = some n →
        (n.magnitude < Binary64.overflowBound →
          ∃ value, Binary64.ofNumeral? n = some value ∧ ofToken word = literal value)
        ∧ (Binary64.overflowBound ≤ n.magnitude → (ofToken word : Operand Float) = guide word))
    ∧ (¬ Numeral.IsNumeral word.toList → (ofToken word : Operand Float) = guide word)
    ∧ (NumberText.IsNotFinite word.toList → ¬ Numeral.IsNumeral word.toList)
    ∧ ∀ scope : Scope Float, (∀ c ∈ word.toList, isWhiteSpace c = false) →
        scope.evaluate ("val " ++ word)
          = if Scalar.isNaN (scope.resolve word) then 0 else scope.resolve word := by
  have hr : IsRun word.toList := ⟨by simpa using hn, hb⟩
  refine ⟨?_, ?_, Numeral.ofChars?_isSome_iff, fun n => ofToken_of_magnitude,
    ofToken_of_not_isNumeral, fun hw => hw.not_isNumeral, ?_⟩
  · intro offset rest he
    obtain ⟨name, hok, -, hname, hpair⟩ := operand_run (α := Float) hr he offset
    rw [String.ofList_toList] at hpair
    refine ⟨_, hok.trans ?_, rfl, hname, hpair⟩
    rw [Cursor.advance, String.ofList_toList]
  · rw [number_eq_some_iff]
    constructor
    · rintro ⟨-, hnum, -⟩
      exact hnum
    · intro hnum
      exact ⟨(List.append_nil _).symm, hnum, .nil⟩
  · intro scope hs
    rw [scope.resolve_of_forall hs]
    exact scope.evaluate_val hr

theorem Operand.readers_agree_out_of_range :
    ("-1e400" ≠ "" ∧ ∀ c ∈ "-1e400".toList, isBlank c = false)
      ∧ Numeral.ofChars? "-1e400".toList = some ⟨true, 1, 400⟩
      ∧ (ofToken "-1e400" : Operand Float) = guide "-1e400"
      ∧ ∀ scope : Scope Float, scope.evaluate ("val " ++ "-1e400")
        = if Scalar.isNaN (scope.resolve "-1e400") then 0 else scope.resolve "-1e400" := by
  have hchars : Numeral.ofChars? "-1e400".toList = some ⟨true, 1, 400⟩ := rfl
  have hrange : (Binary64.overflowBound : Rat) ≤ Numeral.magnitude ⟨true, 1, 400⟩ :=
    Binary64.overflowBound_le_magnitude Nat.one_pos (by dsimp only; omega)
  have hne : "-1e400" ≠ "" := by decide
  have hrun : IsRun "-1e400".toList := by decide
  have hspace : ∀ c ∈ "-1e400".toList, isWhiteSpace c = false := by
    simp [isWhiteSpace, whiteSpaceRanges]
  obtain ⟨-, -, -, hnumeral, -, -, hvalue⟩ := readers_agree hne hrun.not_blank
  exact ⟨⟨hne, hrun.not_blank⟩, hchars, (hnumeral _ hchars).2 hrange,
    fun scope => hvalue scope hspace⟩

end ShapeGeometry
