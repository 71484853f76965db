import Mathlib.Data.List.Forall2
import ShapeGeometry.Proofs.Formula.Lexing

namespace ShapeGeometry

open Grammar Text

variable {α : Type} [Scalar α]

namespace Grammar

theorem skipBlanks_blanks {before rest : List Char} (hb : ∀ c ∈ before, isBlank c = true)
    (hr : ∀ c ∈ rest.head?, isBlank c = false) (offset : Nat) :
    Cursor.skipBlanks ⟨offset, before ++ rest⟩
      = ⟨offset + (String.ofList before).utf8ByteSize, rest⟩ := by
  have hm := Rule.many_append hb hr
  simp only [Rule.many, Option.some.injEq, Prod.mk.injEq] at hm
  simp only [Cursor.skipBlanks, Cursor.advance, hm.1, hm.2]

theorem skipBlanks_of_forall {text : List Char} (hb : ∀ c ∈ text, isBlank c = true)
    (offset : Nat) :
    Cursor.skipBlanks ⟨offset, text⟩ = ⟨offset + (String.ofList text).utf8ByteSize, []⟩ := by
  have hn : ∀ c ∈ ([] : List Char).head?, isBlank c = false := by
    intro c hc
    cases hc
  have hs := skipBlanks_blanks hb hn offset
  rwa [List.append_nil] at hs

theorem head_of_isRun {run : List Char} (hr : IsRun run) (rest : List Char) :
    ∀ c ∈ (run ++ rest).head?, isBlank c = false := by
  obtain ⟨d, ds, rfl⟩ := List.exists_cons_of_ne_nil hr.ne_nil
  rintro c ⟨⟩
  exact hr.not_blank _ List.mem_cons_self

namespace Production

theorem seq_ok {first second : Production} {cursor middle last : Cursor}
    {front back : List Pair} (hf : first cursor = .ok (front, middle))
    (hs : second middle.skipBlanks = .ok (back, last)) :
    first.seq second cursor = .ok (front ++ back, last) := by
  simp only [seq, hf, hs, bind, Except.bind, pure, Except.pure]

theorem seq_error_right {first second : Production} {cursor middle : Cursor}
    {front : List Pair} {failure : Failure} (hf : first cursor = .ok (front, middle))
    (hs : second middle.skipBlanks = .error failure) :
    first.seq second cursor = .error failure := by
  simp only [seq, hf, hs, bind, Except.bind]

theorem seq_error_left {first second : Production} {cursor : Cursor} {failure : Failure}
    (hf : first cursor = .error failure) : first.seq second cursor = .error failure := by
  simp only [seq, hf, bind, Except.bind]

theorem node_ok {name : Name} {body : Production} {cursor last : Cursor} {inner : List Pair}
    (hb : body cursor = .ok (inner, last)) :
    ∃ text, node name body cursor = .ok ([⟨name, text, cursor.offset, inner⟩], last) := by
  simp only [node, hb, bind, Except.bind, pure, Except.pure]
  exact ⟨_, rfl⟩

theorem node_error {name : Name} {body : Production} {cursor : Cursor} {failure : Failure}
    (hb : body cursor = .error failure) : node name body cursor = .error failure := by
  simp only [node, hb, bind, Except.bind]

end Production

/-- The pairs are those of the words, one for each word and in their order. -/
structure ReadsWords (α : Type) [Scalar α] (words : List (List Char)) (pairs : List Pair) :
    Prop where
  operands : pairs.map (Operand.ofPair (α := α)) = words.map fun w => .ofToken (String.ofList w)
  name_ne : ∀ pair ∈ pairs, pair.name ≠ .endOfInput

theorem ReadsWords.nil : ReadsWords α [] [] :=
  ⟨rfl, by simp⟩

theorem ReadsWords.cons {run : List Char} {words : List (List Char)} {pair : Pair}
    {pairs : List Pair} (hn : pair.name ≠ .endOfInput)
    (hp : (Operand.ofPair pair : Operand α) = .ofToken (String.ofList run))
    (h : ReadsWords α words pairs) : ReadsWords α (run :: words) ([pair] ++ pairs) := by
  refine ⟨?_, ?_⟩
  · rw [List.singleton_append, List.map_cons, List.map_cons, hp, h.operands]
  · intro p hm
    rcases List.mem_cons.mp hm with rfl | hm
    · exact hn
    · exact h.name_ne p hm

/-- Repetition after blanks reads all words that are left, and leaves blanks. -/
theorem more_words (cursor : Cursor) :
    ReadsWords α (words cursor.rest) (Production.more operand operand_advances cursor).1
      ∧ (Production.more operand operand_advances cursor).2.skipBlanks.rest = [] := by
  induction hn : cursor.rest.length using Nat.strongRecOn generalizing cursor with
  | _ n ih =>
    obtain ⟨offset, text⟩ := cursor
    rw [Production.more]
    rcases words_cases text with ⟨hb, hw⟩ | ⟨before, run, rest, rfl, hb, hr, he, hw⟩
    · have hs := skipBlanks_of_forall hb offset
      have hf : operand (Cursor.skipBlanks ⟨offset, text⟩) = .error ⟨.guide, _⟩ :=
        operand_eq_error (by rw [hs]; exact .nil)
      split
      · dsimp only
        rw [hw, hs]
        exact ⟨.nil, rfl⟩
      · next hok => rw [hf] at hok; cases hok
    · have hs := skipBlanks_blanks hb (head_of_isRun hr rest) offset
      obtain ⟨name, hok, hname, -, hpair⟩ :=
        operand_run (α := α) hr he (offset + (String.ofList before).utf8ByteSize)
      rw [← hs] at hok
      split
      · next hf => rw [hok] at hf; cases hf
      · next front next hok' =>
        rw [hok] at hok'
        cases hok'
        have hlt : rest.length < n := by
          have hp := List.length_pos_iff.mpr hr.ne_nil
          simp only [List.length_append] at hn
          omega
        obtain ⟨hreads, hrest⟩ := ih rest.length hlt
          (Cursor.advance (Cursor.skipBlanks ⟨offset, before ++ (run ++ rest)⟩) run rest) rfl
        dsimp only
        rw [hw]
        rw [hs] at hreads hrest ⊢
        exact ⟨.cons hname hpair hreads, hrest⟩

/-- Where no blank stands in front, repetition reads all words too. -/
theorem star_words {cursor : Cursor} (hc : ∀ c ∈ cursor.rest.head?, isBlank c = false) :
    ∃ pairs next, Production.star operand operand_advances cursor = .ok (pairs, next)
      ∧ ReadsWords α (words cursor.rest) pairs ∧ next.skipBlanks.rest = [] := by
  obtain ⟨offset, text⟩ := cursor
  rcases words_cases text with ⟨hb, hw⟩ | ⟨before, run, rest, rfl, hb, hr, he, hw⟩
  · have ht : text = [] := blanks_eq_nil hb (by rwa [List.append_nil])
    subst ht
    have hf : operand ⟨offset, []⟩ = .error ⟨.guide, offset⟩ := operand_eq_error .nil
    refine ⟨[], ⟨offset, []⟩, ?_, .nil, rfl⟩
    simp only [Production.star, hf]
  · have hbefore := blanks_eq_nil hb hc
    subst hbefore
    rw [List.nil_append] at hw ⊢
    obtain ⟨name, hok, hname, -, hpair⟩ := operand_run (α := α) hr he offset
    obtain ⟨hreads, hrest⟩ :=
      more_words (α := α) (Cursor.advance ⟨offset, run ++ rest⟩ run rest)
    rw [hw]
    refine ⟨_, _, ?_, .cons hname hpair hreads, hrest⟩
    simp only [Production.star, hok]

/-- A blank text fails at its end, where an operator is expected. -/
theorem formula_blank {source : String} (hb : ∀ c ∈ source.toList, isBlank c = true) :
    formula (.start source) = .error ⟨.operator, source.utf8ByteSize⟩ := by
  have hstart : Production.startOfInput (.start source) = .ok ([], .start source) := rfl
  have hskip := skipBlanks_of_forall hb 0
  rw [String.ofList_toList, Nat.zero_add] at hskip
  have hword : word [] = none := word_eq_none .nil
  have hop : operator (Cursor.skipBlanks ⟨0, source.toList⟩)
      = .error ⟨.operator, source.utf8ByteSize⟩ := by
    rw [hskip]
    simp only [operator, Production.atomic, hword]
  exact Production.node_error
    (Production.seq_error_right hstart (Production.seq_error_left hop))

/-- The pairs inside that of the formula: the operator, the words after it, and the end. -/
theorem formula_words {source : String} {before run rest : List Char}
    (hs : source.toList = before ++ (run ++ rest)) (hb : ∀ c ∈ before, isBlank c = true)
    (hr : IsRun run) (he : EndsWord rest) :
    ∃ text pairs finish last, formula (.start source)
        = .ok ([⟨.formula, text, 0,
            ⟨.operator, run, (String.ofList before).utf8ByteSize, []⟩
              :: (pairs ++ [⟨.endOfInput, [], finish, []⟩])⟩], last)
      ∧ ReadsWords α (words rest) pairs := by
  have hstart : Production.startOfInput (.start source) = .ok ([], .start source) := rfl
  have hskip := skipBlanks_blanks hb (head_of_isRun hr rest) 0
  rw [Nat.zero_add] at hskip
  let middle : Cursor := Cursor.advance ⟨(String.ofList before).utf8ByteSize, run ++ rest⟩ run rest
  have hop : operator (Cursor.skipBlanks ⟨0, source.toList⟩)
      = .ok ([⟨.operator, run, (String.ofList before).utf8ByteSize, []⟩], middle) := by
    rw [hs, hskip]
    simp only [operator, Production.atomic, word_run hr he, middle]
  have hhead : ∀ c ∈ middle.skipBlanks.rest.head?, isBlank c = false := head_dropWhile_blank rest
  obtain ⟨pairs, next, hstar, hreads, hrest⟩ := star_words (α := α) hhead
  have hwords : words middle.skipBlanks.rest = words rest := words_dropWhile_blank rest
  rw [hwords] at hreads
  have hend : Production.endOfInput next.skipBlanks
      = .ok ([⟨.endOfInput, [], next.skipBlanks.offset, []⟩], next.skipBlanks) := by
    simp only [Production.endOfInput, hrest]
  have hbody := Production.seq_ok hstart
    (Production.seq_ok hop (Production.seq_ok hstar hend))
  obtain ⟨text, hnode⟩ : ∃ text, formula (.start source) = .ok ([⟨.formula, text, 0, _⟩], _) :=
    Production.node_ok hbody
  exact ⟨text, pairs, _, _, hnode, hreads⟩

end Grammar

namespace Formula

/-- A text without words is malformed at its end. -/
theorem read_blank {source : String} (hb : ∀ c ∈ source.toList, isBlank c = true) :
    (read source : Except FormulaError (Formula α))
      = .error (.malformed "expected operator" source ⟨source.utf8ByteSize, 0⟩) := by
  simp only [read, formula_blank hb, FormulaError.malformedAt, Nat.sub_self, Nat.zero_min]
  rfl

/-- The first word is looked up as the operator, and each word after it is an operand. -/
theorem read_words {source : String} {before run rest : List Char}
    (hs : source.toList = before ++ (run ++ rest)) (hb : ∀ c ∈ before, isBlank c = true)
    (hr : IsRun run) (he : EndsWord rest) :
    (read source : Except FormulaError (Formula α))
      = match Operator.ofKeyword? (String.ofList run) with
        | some operator =>
          .ok ⟨operator, (words rest).map fun w => .ofToken (String.ofList w)⟩
        | none => .error (.unknownOperatorAt source (String.ofList run)
            (String.ofList before).utf8ByteSize) := by
  obtain ⟨text, pairs, finish, last, hf, hreads⟩ := formula_words (α := α) hs hb hr he
  have hfilter : (pairs ++ [(⟨.endOfInput, [], finish, []⟩ : Pair)]).filter
      (fun pair => pair.name ≠ .endOfInput) = pairs := by
    rw [List.filter_append, List.filter_eq_self.mpr]
    · simp
    · intro pair hm
      simpa using hreads.name_ne pair hm
  simp only [read, hf, ofPairs, hfilter, hreads.operands, Operator.ofPair]
  cases Operator.ofKeyword? (String.ofList run) with
  | none => rfl
  | some operator => rfl

/-- The words of a text, as strings. -/
def tokens (source : String) : List String :=
  (words source.toList).map String.ofList

/-- The bytes in front of the first word. -/
def leadingBytes (source : String) : Nat :=
  (String.ofList (source.toList.takeWhile isBlank)).utf8ByteSize

end Formula

/-- The operand of a match that is one pair and leaves nothing. -/
def Operand.ofMatch? : Except Failure (List Pair × Cursor) → Option (Operand α)
  | .ok ([pair], ⟨_, []⟩) => some (ofPair pair)
  | _ => none

/-- The operand that is read from a word that stands alone. -/
def Operand.ofWord? (word : String) : Option (Operand α) :=
  ofMatch? (Grammar.operand (.start word))

theorem Operand.ofWord?_eq {word : String} (hr : IsRun word.toList) :
    (ofWord? word : Option (Operand α)) = some (ofToken word) := by
  obtain ⟨name, hok, -, -, hpair⟩ := operand_run (α := α) hr .nil 0
  rw [List.append_nil] at hok
  simp only [ofWord?, Cursor.start, hok, ofMatch?, Cursor.advance, hpair, String.ofList_toList]

namespace Formula

/-- A text is blank, or it is blanks, a first word, and a rest with the other words. -/
theorem tokens_cases (source : String) :
    (∀ c ∈ source.toList, isBlank c = true) ∧ tokens source = [] ∨
      ∃ before run rest, source.toList = before ++ (run ++ rest)
        ∧ (∀ c ∈ before, isBlank c = true) ∧ IsRun run ∧ EndsWord rest
        ∧ tokens source = String.ofList run :: (words rest).map String.ofList
        ∧ leadingBytes source = (String.ofList before).utf8ByteSize := by
  rcases words_cases source.toList with ⟨hb, hw⟩ | ⟨before, run, rest, hs, hb, hr, he, hw⟩
  · exact .inl ⟨hb, by rw [tokens, hw, List.map_nil]⟩
  · refine .inr ⟨before, run, rest, hs, hb, hr, he, by rw [tokens, hw, List.map_cons], ?_⟩
    have hm := Rule.many_append hb (head_of_isRun hr rest)
    simp only [Rule.many, Option.some.injEq, Prod.mk.injEq] at hm
    rw [leadingBytes, hs, hm.1]

/-- Words with one space between are the tokens of their text. -/
theorem tokens_intercalate {words : List String} (h : ∀ word ∈ words, IsRun word.toList) :
    tokens (" ".intercalate words) = words := by
  have hr : ∀ run ∈ words.map String.toList, IsRun run := by
    intro run hm
    obtain ⟨word, hw, rfl⟩ := List.mem_map.mp hm
    exact h word hw
  rw [tokens, String.toList_intercalate]
  rw [show " ".toList = [' '] from rfl, words_intercalate hr, List.map_map]
  simp [Function.comp_def]

theorem ofKeyword?_eq_none_iff {word : String} :
    Operator.ofKeyword? word = none ↔ word ∉ Operator.all.map Operator.keyword := by
  simp [Operator.ofKeyword?, List.find?_eq_none]

/-- What is read is decided by the words alone, but for the span of a failure. -/
theorem read_tokens (source : String) :
    (read source : Except FormulaError (Formula α))
      = match tokens source with
        | [] => .error (.malformed "expected operator" source ⟨source.utf8ByteSize, 0⟩)
        | keyword :: rest =>
          match Operator.ofKeyword? keyword with
          | some operator => .ok ⟨operator, rest.map .ofToken⟩
          | none => .error (.unknownOperatorAt source keyword (leadingBytes source)) := by
  rcases tokens_cases source with ⟨hb, ht⟩ | ⟨before, run, rest, hs, hb, hr, he, ht, hl⟩
  · rw [read_blank hb, ht]
  · rw [read_words hs hb hr he, ht, hl]
    simp only [List.map_map, Function.comp_def]

theorem read_malformed_iff {source reason text : String} {span : Span} :
    (read source : Except FormulaError (Formula α)) = .error (.malformed reason text span) ↔
      tokens source = [] ∧ reason = "expected operator" ∧ text = source
        ∧ span = ⟨source.utf8ByteSize, 0⟩ := by
  rw [read_tokens]
  cases tokens source with
  | nil =>
    simp only [Except.error.injEq, FormulaError.malformed.injEq, true_and]
    constructor
    · rintro ⟨rfl, rfl, rfl⟩
      exact ⟨rfl, rfl, rfl⟩
    · rintro ⟨rfl, rfl, rfl⟩
      exact ⟨rfl, rfl, rfl⟩
  | cons keyword rest =>
    cases hk : Operator.ofKeyword? keyword with
    | none => simp [hk, FormulaError.unknownOperatorAt]
    | some operator => simp [hk]

theorem read_unknownOperator_iff {source keyword text : String} {span : Span} :
    (read source : Except FormulaError (Formula α)) = .error (.unknownOperator keyword text span) ↔
      (∃ rest, tokens source = keyword :: rest) ∧ keyword ∉ Operator.all.map Operator.keyword
        ∧ text = source ∧ span = ⟨leadingBytes source, keyword.utf8ByteSize⟩ := by
  rw [read_tokens, ← ofKeyword?_eq_none_iff]
  cases tokens source with
  | nil => simp
  | cons word rest =>
    cases hk : Operator.ofKeyword? word with
    | none =>
      simp only [hk, FormulaError.unknownOperatorAt, Except.error.injEq,
        FormulaError.unknownOperator.injEq, List.cons.injEq, exists_and_left, exists_eq', and_true]
      constructor
      · rintro ⟨rfl, rfl, rfl⟩
        exact ⟨rfl, hk, rfl, rfl⟩
      · rintro ⟨rfl, -, rfl, rfl⟩
        exact ⟨rfl, rfl, rfl⟩
    | some operator =>
      simp only [hk, reduceCtorEq, List.cons.injEq, false_iff]
      rintro ⟨⟨_, rfl, _⟩, hn, -⟩
      rw [hk] at hn
      cases hn

theorem isRun_of_mem_tokens {source word : String} (h : word ∈ tokens source) :
    IsRun word.toList := by
  obtain ⟨run, hrun, rfl⟩ := List.mem_map.mp h
  rw [String.toList_ofList]
  exact isRun_of_mem_words hrun

/-- Words are read one by one, each of them alone. -/
theorem forall₂_ofWord? {source keyword : String} {rest : List String}
    (h : tokens source = keyword :: rest) :
    List.Forall₂ (fun word operand => (Operand.ofWord? word : Option (Operand α)) = some operand)
      rest (rest.map .ofToken) := by
  rw [List.forall₂_map_right_iff, List.forall₂_same]
  intro word hm
  have ht : word ∈ tokens source := h ▸ List.mem_cons_of_mem keyword hm
  exact Operand.ofWord?_eq (isRun_of_mem_tokens ht)

theorem read_ok_iff {source : String} {f : Formula α} :
    read source = .ok f ↔
      ∃ keyword rest, tokens source = keyword :: rest
        ∧ Operator.ofKeyword? keyword = some f.operator
        ∧ List.Forall₂ (fun word operand => Operand.ofWord? word = some operand)
          rest f.operands := by
  have hunique : Relator.RightUnique fun (word : String) (operand : Operand α) =>
      Operand.ofWord? word = some operand := by
    intro word first second hf hs
    exact Option.some.inj (hf.symm.trans hs)
  rw [read_tokens]
  cases ht : tokens source with
  | nil => simp
  | cons keyword rest =>
    have hwords := forall₂_ofWord? (α := α) ht
    cases hk : Operator.ofKeyword? keyword with
    | none =>
      simp only [hk, reduceCtorEq, List.cons.injEq, false_iff]
      rintro ⟨_, _, ⟨rfl, -⟩, hn, -⟩
      rw [hk] at hn
      cases hn
    | some operator =>
      simp only [hk]
      constructor
      · rintro ⟨⟩
        exact ⟨keyword, rest, rfl, hk, hwords⟩
      · rintro ⟨_, _, ⟨⟩, ho, hf⟩
        rw [hk] at ho
        rw [List.right_unique_forall₂' hunique hwords hf, Option.some.inj ho]

/-- The bytes at the span of the first word are those of the word, of whatever characters. -/
theorem extract_first {source keyword : String} {rest : List String}
    (h : tokens source = keyword :: rest) :
    source.toByteArray.extract (leadingBytes source) (leadingBytes source + keyword.utf8ByteSize)
      = keyword.toByteArray := by
  rcases tokens_cases source with ⟨-, ht⟩ | ⟨before, run, left, hs, -, -, -, ht, hl⟩
  · rw [ht] at h
    cases h
  · rw [ht] at h
    cases h
    have hb : source.toByteArray = (String.ofList before).toByteArray
        ++ ((String.ofList run).toByteArray ++ (String.ofList left).toByteArray) := by
      rw [← String.toByteArray_append, ← String.toByteArray_append, ← String.ofList_append,
        ← String.ofList_append, ← hs, String.ofList_toList]
    have hfront := ByteArray.extract_append_size_add (a := (String.ofList before).toByteArray)
      (b := (String.ofList run).toByteArray ++ (String.ofList left).toByteArray)
      (i := 0) (j := (String.ofList run).toByteArray.size)
    rw [hl, hb]
    exact hfront.trans (ByteArray.extract_append_eq_left rfl)

/-- Reading is decided by the words of the text. It fails at the end of a text without words, at a
first word that is no keyword, and nowhere else; otherwise the first word is the operator, and the
others are the operands, one for each word and each read alone. -/
theorem parse_iff_tokens (source : String) :
    (∀ reason text span, (parse source : Except FormulaError (Formula α))
        = .error (.malformed reason text span) ↔
      tokens source = [] ∧ reason = "expected operator" ∧ text = source
        ∧ span = ⟨source.utf8ByteSize, 0⟩)
    ∧ (∀ keyword text span, (parse source : Except FormulaError (Formula α))
        = .error (.unknownOperator keyword text span) ↔
      (∃ rest, tokens source = keyword :: rest) ∧ keyword ∉ Operator.all.map Operator.keyword
        ∧ text = source ∧ span = ⟨leadingBytes source, keyword.utf8ByteSize⟩)
    ∧ (∀ keyword rest, tokens source = keyword :: rest →
      source.toByteArray.extract (leadingBytes source)
        (leadingBytes source + keyword.utf8ByteSize) = keyword.toByteArray)
    ∧ (∀ f : Formula α, parse source = .ok f ↔
      ∃ keyword rest, tokens source = keyword :: rest
        ∧ Operator.ofKeyword? keyword = some f.operator
        ∧ List.Forall₂ (fun word operand => Operand.ofWord? word = some operand) rest f.operands)
    ∧ (ofString source : Except FormulaError (Formula α)) = parse source :=
  ⟨fun _ _ _ => read_malformed_iff, fun _ _ _ => read_unknownOperator_iff,
    fun _ _ => extract_first, fun _ => read_ok_iff, rfl⟩

end Formula

end ShapeGeometry
