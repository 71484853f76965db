import Mathlib.Data.List.TakeWhile
import ShapeGeometry.Formula.Grammar

namespace ShapeGeometry.Text

/-- The maximal runs of characters that are not blank, from left to right: the text is cut at every
blank, and the empty pieces are dropped. -/
def words (text : List Char) : List (List Char) :=
  (text.splitOnP isBlank).filter (· ≠ [])

/-- One or more characters, none of them blank. -/
structure IsRun (run : List Char) : Prop where
  ne_nil : run ≠ []
  not_blank : ∀ c ∈ run, isBlank c = false

instance (run : List Char) : Decidable (IsRun run) :=
  decidable_of_iff (run.isEmpty = false ∧ run.all (!isBlank ·) = true) <| by
    constructor
    · rintro ⟨hn, hb⟩
      exact ⟨by simpa using hn, by simpa using hb⟩
    · rintro ⟨hn, hb⟩
      exact ⟨by simpa using hn, by simpa using hb⟩

/-- What can follow a word: nothing, or a blank before anything else. -/
def EndsWord (rest : List Char) : Prop :=
  ∀ c ∈ rest.head?, isBlank c = true

theorem EndsWord.nil : EndsWord [] := by
  intro c hc
  cases hc

theorem endsWord_dropWhile (text : List Char) : EndsWord (text.dropWhile (!isBlank ·)) := by
  intro c hc
  have hs := List.head?_dropWhile_not (!isBlank ·) text
  rw [Option.mem_def.mp hc] at hs
  simpa using hs

theorem head_dropWhile_blank (text : List Char) :
    ∀ c ∈ (text.dropWhile isBlank).head?, isBlank c = false := by
  intro c hc
  have hs := List.head?_dropWhile_not isBlank text
  rw [Option.mem_def.mp hc] at hs
  simpa using hs

/-- Blanks are not in front of a text that has none in front. -/
theorem blanks_eq_nil {before rest : List Char} (hb : ∀ c ∈ before, isBlank c = true)
    (hh : ∀ c ∈ (before ++ rest).head?, isBlank c = false) : before = [] := by
  cases before with
  | nil => rfl
  | cons c cs =>
    have hc := hh c rfl
    rw [hb c List.mem_cons_self] at hc
    cases hc

@[simp] theorem words_nil : words [] = [] :=
  rfl

theorem words_append_blank (front rest : List Char) {c : Char} (hc : isBlank c = true) :
    words (front ++ c :: rest) = words front ++ words rest := by
  rw [words, List.splitOnP_append_cons front rest hc, List.filter_append]
  rfl

theorem words_cons_blank {c : Char} (hc : isBlank c = true) (rest : List Char) :
    words (c :: rest) = words rest :=
  words_append_blank [] rest hc

/-- Blanks in front make no difference. -/
theorem words_dropWhile_blank (text : List Char) :
    words (text.dropWhile isBlank) = words text := by
  induction text with
  | nil => rfl
  | cons c rest ih =>
    by_cases hc : isBlank c = true
    · rw [List.dropWhile_cons_of_pos hc, ih, words_cons_blank hc]
    · rw [List.dropWhile_cons_of_neg hc]

theorem words_run {run : List Char} (h : IsRun run) : words run = [run] := by
  rw [words, List.splitOnP_eq_singleton h.not_blank]
  simp [h.ne_nil]

/-- A run is the first word where it ends at a blank or at the end of the text. -/
theorem words_run_append {run rest : List Char} (h : IsRun run) (he : EndsWord rest) :
    words (run ++ rest) = run :: words rest := by
  cases rest with
  | nil => rw [List.append_nil, words_run h, words_nil]
  | cons c cs =>
    have hc : isBlank c = true := he c (by simp)
    rw [words_append_blank run cs hc, words_run h, words_cons_blank hc, List.singleton_append]

/-- Runs with one space between are the words of their text. -/
theorem words_intercalate {runs : List (List Char)} (h : ∀ run ∈ runs, IsRun run) :
    words ([' '].intercalate runs) = runs := by
  induction runs with
  | nil => rfl
  | cons run others ih =>
    have hr := h run List.mem_cons_self
    have ho := ih fun other hm => h other (List.mem_cons_of_mem _ hm)
    cases others with
    | nil => rw [List.intercalate_singleton, words_run hr]
    | cons next others =>
      rw [List.intercalate_cons_cons, List.append_assoc, List.singleton_append,
        words_append_blank run _ rfl, words_run hr, ho, List.singleton_append]

/-- A text is blank, or it begins with a run after its blanks. -/
theorem dropWhile_blank_cases (text : List Char) :
    text.dropWhile isBlank = [] ∨
      ∃ run rest, text.dropWhile isBlank = run ++ rest ∧ IsRun run ∧ EndsWord rest := by
  cases hd : text.dropWhile isBlank with
  | nil => exact .inl rfl
  | cons c cs =>
    right
    have hc : isBlank c = false := head_dropWhile_blank text c (by rw [hd]; rfl)
    refine ⟨(c :: cs).takeWhile (!isBlank ·), (c :: cs).dropWhile (!isBlank ·),
      List.takeWhile_append_dropWhile.symm, ⟨?_, ?_⟩, endsWord_dropWhile _⟩
    · simp [hc]
    · intro d hm
      simpa using List.mem_takeWhile_imp hm

/-- A text is blank, or it has a first word and the words of what follows that. -/
theorem words_cases (text : List Char) :
    (∀ c ∈ text, isBlank c = true) ∧ words text = [] ∨
      ∃ before run rest, text = before ++ (run ++ rest) ∧ (∀ c ∈ before, isBlank c = true)
        ∧ IsRun run ∧ EndsWord rest ∧ words text = run :: words rest := by
  have hw := words_dropWhile_blank text
  rcases dropWhile_blank_cases text with hd | ⟨run, rest, hd, hr, he⟩
  · refine .inl ⟨List.dropWhile_eq_nil_iff.mp hd, ?_⟩
    rw [← hw, hd, words_nil]
  · refine .inr ⟨text.takeWhile isBlank, run, rest, ?_, ?_, hr, he, ?_⟩
    · rw [← hd, List.takeWhile_append_dropWhile]
    · exact fun c hc => List.mem_takeWhile_imp hc
    · rw [← hw, hd, words_run_append hr he]

/-- The first word is what is taken up to a blank. -/
theorem takeWhile_run_append {run rest : List Char} (h : IsRun run) (he : EndsWord rest) :
    (run ++ rest).takeWhile (!isBlank ·) = run := by
  rw [List.takeWhile_append_of_pos (by simpa using h.not_blank)]
  cases rest with
  | nil => simp
  | cons c cs => simp [he c (by simp)]

/-- Two runs in front of one text that both end there are the same. -/
theorem run_unique {first second rest rest' : List Char} (h : IsRun first) (he : EndsWord rest)
    (h' : IsRun second) (he' : EndsWord rest') (ht : first ++ rest = second ++ rest') :
    first = second := by
  rw [← takeWhile_run_append h he, ht, takeWhile_run_append h' he']

theorem isRun_of_mem_words {text run : List Char} (hm : run ∈ words text) : IsRun run := by
  induction hn : text.length using Nat.strongRecOn generalizing text with
  | _ n ih =>
    rcases dropWhile_blank_cases text with hd | ⟨front, rest, hd, hr, he⟩
    · rw [← words_dropWhile_blank, hd, words_nil] at hm
      cases hm
    · rw [← words_dropWhile_blank, hd, words_run_append hr he] at hm
      rcases List.mem_cons.mp hm with rfl | hm
      · exact hr
      · have hl := (List.dropWhile_suffix isBlank (l := text)).length_le
        have hp := List.length_pos_iff.mpr hr.ne_nil
        rw [hd, List.length_append] at hl
        exact ih rest.length (by omega) hm rfl

end ShapeGeometry.Text
