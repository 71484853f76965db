import ShapeGeometry.Decimal.Numeral

/-!
The grammar of formula words. Rules match at the front of a text, repetition takes as much as it
can, and a choice is settled by the first alternative that matches. Blank has two meanings: the four
characters that separate the words of a formula, and Unicode's `White_Space`, which is trimmed from
references.
-/

namespace ShapeGeometry

namespace Text

/-- Separates the words of a formula. -/
def isBlank (c : Char) : Bool :=
  c = ' ' || c = '\t' || c = '\r' || c = '\n'

/-- The code points with the Unicode property `White_Space`, as closed ranges in rising order. -/
def whiteSpaceRanges : List (Nat × Nat) :=
  [(0x09, 0x0d), (0x20, 0x20), (0x85, 0x85), (0xa0, 0xa0), (0x1680, 0x1680), (0x2000, 0x200a),
   (0x2028, 0x2029), (0x202f, 0x202f), (0x205f, 0x205f), (0x3000, 0x3000)]

def isWhiteSpace (c : Char) : Bool :=
  whiteSpaceRanges.any fun (first, last) => first ≤ c.toNat && c.toNat ≤ last

/-- Takes white space off both ends. -/
def trimChars (text : List Char) : List Char :=
  ((text.dropWhile isWhiteSpace).reverse.dropWhile isWhiteSpace).reverse

def trim (text : String) : String :=
  String.ofList (trimChars text.toList)

/-- Text without white space is left alone. -/
theorem trimChars_of_forall {text : List Char} (h : ∀ c ∈ text, isWhiteSpace c = false) :
    trimChars text = text := by
  have keep : ∀ s : List Char, (∀ c ∈ s, isWhiteSpace c = false) → s.dropWhile isWhiteSpace = s := by
    intro s hs
    cases s with
    | nil => rfl
    | cons c r => simp [hs c (by simp)]
  rw [trimChars, keep text h, keep text.reverse (by simpa using h), List.reverse_reverse]

end Text

namespace Grammar

/-- Splits a text into what matches and what follows. -/
abbrev Rule :=
  List Char → Option (List Char × List Char)

namespace Rule

def one (p : Char → Bool) : Rule
  | [] => none
  | c :: rest => if p c then some ([c], rest) else none

def many (p : Char → Bool) : Rule :=
  fun text => some (text.takeWhile p, text.dropWhile p)

def seq (first second : Rule) : Rule := fun text =>
  match first text with
  | none => none
  | some (front, middle) => (second middle).map fun (back, rest) => (front ++ back, rest)

def choice (first second : Rule) : Rule :=
  fun text => (first text).or (second text)

def optional (rule : Rule) : Rule :=
  fun text => some ((rule text).getD ([], text))

def many1 (p : Char → Bool) : Rule :=
  (one p).seq (many p)

/-- No character is lost, and none is made up. -/
def Splits (rule : Rule) : Prop :=
  ∀ ⦃text front rest⦄, rule text = some (front, rest) → front ++ rest = text

/-- The rule matches at least one character. -/
def Advances (rule : Rule) : Prop :=
  ∀ ⦃text front rest⦄, rule text = some (front, rest) → front ≠ []

theorem one_splits (p : Char → Bool) : (one p).Splits := by
  intro text front rest h
  cases text with
  | nil => cases h
  | cons c cs =>
    simp only [one] at h
    split at h
    · cases h; rfl
    · cases h

theorem one_advances (p : Char → Bool) : (one p).Advances := by
  intro text front rest h
  cases text with
  | nil => cases h
  | cons c cs =>
    simp only [one] at h
    split at h
    · cases h; simp
    · cases h

theorem many_splits (p : Char → Bool) : (many p).Splits := by
  intro text front rest h
  cases h
  exact List.takeWhile_append_dropWhile

theorem seq_eq_some {first second : Rule} {text front rest : List Char}
    (h : first.seq second text = some (front, rest)) :
    ∃ head middle tail, first text = some (head, middle) ∧ second middle = some (tail, rest)
      ∧ front = head ++ tail := by
  unfold seq at h
  split at h
  · cases h
  · next head middle hf =>
    obtain ⟨⟨tail, rest'⟩, hs, he⟩ := Option.map_eq_some_iff.mp h
    cases he
    exact ⟨head, middle, tail, hf, hs, rfl⟩

theorem Splits.seq {first second : Rule} (hf : first.Splits) (hs : second.Splits) :
    (first.seq second).Splits := by
  intro text front rest h
  obtain ⟨head, middle, tail, h₁, h₂, rfl⟩ := seq_eq_some h
  rw [List.append_assoc, hs h₂, hf h₁]

theorem Advances.seq_right {first second : Rule} (hf : first.Advances) :
    (first.seq second).Advances := by
  intro text front rest h
  obtain ⟨head, middle, tail, h₁, h₂, rfl⟩ := seq_eq_some h
  simp [hf h₁]

theorem Advances.seq_left {first second : Rule} (hs : second.Advances) :
    (first.seq second).Advances := by
  intro text front rest h
  obtain ⟨head, middle, tail, h₁, h₂, rfl⟩ := seq_eq_some h
  simp [hs h₂]

theorem Splits.choice {first second : Rule} (hf : first.Splits) (hs : second.Splits) :
    (first.choice second).Splits := by
  intro text front rest h
  rcases Option.or_eq_some_iff.mp h with h | ⟨_, h⟩
  · exact hf h
  · exact hs h

theorem Advances.choice {first second : Rule} (hf : first.Advances) (hs : second.Advances) :
    (first.choice second).Advances := by
  intro text front rest h
  rcases Option.or_eq_some_iff.mp h with h | ⟨_, h⟩
  · exact hf h
  · exact hs h

theorem Splits.optional {rule : Rule} (hr : rule.Splits) : rule.optional.Splits := by
  intro text front rest h
  cases e : rule text with
  | none => simp [Rule.optional, e] at h; simp [← h.1, ← h.2]
  | some pair => simp [Rule.optional, e] at h; exact hr (h ▸ e)

theorem many1_splits (p : Char → Bool) : (many1 p).Splits :=
  (one_splits p).seq (many_splits p)

theorem many1_advances (p : Char → Bool) : (many1 p).Advances :=
  (one_advances p).seq_right

/-- What follows a match is shorter than the text. -/
theorem length_lt {rule : Rule} (hr : rule.Splits) (ha : rule.Advances)
    {text front rest : List Char} (h : rule text = some (front, rest)) :
    rest.length < text.length := by
  have hn := List.length_pos_iff.mpr (ha h)
  rw [← hr h, List.length_append]
  omega

end Rule

open Rule

def sign : Rule :=
  (one fun c => c = '+' || c = '-').optional

def digits : Rule :=
  many1 Char.isDigit

def point : Rule :=
  one (· = '.')

/-- Digits with at most one point, which may follow all of them or precede all of them. -/
def fraction : Rule :=
  (digits.seq (point.seq (many Char.isDigit)).optional).choice (point.seq digits)

def power : Rule :=
  ((one Numeral.isExponentMark).seq (sign.seq digits)).optional

/-- Matches nothing, at a blank or at the end of the text. -/
def wordEnd : Rule
  | [] => some ([], [])
  | c :: rest => if Text.isBlank c then some ([], c :: rest) else none

/-- A numeral that takes up the whole word. -/
def number : Rule :=
  sign.seq (fraction.seq (power.seq wordEnd))

def word : Rule :=
  many1 (!Text.isBlank ·)

theorem sign_splits : sign.Splits :=
  (one_splits _).optional

theorem fraction_splits : fraction.Splits :=
  ((many1_splits _).seq ((one_splits _).seq (many_splits _)).optional).choice
    ((one_splits _).seq (many1_splits _))

theorem fraction_advances : fraction.Advances :=
  (many1_advances _).seq_right.choice (one_advances _).seq_right

theorem power_splits : power.Splits :=
  ((one_splits _).seq (sign_splits.seq (many1_splits _))).optional

theorem wordEnd_splits : wordEnd.Splits := by
  intro text front rest h
  cases text with
  | nil => cases h; rfl
  | cons c cs =>
    simp only [wordEnd] at h
    split at h
    · cases h; rfl
    · cases h

theorem number_splits : number.Splits :=
  sign_splits.seq (fraction_splits.seq (power_splits.seq wordEnd_splits))

theorem number_advances : number.Advances :=
  fraction_advances.seq_right.seq_left

theorem word_splits : word.Splits :=
  many1_splits _

theorem word_advances : word.Advances :=
  many1_advances _

end Grammar

end ShapeGeometry
