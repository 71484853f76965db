import ShapeGeometry.Formula.Grammar

/-!
A reader of SVG path data. It takes a text apart by the rules of the format alone: a number or a flag goes
on as far as it can, blanks and at most one comma stand between arguments, and arguments that follow those
of a command belong to another command of the same kind.
-/

namespace ShapeGeometry.Svg.Reader

open Grammar Grammar.Rule

/-- What an argument is written as. A flag is one digit, whatever follows it. -/
inductive Kind where
  | number
  | flag
  deriving DecidableEq, Repr

/-- A sign, digits with at most one point, and a power of ten. -/
def number : Rule :=
  sign.seq (fraction.seq power)

def flag : Rule :=
  one fun c => c = '0' || c = '1'

def Kind.rule : Kind → Rule
  | number => Reader.number
  | flag => Reader.flag

/-- The arguments of the command with a letter; the small letter stands for relative coordinates. -/
def kinds? (letter : Char) : Option (List Kind) :=
  match letter.toLower with
  | 'm' | 'l' | 't' => some [.number, .number]
  | 'h' | 'v' => some [.number]
  | 's' | 'q' => some [.number, .number, .number, .number]
  | 'c' => some [.number, .number, .number, .number, .number, .number]
  | 'a' => some [.number, .number, .number, .flag, .flag, .number, .number]
  | 'z' => some []
  | _ => none

structure Command where
  letter : Char
  arguments : List String
  deriving DecidableEq, Repr

/-- The letter that arguments without a letter of their own stand for, after this command. -/
def Command.implied (command : Command) : Char :=
  match command.letter with
  | 'M' => 'L'
  | 'm' => 'l'
  | letter => letter

def skipBlanks (text : List Char) : List Char :=
  text.dropWhile Text.isBlank

/-- Skips blanks and at most one comma. -/
def skipSeparator (text : List Char) : List Char :=
  match skipBlanks text with
  | ',' :: rest => skipBlanks rest
  | rest => rest

/-- Reads arguments of the given kinds, with separators between them and `skip` in front. -/
def arguments : (List Char → List Char) → List Kind → List Char → Option (List String × List Char)
  | _, [], text => some ([], text)
  | skip, kind :: kinds, text =>
    match kind.rule (skip text) with
    | none => none
    | some (front, rest) =>
      (arguments skipSeparator kinds rest).map fun (others, last) => (String.ofList front :: others, last)

/-- Reads a command that begins with a letter, or arguments for the letter that is implied. -/
def command (implied : Option Char) : List Char → Option (Command × List Char)
  | [] => none
  | c :: rest =>
    match kinds? c with
    | some kinds =>
      (arguments skipBlanks kinds rest).map fun (arguments, last) => (⟨c, arguments⟩, last)
    | none =>
      match implied with
      | none => none
      | some letter =>
        match kinds? letter with
        | some (kind :: kinds) =>
          (arguments skipSeparator (kind :: kinds) (c :: rest)).map fun (arguments, last) =>
            (⟨letter, arguments⟩, last)
        | _ => none

theorem Kind.rule_splits (kind : Kind) : kind.rule.Splits := by
  cases kind with
  | number => exact sign_splits.seq (fraction_splits.seq power_splits)
  | flag => exact one_splits _

theorem Kind.rule_advances (kind : Kind) : kind.rule.Advances := by
  cases kind with
  | number =>
    change (sign.seq (fraction.seq power)).Advances
    exact fraction_advances.seq_right.seq_left
  | flag => exact one_advances _

theorem skipBlanks_length_le (text : List Char) : (skipBlanks text).length ≤ text.length :=
  (List.dropWhile_suffix _).length_le

theorem skipSeparator_length_le (text : List Char) : (skipSeparator text).length ≤ text.length := by
  have hb := skipBlanks_length_le text
  rw [skipSeparator]
  split
  · next rest he =>
    have hr := skipBlanks_length_le rest
    rw [he, List.length_cons] at hb
    omega
  · exact hb

/-- Nothing is put back, and an argument takes at least one character. -/
theorem arguments_length {skip : List Char → List Char} (hskip : ∀ t, (skip t).length ≤ t.length)
    {kinds : List Kind} {text last : List Char} {found : List String}
    (h : arguments skip kinds text = some (found, last)) :
    last.length + kinds.length ≤ text.length := by
  induction kinds generalizing skip text found with
  | nil =>
    cases h
    exact Nat.le_refl _
  | cons kind kinds ih =>
    rw [arguments] at h
    split at h
    · cases h
    · next front rest hr =>
      obtain ⟨⟨others, last'⟩, hm, he⟩ := Option.map_eq_some_iff.mp h
      cases he
      have hlt := length_lt kind.rule_splits kind.rule_advances hr
      have hle := ih skipSeparator_length_le hm
      have hs := hskip text
      rw [List.length_cons]
      omega

theorem command_length {implied : Option Char} {text last : List Char} {found : Command}
    (h : command implied text = some (found, last)) : last.length < text.length := by
  cases text with
  | nil => cases h
  | cons c rest =>
    simp only [command] at h
    split at h
    · next kinds hk =>
      obtain ⟨⟨args, last'⟩, hm, he⟩ := Option.map_eq_some_iff.mp h
      cases he
      have hle := arguments_length skipBlanks_length_le hm
      rw [List.length_cons]
      dsimp only
      omega
    · split at h
      · cases h
      split at h
      · obtain ⟨⟨args, last'⟩, hm, he⟩ := Option.map_eq_some_iff.mp h
        cases he
        have hle := arguments_length skipSeparator_length_le hm
        rw [List.length_cons] at hle
        dsimp only
        omega
      · cases h

/-- Reads commands up to the end of the text. -/
def commands (implied : Option Char) (text : List Char) : Option (List Command) :=
  if skipBlanks text = [] then some []
  else
    match _h : command implied (skipBlanks text) with
    | none => none
    | some (first, last) => (commands (some first.implied) last).map (first :: ·)
termination_by text.length
decreasing_by exact Nat.lt_of_lt_of_le (command_length _h) (skipBlanks_length_le text)

theorem commands_of_command {implied : Option Char} {text last : List Char} {first : Command}
    (h : command implied (skipBlanks text) = some (first, last)) :
    commands implied text = (commands (some first.implied) last).map (first :: ·) := by
  have hne : skipBlanks text ≠ [] := by
    intro he
    rw [he] at h
    cases h
  rw [commands, if_neg hne]
  split
  · next hn =>
    rw [h] at hn
    cases hn
  · next hs =>
    rw [h] at hs
    cases hs
    rfl

/-- Reads a whole text as path data. -/
def read? (text : String) : Option (List Command) :=
  commands none text.toList

end ShapeGeometry.Svg.Reader
