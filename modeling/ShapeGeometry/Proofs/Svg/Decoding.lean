import Mathlib.Data.List.Forall2
import ShapeGeometry.Binary64
import ShapeGeometry.Proofs.Decimal.Plain
import ShapeGeometry.Proofs.Formula.Lexing
import ShapeGeometry.Proofs.Svg.Emission
import ShapeGeometry.Proofs.Svg.Reader

namespace ShapeGeometry.Svg

open Grammar Numeral Reader

/-- What can follow an argument: nothing, or what no number goes on with. -/
def EndsArgument (rest : List Char) : Prop :=
  ∀ c ∈ rest.head?, c.isDigit = false ∧ c ≠ '.' ∧ isExponentMark c = false

theorem EndsArgument.nil : EndsArgument [] :=
  nofun

theorem endsArgument_cons {c : Char} (h : c.isDigit = false ∧ c ≠ '.' ∧ isExponentMark c = false)
    (rest : List Char) : EndsArgument (c :: rest) := by
  rintro d ⟨⟩
  exact h

/-- An argument begins right here: no blank and no comma is skipped. -/
def BeginsArgument (text : List Char) : Prop :=
  ∀ c ∈ text.head?, Text.isBlank c = false ∧ c ≠ ','

theorem skipBlanks_of_begins {text : List Char} (h : BeginsArgument text) :
    skipBlanks text = text := by
  cases text with
  | nil => rfl
  | cons c rest => simp [skipBlanks, (h c rfl).1]

theorem skipSeparator_of_begins {text : List Char} (h : BeginsArgument text) :
    skipSeparator text = text := by
  rw [skipSeparator, skipBlanks_of_begins h]
  split
  · exact absurd rfl (h ',' rfl).2
  · rfl

theorem skipSeparator_cons {c : Char} (hc : c = ',' ∨ c = ' ') {text : List Char}
    (h : BeginsArgument text) : skipSeparator (c :: text) = text := by
  rcases hc with rfl | rfl
  · have hcomma : skipBlanks (',' :: text) = ',' :: text := rfl
    rw [skipSeparator, hcomma]
    exact skipBlanks_of_begins h
  · have hspace : skipBlanks (' ' :: text) = skipBlanks text := rfl
    rw [skipSeparator, hspace]
    exact skipSeparator_of_begins h

inductive Argument where
  | number (value : Float)
  | flag (value : Bool)

namespace Argument

def kind : Argument → Kind
  | number _ => .number
  | flag _ => .flag

def chars : Argument → List Char
  | number value => Number.chars value
  | flag value => [flagChar value]

def text (argument : Argument) : String :=
  String.ofList argument.chars

end Argument

theorem number_of_isPlain {text rest : List Char} (ht : IsPlain text) (hr : EndsArgument rest) :
    Reader.number (text ++ rest) = some (text, rest) := by
  obtain ⟨sign, whole, places, hs, hw, hp, rfl⟩ := ht
  have hf := Decimal.isFraction_pointed hw hp
  have hsign : IsSign sign := hs.imp_right Or.inr
  have hpower : power rest = some ([], rest) := by
    apply Rule.optional_none
    apply Rule.seq_none_left
    exact Rule.one_eq_none fun c hc => (hr c hc).2.2
  have hfraction := Rule.seq_some
    (fraction_append hf fun c hc => ⟨(hr c hc).1, (hr c hc).2.1⟩) hpower
  have hnumber := Rule.seq_some (sign_append hsign (hf.unsigned rest)) hfraction
  rw [List.append_nil] at hnumber
  rwa [List.append_assoc]

/-- A number begins with a digit or a minus. -/
theorem begins_of_isPlain {text : List Char} (h : IsPlain text) (rest : List Char) :
    BeginsArgument (text ++ rest) := by
  obtain ⟨sign, whole, places, hs, hw, hp, rfl⟩ := h
  have hf := Decimal.isFraction_pointed hw hp
  obtain ⟨d, ds, hd⟩ := List.exists_cons_of_ne_nil hf.ne_nil
  rw [hd]
  rcases hs with rfl | rfl
  · rintro c ⟨⟩
    rcases hf.mem (hd ▸ List.mem_cons_self) with hdigit | rfl
    · refine ⟨?_, ne_of_isDigit hdigit rfl⟩
      have hnumeral : IsNumeral (d :: ds) :=
        ⟨[], d :: ds, [], .inl rfl, hd ▸ hf, .absent, by simp⟩
      exact hnumeral.not_blank d List.mem_cons_self
    · decide
  · rintro c ⟨⟩
    decide

theorem Argument.begins (argument : Argument) (rest : List Char) :
    BeginsArgument (argument.chars ++ rest) := by
  cases argument with
  | number value => exact begins_of_isPlain (Number.isPlain_chars value) rest
  | flag value =>
    rintro c ⟨⟩
    cases value <;> decide

/-- The rule for an argument takes all of it, and nothing else. -/
theorem Argument.rule_chars (argument : Argument) {rest : List Char} (h : EndsArgument rest) :
    argument.kind.rule (argument.chars ++ rest) = some (argument.chars, rest) := by
  cases argument with
  | number value => exact number_of_isPlain (Number.isPlain_chars value) h
  | flag value =>
    change Reader.flag (flagChar value :: rest) = some ([flagChar value], rest)
    apply Rule.one_cons
    cases value <;> decide

/-- Arguments behind their separators. -/
def spacedChars (others : List (Char × Argument)) : List Char :=
  others.flatMap fun other => other.1 :: other.2.chars

theorem endsArgument_spaced {others : List (Char × Argument)}
    (hs : ∀ other ∈ others, other.1 = ',' ∨ other.1 = ' ') {rest : List Char}
    (h : EndsArgument rest) : EndsArgument (spacedChars others ++ rest) := by
  cases others with
  | nil => exact h
  | cons other others =>
    apply endsArgument_cons
    rcases hs other List.mem_cons_self with he | he
    · rw [he]
      decide
    · rw [he]
      decide

theorem arguments_spaced (first : Argument) {others : List (Char × Argument)}
    (hs : ∀ other ∈ others, other.1 = ',' ∨ other.1 = ' ') {rest : List Char}
    (h : EndsArgument rest) {skip : List Char → List Char} {text : List Char}
    (hskip : skip text = first.chars ++ (spacedChars others ++ rest)) :
    arguments skip (first.kind :: others.map (·.2.kind)) text
      = some (first.text :: others.map (·.2.text), rest) := by
  induction others generalizing first skip text with
  | nil =>
    simp only [arguments, hskip, spacedChars, List.flatMap_nil, List.nil_append, List.map_nil,
      first.rule_chars h, Option.map_some, Argument.text]
  | cons other others ih =>
    have hothers : ∀ o ∈ others, o.1 = ',' ∨ o.1 = ' ' :=
      fun o hm => hs o (List.mem_cons_of_mem _ hm)
    have hends := endsArgument_spaced hs h
    have hnext : skipSeparator (spacedChars (other :: others) ++ rest)
        = other.2.chars ++ (spacedChars others ++ rest) := by
      rw [spacedChars, List.flatMap_cons, List.cons_append, List.cons_append, List.append_assoc]
      exact skipSeparator_cons (hs other List.mem_cons_self) (other.2.begins _)
    have hmore := ih other.2 hothers hnext
    rw [arguments, hskip, first.rule_chars hends]
    simp only [List.map_cons, hmore, Option.map_some, Argument.text]

/-- The segment as a reader sees it: a letter, the texts of numbers, and flags. -/
def Segment.command : Segment Float → Command
  | moveTo p => ⟨'M', [Number.text p.x, Number.text p.y]⟩
  | lineTo p => ⟨'L', [Number.text p.x, Number.text p.y]⟩
  | cubicTo c1 c2 p =>
    ⟨'C', [Number.text c1.x, Number.text c1.y, Number.text c2.x, Number.text c2.y,
      Number.text p.x, Number.text p.y]⟩
  | quadTo c p => ⟨'Q', [Number.text c.x, Number.text c.y, Number.text p.x, Number.text p.y]⟩
  | arcTo radii rotation large sweep p =>
    ⟨'A', [Number.text radii.x, Number.text radii.y, Number.text rotation, if large then "1" else "0",
      if sweep then "1" else "0", Number.text p.x, Number.text p.y]⟩
  | close => ⟨'Z', []⟩

theorem Segment.head_chars (segment : Segment Float) :
    ∃ rest, segment.chars = segment.command.letter :: rest := by
  cases segment <;> exact ⟨_, rfl⟩

theorem letter_ends (segment : Segment Float) :
    let c := segment.command.letter
    c.isDigit = false ∧ c ≠ '.' ∧ isExponentMark c = false ∧ Text.isBlank c = false := by
  cases segment <;> simp only [Segment.command] <;> decide

theorem endsArgument_segments (segments : List (Segment Float)) :
    EndsArgument (segments.flatMap Segment.chars) := by
  cases segments with
  | nil => exact .nil
  | cons segment segments =>
    obtain ⟨rest, hr⟩ := segment.head_chars
    obtain ⟨hd, hp, he, -⟩ := letter_ends segment
    rw [List.flatMap_cons, hr]
    exact endsArgument_cons ⟨hd, hp, he⟩ _

theorem command_of_layout {segment : Segment Float} (first : Argument)
    (others : List (Char × Argument))
    (hkinds : kinds? segment.command.letter = some (first.kind :: others.map (·.2.kind)))
    (hspaced : ∀ other ∈ others, other.1 = ',' ∨ other.1 = ' ')
    (hchars : segment.chars = segment.command.letter :: (first.chars ++ spacedChars others))
    (harguments : segment.command.arguments = first.text :: others.map (·.2.text))
    (implied : Option Char) {rest : List Char} (h : EndsArgument rest) :
    command implied (segment.chars ++ rest) = some (segment.command, rest) := by
  have hskip : skipBlanks (first.chars ++ (spacedChars others ++ rest))
      = first.chars ++ (spacedChars others ++ rest) := skipBlanks_of_begins (first.begins _)
  have hread := arguments_spaced first hspaced h hskip
  rw [← harguments] at hread
  rw [hchars, List.cons_append, List.append_assoc]
  simp only [command, hkinds, hread, Option.map_some]

/-- A segment is read from its front, and no further. -/
theorem command_chars (implied : Option Char) (segment : Segment Float) {rest : List Char}
    (h : EndsArgument rest) :
    command implied (segment.chars ++ rest) = some (segment.command, rest) := by
  cases segment with
  | moveTo p =>
    exact command_of_layout (.number p.x) [(',', .number p.y)] rfl (by simp)
      (by simp [Segment.chars, Segment.command, pairChars, spacedChars, Argument.chars]) rfl implied h
  | lineTo p =>
    exact command_of_layout (.number p.x) [(',', .number p.y)] rfl (by simp)
      (by simp [Segment.chars, Segment.command, pairChars, spacedChars, Argument.chars]) rfl implied h
  | cubicTo c1 c2 p =>
    exact command_of_layout (.number c1.x)
      [(',', .number c1.y), (' ', .number c2.x), (',', .number c2.y), (' ', .number p.x),
        (',', .number p.y)] rfl (by simp)
      (by simp [Segment.chars, Segment.command, pairChars, spacedChars, Argument.chars]) rfl implied h
  | quadTo c p =>
    exact command_of_layout (.number c.x)
      [(',', .number c.y), (' ', .number p.x), (',', .number p.y)] rfl (by simp)
      (by simp [Segment.chars, Segment.command, pairChars, spacedChars, Argument.chars]) rfl implied h
  | arcTo radii rotation large sweep p =>
    exact command_of_layout (.number radii.x)
      [(',', .number radii.y), (' ', .number rotation), (' ', .flag large), (',', .flag sweep),
        (' ', .number p.x), (',', .number p.y)] rfl (by simp)
      (by simp [Segment.chars, Segment.command, pairChars, spacedChars, Argument.chars])
      (by cases large <;> cases sweep <;> rfl) implied h
  | close => rfl

theorem commands_segments (implied : Option Char) (segments : List (Segment Float)) :
    commands implied (segments.flatMap Segment.chars) = some (segments.map Segment.command) := by
  induction segments generalizing implied with
  | nil =>
    rw [commands]
    rfl
  | cons segment segments ih =>
    have hskip : skipBlanks (segment.chars ++ segments.flatMap Segment.chars)
        = segment.chars ++ segments.flatMap Segment.chars := by
      obtain ⟨tail, ht⟩ := segment.head_chars
      obtain ⟨-, -, -, hb⟩ := letter_ends segment
      simp [skipBlanks, ht, hb]
    have hcommand := command_chars implied segment (endsArgument_segments segments)
    rw [← hskip] at hcommand
    rw [List.flatMap_cons, commands_of_command hcommand, ih, Option.map_some, List.map_cons]

def pairText (p : Point Float) : String :=
  Number.text p.x ++ "," ++ Number.text p.y

def pairArguments (p : Point Float) : List String :=
  [Number.text p.x, Number.text p.y]

/-- The shapes `Mn,n`, `Ln,n`, `Cn,n n,n n,n`, `Qn,n n,n`, `An,n n f,f n,n` and `Z`, where `n` is the text of
a number and `f` is `0` or `1`. -/
inductive Written : Command → String → Prop
  | moveTo (p : Point Float) : Written ⟨'M', pairArguments p⟩ ("M" ++ pairText p)
  | lineTo (p : Point Float) : Written ⟨'L', pairArguments p⟩ ("L" ++ pairText p)
  | cubicTo (c1 c2 p : Point Float) :
    Written ⟨'C', pairArguments c1 ++ pairArguments c2 ++ pairArguments p⟩
      ("C" ++ pairText c1 ++ " " ++ pairText c2 ++ " " ++ pairText p)
  | quadTo (c p : Point Float) :
    Written ⟨'Q', pairArguments c ++ pairArguments p⟩ ("Q" ++ pairText c ++ " " ++ pairText p)
  | arcTo (radii : Point Float) (rotation : Float) {large sweep : String}
    (hl : large = "0" ∨ large = "1") (hs : sweep = "0" ∨ sweep = "1") (p : Point Float) :
    Written ⟨'A', pairArguments radii ++ [Number.text rotation, large, sweep] ++ pairArguments p⟩
      ("A" ++ pairText radii ++ " " ++ Number.text rotation ++ " " ++ large ++ "," ++ sweep ++ " "
        ++ pairText p)
  | close : Written ⟨'Z', []⟩ "Z"

theorem toList_pairText (p : Point Float) : (pairText p).toList = pairChars p := by
  simp [pairText, pairChars, Number.text]

theorem toList_flagText (flag : Bool) : (if flag then "1" else "0").toList = [flagChar flag] := by
  cases flag <;> rfl

theorem Segment.written (segment : Segment Float) :
    Written segment.command (String.ofList segment.chars) := by
  have hflag : ∀ flag : Bool, (if flag then "1" else "0") = "0" ∨ (if flag then "1" else "0") = "1" := by
    decide
  cases segment with
  | moveTo p =>
    have ht : String.ofList (moveTo p).chars = "M" ++ pairText p := by
      simp [String.ext_iff, chars, toList_pairText]
    exact ht ▸ .moveTo p
  | lineTo p =>
    have ht : String.ofList (lineTo p).chars = "L" ++ pairText p := by
      simp [String.ext_iff, chars, toList_pairText]
    exact ht ▸ .lineTo p
  | cubicTo c1 c2 p =>
    have ht : String.ofList (cubicTo c1 c2 p).chars
        = "C" ++ pairText c1 ++ " " ++ pairText c2 ++ " " ++ pairText p := by
      simp [String.ext_iff, chars, toList_pairText]
    exact ht ▸ .cubicTo c1 c2 p
  | quadTo c p =>
    have ht : String.ofList (quadTo c p).chars = "Q" ++ pairText c ++ " " ++ pairText p := by
      simp [String.ext_iff, chars, toList_pairText]
    exact ht ▸ .quadTo c p
  | arcTo radii rotation large sweep p =>
    have ht : String.ofList (arcTo radii rotation large sweep p).chars
        = "A" ++ pairText radii ++ " " ++ Number.text rotation ++ " " ++ (if large then "1" else "0")
          ++ "," ++ (if sweep then "1" else "0") ++ " " ++ pairText p := by
      simp [String.ext_iff, chars, toList_pairText, toList_flagText, Number.text]
    exact ht ▸ .arcTo radii rotation (hflag large) (hflag sweep) p
  | close => exact .close

/-- The text of segments is that of their commands, one after the other. -/
theorem text_pieces (segments : List (Segment Float)) :
    ∃ pieces, List.Forall₂ Written (segments.map Segment.command) pieces
      ∧ text segments = String.join pieces := by
  refine ⟨segments.map fun segment => String.ofList segment.chars, ?_, ?_⟩
  · simp only [List.forall₂_map_left_iff, List.forall₂_map_right_iff, List.forall₂_same]
    exact fun segment _ => segment.written
  · simp [String.ext_iff, text, List.flatMap_def, Function.comp_def]

theorem read?_text (segments : List (Segment Float)) :
    read? (text segments) = some (segments.map Segment.command) := by
  rw [read?, text, String.toList_ofList]
  exact commands_segments none segments

/-- Path data can be read back in one way only. Whatever calls are made on a fresh sink, with numbers of any
kind, the text is made of pieces of the six shapes, one for each segment that the calls draw; a reader of path
data takes it apart into these segments, with the same letters, texts of numbers and flags; and segments that
differ in one of these have another text. -/
theorem PathData.text_decodable (calls : List (Primitive Float)) :
    let data : PathData Float := ofPrimitives calls
    let drawn := (drawnByAll ({} : PathData Float) calls).map Segment.command
    (∃ pieces, List.Forall₂ Written drawn pieces ∧ data.text = String.join pieces)
    ∧ read? data.text = some drawn
    ∧ ∀ other : List (Segment Float), Svg.text other = data.text → other.map Segment.command = drawn := by
  intro data drawn
  have hdata : data.text = Svg.text (drawnByAll {} calls) := text_ofPrimitives calls
  have hread : read? data.text = some drawn := by
    rw [hdata]
    exact read?_text _
  refine ⟨?_, hread, ?_⟩
  · rw [hdata]
    exact text_pieces _
  · intro other he
    have hother := read?_text other
    rw [he, hread] at hother
    exact (Option.some.inj hother).symm

end ShapeGeometry.Svg
