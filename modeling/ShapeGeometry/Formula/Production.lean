import ShapeGeometry.Formula.Grammar

/-!
The grammar of a whole formula. Productions match at a cursor, with blanks between their parts, and
yield a pair for each named rule that has matched.
-/

namespace ShapeGeometry.Grammar

inductive Name where
  | startOfInput
  | endOfInput
  | formula
  | operator
  | number
  | guide
  deriving DecidableEq, Repr

/-- The name as it stands in a message. -/
def Name.text : Name → String
  | startOfInput => "SOI"
  | endOfInput => "EOI"
  | formula => "formula"
  | operator => "operator"
  | number => "number"
  | guide => "guide"

/-- What is left of a text, and the number of bytes that stand before it. -/
structure Cursor where
  offset : Nat
  rest : List Char
  deriving DecidableEq, Repr

namespace Cursor

def start (source : String) : Cursor :=
  ⟨0, source.toList⟩

/-- Moves past `front`, which leaves `rest`. -/
def advance (cursor : Cursor) (front rest : List Char) : Cursor :=
  ⟨cursor.offset + (String.ofList front).utf8ByteSize, rest⟩

def skipBlanks (cursor : Cursor) : Cursor :=
  cursor.advance (cursor.rest.takeWhile Text.isBlank) (cursor.rest.dropWhile Text.isBlank)

theorem skipBlanks_length_le (cursor : Cursor) :
    cursor.skipBlanks.rest.length ≤ cursor.rest.length :=
  (List.dropWhile_suffix _).length_le

end Cursor

/-- What a named rule has matched, and the pairs of the rules inside it. -/
structure Pair where
  name : Name
  text : List Char
  offset : Nat
  inner : List Pair

/-- A rule that does not match at the offset where it is tried. -/
structure Failure where
  expected : Name
  offset : Nat
  deriving DecidableEq, Repr

def Failure.message (failure : Failure) : String :=
  "expected " ++ failure.expected.text

abbrev Production :=
  Cursor → Except Failure (List Pair × Cursor)

namespace Production

/-- The one pair of a rule inside which no blanks are skipped. -/
def atomic (name : Name) (rule : Rule) : Production := fun cursor =>
  match rule cursor.rest with
  | none => .error ⟨name, cursor.offset⟩
  | some (front, rest) => .ok ([⟨name, front, cursor.offset, []⟩], cursor.advance front rest)

def seq (first second : Production) : Production := fun cursor => do
  let (front, middle) ← first cursor
  let (back, rest) ← second middle.skipBlanks
  return (front ++ back, rest)

def choice (first second : Production) : Production := fun cursor =>
  match first cursor with
  | .ok matched => .ok matched
  | .error _ => second cursor

/-- Puts the pairs of the body into one pair of their own. -/
def node (name : Name) (body : Production) : Production := fun cursor => do
  let (inner, rest) ← body cursor
  let text := cursor.rest.take (cursor.rest.length - rest.rest.length)
  return ([⟨name, text, cursor.offset, inner⟩], rest)

def startOfInput : Production := fun cursor =>
  if cursor.offset = 0 then .ok ([], cursor) else .error ⟨.startOfInput, cursor.offset⟩

def endOfInput : Production := fun cursor =>
  match cursor.rest with
  | [] => .ok ([⟨.endOfInput, [], cursor.offset, []⟩], cursor)
  | _ :: _ => .error ⟨.endOfInput, cursor.offset⟩

/-- The production matches at least one character. -/
def Advances (production : Production) : Prop :=
  ∀ ⦃cursor pairs next⦄, production cursor = .ok (pairs, next) →
    next.rest.length < cursor.rest.length

theorem atomic_advances {rule : Rule} (name : Name) (hs : rule.Splits) (ha : rule.Advances) :
    (atomic name rule).Advances := by
  intro cursor pairs next h
  unfold atomic at h
  split at h
  · cases h
  · next front rest hr => cases h; exact Rule.length_lt hs ha hr

theorem Advances.choice {first second : Production} (hf : first.Advances) (hs : second.Advances) :
    (first.choice second).Advances := by
  intro cursor pairs next h
  unfold Production.choice at h
  split at h
  · next hm => cases h; exact hf hm
  · exact hs h

/-- Matches as often as it can, each time after blanks. -/
def more (item : Production) (ha : item.Advances) (cursor : Cursor) : List Pair × Cursor :=
  match _h : item cursor.skipBlanks with
  | .error _ => ([], cursor)
  | .ok (front, next) =>
    let (back, rest) := more item ha next
    (front ++ back, rest)
termination_by cursor.rest.length
decreasing_by exact Nat.lt_of_lt_of_le (ha _h) cursor.skipBlanks_length_le

/-- Matches as often as it can, which may be never. -/
def star (item : Production) (ha : item.Advances) : Production := fun cursor =>
  match item cursor with
  | .error _ => .ok ([], cursor)
  | .ok (front, next) =>
    let (back, rest) := more item ha next
    .ok (front ++ back, rest)

end Production

open Production

def operator : Production :=
  atomic .operator word

/-- A number where one takes up the whole word, and otherwise the word as a name. -/
def operand : Production :=
  (atomic .number number).choice (atomic .guide word)

theorem operand_advances : operand.Advances :=
  (atomic_advances _ number_splits number_advances).choice
    (atomic_advances _ word_splits word_advances)

/-- An operator and operands, up to the end of the text. -/
def formula : Production :=
  node .formula
    (startOfInput.seq (operator.seq ((star operand operand_advances).seq endOfInput)))

end ShapeGeometry.Grammar
