namespace ShapeGeometry

/-- The decimal `± coefficient · 10 ^ exponent`. -/
structure Numeral where
  negative : Bool
  coefficient : Nat
  exponent : Int
  deriving DecidableEq, Repr

namespace Numeral

def isExponentMark (c : Char) : Bool :=
  c = 'e' || c = 'E'

/-- Takes off one sign, if there is one; `true` stands for minus. -/
def splitSign : List Char → Bool × List Char
  | '-' :: rest => (true, rest)
  | '+' :: rest => (false, rest)
  | text => (false, text)

/-- One or more decimal digits and nothing else. -/
def digits? (text : List Char) : Option Nat :=
  if text ≠ [] ∧ text.all Char.isDigit then some (Nat.ofDigitChars 10 text 0) else none

/-- Digits with at most one point, which may stand first or last but not alone. The digits are
read as one integer, and the power of ten counts the places after the point. -/
def fraction? (text : List Char) : Option (Nat × Int) :=
  let whole := text.takeWhile (· ≠ '.')
  match text.dropWhile (· ≠ '.') with
  | [] => (digits? whole).map fun coefficient => (coefficient, 0)
  | _ :: places =>
    (digits? (whole ++ places)).map fun coefficient => (coefficient, -(places.length : Int))

def integer? (text : List Char) : Option Int :=
  let (negative, rest) := splitSign text
  (digits? rest).map fun (n : Nat) => if negative then -(n : Int) else n

/-- Reads a whole text as a numeral. -/
def ofChars? (text : List Char) : Option Numeral :=
  let (negative, rest) := splitSign text
  match fraction? (rest.takeWhile (!isExponentMark ·)) with
  | none => none
  | some (coefficient, exponent) =>
    match rest.dropWhile (!isExponentMark ·) with
    | [] => some ⟨negative, coefficient, exponent⟩
    | _ :: power => (integer? power).map fun e => ⟨negative, coefficient, exponent + e⟩

end Numeral

/-- The text of a number, finite or not. The words for infinity and for what is not a number may
have letters of any case and any sign. -/
inductive NumberText where
  | numeral (value : Numeral)
  | infinity (negative : Bool)
  | notANumber (negative : Bool)
  deriving DecidableEq, Repr

namespace NumberText

def infinityWords : List (List Char) :=
  [['i', 'n', 'f'], ['i', 'n', 'f', 'i', 'n', 'i', 't', 'y']]

def notANumberWords : List (List Char) :=
  [['n', 'a', 'n']]

def ofChars? (text : List Char) : Option NumberText :=
  match Numeral.ofChars? text with
  | some value => some (numeral value)
  | none =>
    let (negative, rest) := Numeral.splitSign text
    let word := rest.map Char.toLower
    if word ∈ infinityWords then some (infinity negative)
    else if word ∈ notANumberWords then some (notANumber negative)
    else none

theorem ofChars?_of_numeral {text : List Char} {n : Numeral} (h : Numeral.ofChars? text = some n) :
    ofChars? text = some (numeral n) := by
  rw [ofChars?, h]

theorem ofChars?_ne_numeral {text : List Char} (h : Numeral.ofChars? text = none) (n : Numeral) :
    ofChars? text ≠ some (numeral n) := by
  simp only [ofChars?, h]
  split
  · simp
  · split <;> simp

end NumberText

end ShapeGeometry
