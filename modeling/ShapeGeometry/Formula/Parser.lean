import ShapeGeometry.Formula.Basic
import ShapeGeometry.Formula.Production

namespace ShapeGeometry

/-- A part of a text, in bytes of UTF-8. -/
structure Span where
  offset : Nat
  length : Nat
  deriving DecidableEq, Repr

/-- Why a text is no formula, and where. -/
inductive FormulaError where
  | malformed (reason : String) (source : String) (span : Span)
  | unknownOperator (keyword : String) (source : String) (span : Span)
  deriving DecidableEq, Repr

namespace FormulaError

/-- The text does not go on as it should at `offset`: the span is one byte, or empty at the end. -/
def malformedAt (source reason : String) (offset : Nat) : FormulaError :=
  malformed reason source ⟨offset, min (source.utf8ByteSize - offset) 1⟩

def unknownOperatorAt (source keyword : String) (offset : Nat) : FormulaError :=
  unknownOperator keyword source ⟨offset, keyword.utf8ByteSize⟩

def source : FormulaError → String
  | malformed _ source _ => source
  | unknownOperator _ source _ => source

def span : FormulaError → Span
  | malformed _ _ span => span
  | unknownOperator _ _ span => span

def message : FormulaError → String
  | malformed reason _ _ => "malformed formula: " ++ reason
  | unknownOperator keyword _ _ => "unknown formula operator: " ++ keyword

/-- The kind of error, among those of this library. -/
def code : FormulaError → String
  | malformed _ _ _ => "formula::syntax"
  | unknownOperator _ _ _ => "formula::unknown_operator"

/-- The code under which the error is reported, beside those of other libraries. -/
def diagnosticCode (error : FormulaError) : String :=
  "prstgeom::" ++ error.code

def help? : FormulaError → Option String
  | malformed _ _ _ =>
    some "a formula is an operator followed by operands, e.g. `*/ w adj 100000`"
  | unknownOperator _ _ _ => none

/-- The remark that stands at the span. -/
def label : FormulaError → String
  | malformed _ _ _ => "here"
  | unknownOperator _ _ _ => "not an operator"

end FormulaError

open Grammar

variable {α : Type} [Scalar α]

def Operator.ofPair (source : String) (pair : Pair) : Except FormulaError Operator :=
  let keyword := String.ofList pair.text
  match Operator.ofKeyword? keyword with
  | some operator => .ok operator
  | none => .error (.unknownOperatorAt source keyword pair.offset)

def Operand.ofPair (pair : Pair) : Operand α :=
  match pair.name with
  | .number => .ofToken (String.ofList pair.text)
  | _ => .guide (String.ofList pair.text)

namespace Formula

def ofPairs (source : String) : List Pair → Except FormulaError (Formula α)
  | [] => .error (.malformedAt source "empty formula" 0)
  | pair :: _ =>
    match pair.inner with
    | [] => .error (.malformedAt source "missing operator" 0)
    | first :: inner => do
      let operator ← Operator.ofPair source first
      return ⟨operator, (inner.filter (·.name ≠ .endOfInput)).map Operand.ofPair⟩

def read (source : String) : Except FormulaError (Formula α) :=
  match Grammar.formula (.start source) with
  | .error failure => .error (.malformedAt source failure.message failure.offset)
  | .ok (pairs, _) => ofPairs source pairs

def parse (source : String) : Except FormulaError (Formula α) :=
  read source

def ofString (source : String) : Except FormulaError (Formula α) :=
  read source

end Formula

end ShapeGeometry
