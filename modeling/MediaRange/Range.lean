import MediaRange.Feature

/-!
# Range expressions

A range expression compares a feature with a value, as in `(width >= 300px)`. It bounds the
feature from below or from above.
-/

namespace MediaRange

inductive Comparison where
  | greater
  | less
  deriving DecidableEq, Repr

namespace Comparison

def symbol : Comparison → Char
  | greater => '>'
  | less => '<'

def ofText? (text : List Char) : Option Comparison :=
  match text with
  | ['>'] => some greater
  | ['<'] => some less
  | _ => none

theorem ofText?_symbol (c : Comparison) : ofText? [c.symbol] = some c := by cases c <;> rfl

/-- The direction in which an exclusive bound moves. -/
def sign : Comparison → Int
  | greater => 1
  | less => -1

/-- The kind of bound: `f > v` bounds the feature from below. -/
def bound : Comparison → String
  | greater => "min"
  | less => "max"

end Comparison

/-- A comparison of a feature with a value. -/
structure RangeExpression where
  feature : Feature
  comparison : Comparison
  inclusive : Bool
  value : List Char
  deriving DecidableEq, Repr

def RangeExpression.text (e : RangeExpression) : List Char :=
  '(' :: e.feature.name.toList ++ ' ' :: e.comparison.symbol ::
    (if e.inclusive then ['='] else []) ++ ' ' :: e.value ++ [')']

end MediaRange
