import MediaRange.CustomValue
import MediaRange.Number.Numeral
import MediaRange.Number.Shortest
import MediaRange.Range
import MediaRange.Unicode.Blank

/-!
# Queries

`RangeExpression.query` writes a range expression as a `min-` or `max-` feature. These bounds are
inclusive, so an exclusive bound is moved to the next value inside: by one for whole pixels, and
by `step` for all else. A custom value cannot be computed, so its step is written out.
-/

namespace MediaRange

/-- The offset of an exclusive bound, small enough to survive a change of units. -/
def stepText : String := "0.001"

def step : Rat :=
  match Binary64.ofRat (1 / 1000) with
  | .finite value => value
  | .infinite _ => 0

/-- A value cut at its first run of digits, dashes and points. -/
structure ValueParts where
  lead : List Char
  run : List Char
  tail : List Char

namespace ValueParts

def isNumeric (c : Char) : Bool := c.isDigit || c = '-' || c = '.'

/-- The parts of a value; a value without such a run has none. -/
def of? (value : List Char) : Option ValueParts :=
  let rest := value.dropWhile (!isNumeric ·)
  if rest.isEmpty then none
  else some
    { lead := value.takeWhile (!isNumeric ·)
      run := rest.takeWhile isNumeric
      tail := rest.dropWhile isNumeric }

end ValueParts

namespace Binary64

/-- The value rounded to six decimal places, a half upwards. The point is moved in the written
form, so a decimal that is near a short one becomes that one. -/
def roundMicro (value : Binary64) : Binary64 :=
  (((value.shifted 6).add (1 / 2)).floor).shifted (-6)

end Binary64

namespace Numeral

/-- The numeral moved to the next value inside an exclusive bound. -/
def moved (n : Numeral) (pixels : Bool) (sign : Int) : Binary64 :=
  if pixels && n.isWhole then n.value.add sign
  else (n.value.add (step * sign)).roundMicro

end Numeral

namespace RangeExpression

def customBound (e : RangeExpression) (useCalc : Bool) : List Char :=
  if e.inclusive then e.value
  else
    let sign := if e.comparison.sign < 0 then " - " else " + "
    let moved := e.value ++ sign.toList ++ stepText.toList
    if useCalc then "calc(".toList ++ moved ++ e.feature.unit.toList ++ [')'] else moved

/-- The bound of a number. Zero and unreadable numbers give way to one, with the feature's unit if
there is none. -/
def numericBound (e : RangeExpression) : List Char :=
  if e.inclusive then e.value
  else
    match ValueParts.of? e.value with
    | none => e.value
    | some parts =>
      match (Numeral.read? parts.run).filter fun n => !n.value.isZero with
      | none =>
        parts.lead ++ (toString e.comparison.sign).toList ++
          (if parts.tail.isEmpty then e.feature.unit.toList else parts.tail)
      | some n =>
        parts.lead ++ (n.moved (parts.tail = "px".toList) e.comparison.sign).text ++ parts.tail

/-- The bound that the expression sets. -/
def boundValue (settings : Settings) (e : RangeExpression) : List Char :=
  match settings.customValue with
  | some custom => if custom.recognizes e.value then e.customBound settings.useCalc else e.numericBound
  | none => e.numericBound

/-- The expression as a `min-` or `max-` feature. -/
def query (settings : Settings) (e : RangeExpression) : List Char :=
  '(' :: e.comparison.bound.toList ++ '-' :: e.feature.name.toList ++ ": ".toList ++
    e.boundValue settings ++ [')']

end RangeExpression

end MediaRange
