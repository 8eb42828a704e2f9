import MediaRange.CustomValue

/-!
# The grammar of ranges

A grammar is a pair of patterns: one for single comparisons, `(width >= 300px)`, and one for
double ones, `(500px < width <= 1200px)`. A custom value pattern widens the values of both. The
patterns are put together as texts and read without regard to case.
-/

namespace MediaRange

namespace Grammar

/-- A number with an optional unit, or a ratio of two numbers. -/
def valueTemplate : String := "-?[0-9]*\\.?(?:\\s*/?\\s*)?[0-9]+[a-z]*"

/-- An alternative for a value; being optional, it always takes part in a match. -/
def optional (template : List Char) : List Char := "(?:".toList ++ template ++ ")?".toList

/-- The pattern of a value: a number, or else a custom value. -/
def valuePattern (custom : Option CustomValue) : List Char :=
  match custom with
  | none => optional valueTemplate.toList
  | some custom => optional valueTemplate.toList ++ '|' :: optional custom.body

/-- The pattern of a comparison with one value. -/
def singlePattern (value : List Char) : List Char :=
  "\\(\\s*(?P<feature>[a-z-]+?)\\s*(?P<op>[<>])(?P<eq>=?)\\s*(?P<value>".toList ++ value ++
    ")\\s*\\)".toList

/-- The pattern of a comparison between two values. -/
def doublePattern (value : List Char) : List Char :=
  "\\(\\s*(?P<left>".toList ++ value ++
    ")\\s*(?P<left_op><|>)(?P<left_eq>=?)\\s*(?P<feature>[a-z-]+)".toList ++
    "\\s*(?P<right_op><|>)(?P<right_eq>=?)\\s*(?P<right>".toList ++ value ++ ")\\s*\\)".toList

/-- Reads a pattern without regard to case. -/
def read? (text : List Char) : Except SettingsError Pattern :=
  match Pattern.read? { ignoreCase := true } text with
  | .ok p => .ok p
  | .error cause => .error (.grammar cause)

end Grammar

structure Grammar where
  single : Pattern
  double : Pattern

/-- The grammar for a custom value pattern, if there is one. A pattern that is good by itself can
still break it, for instance by a named group, which would occur twice. -/
def Grammar.build (custom : Option CustomValue) : Except SettingsError Grammar := do
  let value := valuePattern custom
  let single ← read? (singlePattern value)
  let double ← read? (doublePattern value)
  return ⟨single, double⟩

end MediaRange
