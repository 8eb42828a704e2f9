import MediaRange.Grammar
import MediaRange.Proofs.Pattern.Slot

/-!
# The shape of the grammar

The patterns of single and double comparisons as terms: slots for names and values with comparison
signs between them. `build_none` shows that the grammar without custom values has this shape.
-/

namespace MediaRange.Grammar

open Pattern

def digitSet : CharSet := .folded (.ranges [(0x30, 0x39)])

def unitSet : CharSet := .folded (.ranges [(0x61, 0x7A)])

def nameSet : CharSet := .folded (.ranges [(0x61, 0x7A), (0x2D, 0x2D)])

def signSet : CharSet := .folded (.ranges [(0x3C, 0x3C), (0x3E, 0x3E)])

/-- A character that may be left out. -/
def optionally (c : Char) : Pattern := opt true (one (.single c))

def gap : Pattern := seq blanks (seq (optionally '/') blanks)

/-- A number with an optional unit, or a ratio of two numbers. -/
def number : Pattern :=
  seq (optionally '-') (seq (star true (one digitSet)) (seq (optionally '.')
    (seq (opt true gap) (seq (plus true (one digitSet)) (star true (one unitSet))))))

/-- A value: a number, or else a custom value; it may be empty. -/
def value : Option Pattern → Pattern
  | none => opt true number
  | some body => alt (opt true number) (opt true body)

def comparison (sign : Pattern) (op eq : String) (q : Pattern) : Pattern :=
  seq (group op sign) (seq (group eq (optionally '=')) q)

def closing : Pattern := one (.single ')')

def singleSign : Pattern := one signSet

def doubleSign : Pattern := alt (one (.single '<')) (one (.single '>'))

def singleOf (value : Pattern) : Pattern :=
  seq (one (.single '(')) (slot "feature" (plus false (one nameSet))
    (comparison singleSign "op" "eq" (slot "value" value closing)))

def doubleOf (value : Pattern) : Pattern :=
  seq (one (.single '(')) (slot "left" value
    (comparison doubleSign "left_op" "left_eq" (slot "feature" (plus true (one nameSet))
      (comparison doubleSign "right_op" "right_eq" (slot "right" value closing)))))

/-- The grammar with a pattern for custom values, if there is one. -/
def ofBody (body : Option Pattern) : Grammar := ⟨singleOf (value body), doubleOf (value body)⟩

theorem eq_ok_of_toOption {ε α : Type} {result : Except ε α} {a : α}
    (h : result.toOption = some a) : result = .ok a := by
  cases result with
  | error e => cases h
  | ok b => exact congrArg Except.ok (Option.some.inj h)

theorem read?_single : read? (singlePattern (valuePattern none)) = .ok (singleOf (value none)) :=
  eq_ok_of_toOption (by decide +kernel)

theorem read?_double : read? (doublePattern (valuePattern none)) = .ok (doubleOf (value none)) :=
  eq_ok_of_toOption (by decide +kernel)

theorem build_none : Grammar.build none = .ok (ofBody none) := by
  simp only [Grammar.build, read?_single, read?_double]
  rfl

end MediaRange.Grammar
