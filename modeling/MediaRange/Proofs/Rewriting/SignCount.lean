import MediaRange.Engine
import MediaRange.Proofs.Grammar.Matching
import MediaRange.Proofs.Rewriting.Queries

/-!
# Comparison signs of a text

`signCount` counts the comparison signs of a text. Moving a bound touches none of them, so by
`signCount_query` a query has the signs of its value and no others, whatever the value is.
-/

namespace MediaRange

open Unicode

def signCount (text : List Char) : Nat := text.countP isSign

@[simp] theorem signCount_nil : signCount [] = 0 := rfl

@[simp] theorem signCount_append (u v : List Char) :
    signCount (u ++ v) = signCount u + signCount v := List.countP_append

theorem signCount_cons {c : Char} (h : isSign c = false) (u : List Char) :
    signCount (c :: u) = signCount u := by simp [signCount, h]

theorem signCount_eq_zero {text : List Char} (h : ∀ c ∈ text, isSign c = false) :
    signCount text = 0 :=
  List.countP_eq_zero.mpr fun c hc => by simp [h c hc]

theorem signCount_spelling {text : List Char} (h : ∀ c ∈ text, isSpellingChar c = true) :
    signCount text = 0 :=
  signCount_eq_zero fun c hc => isSign_of_isSpellingChar (h c hc)

theorem signCount_blanks {text : List Char} (h : ∀ c ∈ text, isBlank c = true) :
    signCount text = 0 :=
  signCount_eq_zero fun c hc => Grammar.isSign_of_isBlank (h c hc)

theorem signCount_opening : signCount ['('] = 0 := by decide

theorem signCount_closing : signCount [')'] = 0 := by decide

/-! ### Bounds -/

theorem signCount_bound {text : List Char} (h : ∀ c ∈ text, isBoundChar c = true) :
    signCount text = 0 :=
  signCount_spelling fun c hc => isSpellingChar_of_isBoundChar (h c hc)

/-- The run of digits, dashes and points is all that a cut takes out of a value. -/
theorem signCount_parts {value : List Char} {parts : ValueParts}
    (h : ValueParts.of? value = some parts) :
    signCount value = signCount parts.lead + signCount parts.tail := by
  simp only [ValueParts.of?] at h
  split at h
  · cases h
  · obtain rfl := Option.some.inj h
    have run : ∀ rest : List Char, signCount (rest.takeWhile ValueParts.isNumeric) = 0 := by
      intro rest
      refine signCount_eq_zero fun c hc => ?_
      have numeric := List.all_eq_true.mp List.all_takeWhile c hc
      simp only [ValueParts.isNumeric, Bool.or_eq_true, decide_eq_true_eq] at numeric
      rcases numeric with (digit | rfl) | rfl
      · exact isSign_of_isSpellingChar (by simp [isSpellingChar, digit])
      · decide
      · decide
    have cut := congrArg signCount
      (List.takeWhile_append_dropWhile (p := (!ValueParts.isNumeric ·)) (l := value))
    have cut' := congrArg signCount (List.takeWhile_append_dropWhile (p := ValueParts.isNumeric)
      (l := value.dropWhile (!ValueParts.isNumeric ·)))
    rw [signCount_append] at cut cut'
    rw [run, Nat.zero_add] at cut'
    dsimp only
    omega

namespace RangeExpression

theorem signCount_numericBound (e : RangeExpression) :
    signCount e.numericBound = signCount e.value := by
  rw [numericBound]
  split
  · rfl
  · split
    · rfl
    · rename_i parts hparts
      have value := signCount_parts hparts
      split
      · have sign := signCount_bound (isBoundChar_sign e.comparison)
        have unit := signCount_bound (isBoundChar_unit e.feature)
        have noTail : parts.tail.isEmpty = true → signCount parts.tail = 0 := fun empty => by
          rw [List.isEmpty_iff.mp empty, signCount_nil]
        rw [signCount_append, signCount_append, value, sign]
        split
        · rename_i empty
          rw [unit, noTail empty]
        · rfl
      · rw [signCount_append, signCount_append, value, signCount_bound (isBoundChar_text _),
          Nat.add_zero]

theorem signCount_customBound (e : RangeExpression) (useCalc : Bool) :
    signCount (e.customBound useCalc) = signCount e.value := by
  have unit := signCount_bound (isBoundChar_unit e.feature)
  have step : signCount stepText.toList = 0 := by decide
  have calc_ : signCount "calc(".toList = 0 := by decide
  have sign : signCount (if e.comparison.sign < 0 then " - " else " + ").toList = 0 := by
    split <;> decide
  rw [customBound]
  split
  · rfl
  · dsimp only
    split
    · simp only [signCount_append, unit, step, calc_, signCount_closing, sign, Nat.add_zero,
        Nat.zero_add]
    · simp only [signCount_append, step, sign, Nat.add_zero]

theorem signCount_boundValue (settings : Settings) (e : RangeExpression) :
    signCount (e.boundValue settings) = signCount e.value := by
  rw [boundValue]
  split
  · split
    · exact e.signCount_customBound _
    · exact e.signCount_numericBound
  · exact e.signCount_numericBound

/-- A query has the signs of its value; that of the comparison is gone. -/
theorem signCount_query (settings : Settings) (e : RangeExpression) :
    signCount (e.query settings) = signCount e.value := by
  have bound := signCount_spelling (isSpellingChar_bound e.comparison)
  have name := signCount_spelling (isName_name e.feature).isSpellingChar
  have colon : signCount ": ".toList = 0 := by decide
  simp only [query, List.cons_append, signCount_cons (show isSign '(' = false by decide),
    signCount_cons (show isSign '-' = false by decide), signCount_append, e.signCount_boundValue,
    bound, name, colon, signCount_closing, Nat.zero_add, Nat.add_zero]

end RangeExpression

/-! ### Verdicts -/

namespace Engine

variable {engine : Engine} {m : Match} {replacement : List Char}

theorem signCount_judgeSingle (h : engine.judgeSingle m = .rewritten replacement) :
    signCount replacement = signCount (m.group "value") := by
  simp only [judgeSingle] at h
  split at h
  · cases h
  · split at h
    · cases h
    · split at h
      · cases h
      · obtain rfl := Verdict.rewritten.inj h
        exact RangeExpression.signCount_query _ _

theorem signCount_judgeDouble (h : engine.judgeDouble m = .rewritten replacement) :
    signCount replacement = signCount (m.group "left") + signCount (m.group "right") := by
  have and_ : signCount " and ".toList = 0 := by decide
  simp only [judgeDouble] at h
  split at h
  · cases h
  · split at h
    · split at h
      · cases h
      · split at h
        · cases h
        · obtain rfl := Verdict.rewritten.inj h
          rw [signCount_append, signCount_append, RangeExpression.signCount_query,
            RangeExpression.signCount_query, and_]
          split
          · dsimp only; omega
          · dsimp only; omega
    · cases h

end Engine

end MediaRange
