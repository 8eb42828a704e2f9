import MediaRange.Proofs.Grammar.Readings
import MediaRange.Proofs.Rewriting.Fragments

/-!
# Queries are groups

The query of an expression is a group. For a number its inside has neither parentheses nor
comparison signs, so `DoubleForm.read?_queryInside` and `SingleForm.read?_queryInside` find no range
in it.
-/

namespace MediaRange

open Unicode

theorem isParenFree_of_isSpellingChar {text : List Char}
    (h : ∀ c ∈ text, isSpellingChar c = true) : IsParenFree text := fun c hc =>
  ⟨ne_of_isSpellingChar (h c hc) (by decide), ne_of_isSpellingChar (h c hc) (by decide)⟩

/-! ### The characters of a bound -/

/-- A character that a bound may have beside those of its value. -/
def isBoundChar (c : Char) : Bool := c.isDigit || "-.infpxd".toList.contains c

theorem isSpellingChar_of_isBoundChar {c : Char} (h : isBoundChar c = true) :
    isSpellingChar c = true := by
  rcases Bool.or_eq_true_iff.mp h with digit | other
  · simp [isSpellingChar, digit]
  · have spelling : ∀ d ∈ "-.infpxd".toList, isSpellingChar d = true :=
      List.all_eq_true.mp (by decide)
    exact spelling c (List.contains_iff_mem.mp other)

theorem isBoundChar_of_isDigit {c : Char} (h : c.isDigit = true) : isBoundChar c = true := by
  simp [isBoundChar, h]

theorem isBoundChar_append {u v : List Char} (hu : ∀ c ∈ u, isBoundChar c = true)
    (hv : ∀ c ∈ v, isBoundChar c = true) : ∀ c ∈ u ++ v, isBoundChar c = true :=
  fun c hc => (List.mem_append.mp hc).elim (hu c) (hv c)

theorem isBoundChar_significant (d : Decimal) : ∀ c ∈ d.significant.1, isBoundChar c = true := by
  intro c hc
  simp only [Decimal.significant, List.mem_reverse] at hc
  have hc := List.mem_reverse.mp ((List.dropWhile_suffix _).subset hc)
  exact isBoundChar_of_isDigit (Nat.isDigit_of_mem_toDigits (by decide) (by decide) hc)

theorem isBoundChar_positional (d : Decimal) : ∀ c ∈ d.positional, isBoundChar c = true := by
  have zeros {n : Nat} : ∀ c ∈ List.replicate n '0', isBoundChar c = true := fun c hc => by
    rw [List.eq_of_mem_replicate hc]; decide
  have parts : ∀ c ∈ d.parts.1 ++ d.parts.2, isBoundChar c = true := by
    simp only [Decimal.parts]
    split
    · rw [List.append_nil]
      exact isBoundChar_append (isBoundChar_significant d) zeros
    · rw [List.splitAt_eq, List.take_append_drop]
      exact isBoundChar_append zeros (isBoundChar_significant d)
  intro c hc
  rw [Decimal.positional] at hc
  generalize d.parts = p at parts hc
  obtain ⟨whole, _ | ⟨f, fraction⟩⟩ := p
  · exact parts c (List.mem_append_left _ hc)
  · rcases List.mem_append.mp hc with hc | hc
    · exact parts c (List.mem_append_left _ hc)
    · rcases List.mem_cons.mp hc with rfl | hc
      · decide
      · exact parts c (List.mem_append_right _ hc)

theorem isBoundChar_text (b : Binary64) : ∀ c ∈ b.text, isBoundChar c = true := by
  cases b with
  | infinite negative => exact List.all_eq_true.mp (by cases negative <;> decide)
  | finite value =>
    rw [Binary64.text]
    split
    · exact List.forall_mem_singleton.mpr (by decide)
    · split
      · exact List.forall_mem_cons.mpr ⟨by decide, isBoundChar_positional _⟩
      · exact isBoundChar_positional _

theorem isBoundChar_sign (s : Comparison) : ∀ c ∈ (toString s.sign).toList, isBoundChar c = true :=
  List.all_eq_true.mp (by cases s <;> decide)

theorem isBoundChar_unit (f : Feature) : ∀ c ∈ f.unit.toList, isBoundChar c = true :=
  List.all_eq_true.mp (by cases f <;> decide)

theorem mem_of_parts {value : List Char} {parts : ValueParts} (h : ValueParts.of? value = some parts) :
    (∀ c ∈ parts.lead, c ∈ value) ∧ ∀ c ∈ parts.tail, c ∈ value := by
  simp only [ValueParts.of?] at h
  split at h
  · cases h
  · obtain rfl := Option.some.inj h
    exact ⟨fun c hc => (List.takeWhile_prefix _).subset hc,
      fun c hc => (List.dropWhile_suffix _).subset ((List.dropWhile_suffix _).subset hc)⟩

/-- All other characters of a bound are those of its value. -/
theorem mem_numericBound {e : RangeExpression} :
    ∀ c ∈ e.numericBound, isBoundChar c = true ∨ c ∈ e.value := by
  intro c hc
  rw [RangeExpression.numericBound] at hc
  split at hc
  · exact .inr hc
  · split at hc
    · exact .inr hc
    · rename_i parts hparts
      obtain ⟨lead, tail⟩ := mem_of_parts hparts
      split at hc
      · rcases List.mem_append.mp hc with hc | hc
        · rcases List.mem_append.mp hc with hc | hc
          · exact .inr (lead c hc)
          · exact .inl (isBoundChar_sign _ c hc)
        · split at hc
          · exact .inl (isBoundChar_unit _ c hc)
          · exact .inr (tail c hc)
      · rcases List.mem_append.mp hc with hc | hc
        · rcases List.mem_append.mp hc with hc | hc
          · exact .inr (lead c hc)
          · exact .inl (isBoundChar_text _ c hc)
        · exact .inr (tail c hc)

theorem isSpellingChar_numericBound {e : RangeExpression}
    (h : ∀ c ∈ e.value, isSpellingChar c = true) :
    ∀ c ∈ e.numericBound, isSpellingChar c = true := by
  intro c hc
  rcases mem_numericBound c hc with own | shared
  · exact isSpellingChar_of_isBoundChar own
  · exact h c shared

/-! ### The inside of a query -/

/-- What stands in the parentheses of a query. -/
def RangeExpression.queryInside (settings : Settings) (e : RangeExpression) : List Char :=
  e.comparison.bound.toList ++ '-' :: e.feature.name.toList ++ ": ".toList ++ e.boundValue settings

theorem query_eq (settings : Settings) (e : RangeExpression) :
    e.query settings = (Fragment.group (e.queryInside settings)).text := by
  simp [RangeExpression.query, RangeExpression.queryInside, Fragment.text]

theorem isSpellingChar_bound (s : Comparison) : ∀ c ∈ s.bound.toList, isSpellingChar c = true :=
  List.all_eq_true.mp (by cases s <;> decide)

section

variable {useCalc : Bool} {e : RangeExpression} (h : IsValueToken e.value)
include h

theorem mem_queryInside {c : Char} (hc : c ∈ e.queryInside ⟨none, useCalc⟩) :
    isSpellingChar c = true ∨ c = ':' := by
  simp only [RangeExpression.queryInside, List.mem_append, List.mem_cons] at hc
  rcases hc with ((hc | rfl | hc) | hc) | hc
  · exact .inl (isSpellingChar_bound _ c hc)
  · exact .inl (by decide)
  · exact .inl ((isName_name _).isSpellingChar c hc)
  · rcases (by simpa using hc : c = ':' ∨ c = ' ') with rfl | rfl
    · exact .inr rfl
    · exact .inl (by decide)
  · exact .inl (isSpellingChar_numericBound h.number.isSpellingChar c hc)

theorem isParenFree_queryInside : IsParenFree (e.queryInside ⟨none, useCalc⟩) := by
  intro c hc
  rcases mem_queryInside h hc with hc | rfl
  · exact ⟨ne_of_isSpellingChar hc (by decide), ne_of_isSpellingChar hc (by decide)⟩
  · decide

theorem cutSign_queryInside : SignCut.of? (e.queryInside ⟨none, useCalc⟩) = none := by
  refine SignCut.of?_eq_none fun c hc => ?_
  rcases mem_queryInside h hc with hc | rfl
  · exact isSign_of_isSpellingChar hc
  · decide

theorem SingleForm.read?_queryInside : SingleForm.read? (e.queryInside ⟨none, useCalc⟩) = none := by
  rw [read?, cutSign_queryInside h]; rfl

theorem DoubleForm.read?_queryInside : DoubleForm.read? (e.queryInside ⟨none, useCalc⟩) = none := by
  rw [read?, cutSign_queryInside h]; rfl

end

end MediaRange
