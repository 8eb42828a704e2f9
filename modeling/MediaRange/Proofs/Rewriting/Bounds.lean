import MediaRange.Proofs.Number.Moved
import MediaRange.Proofs.Rewriting.Parts

/-!
# Bounds of numbers

An inclusive bound is the value itself. For an exclusive one the number in the value is moved to the
next value inside. In the practical range the new number is exactly one or one thousandth away
(`query_exact`), and as long as doubles are dense enough it excludes the old one (`query_excludes`).
-/

namespace MediaRange

open Binary64

/-- One, with the sign of the comparison. -/
def Comparison.one : Comparison → Numeral
  | greater => ⟨false, ['1'], []⟩
  | less => ⟨true, ['1'], []⟩

theorem Comparison.text_one (c : Comparison) : c.one.text = (toString c.sign).toList := by
  cases c <;> decide

theorem Comparison.isPlain_one (c : Comparison) : c.one.IsPlain := by
  cases c <;> exact ⟨List.cons_ne_nil _ _, List.forall_mem_singleton.mpr rfl⟩

theorem Comparison.exact_one (c : Comparison) : c.one.exact = c.sign := by
  have digit : digitsValue ['1'] = 1 := rfl
  cases c <;> norm_num [one, sign, Numeral.exact, digit]

theorem Comparison.holds_one (c : Comparison) {x : Rat} (small : |x| < 1) : c.Holds c.one.exact x := by
  obtain ⟨low, high⟩ := abs_lt.mp small
  rw [exact_one]
  cases c with
  | greater => simpa [Holds, sign] using high
  | less => simpa [Holds, sign] using low

/-- No number can be read from the run, or one that no double tells from zero. -/
def ReadsAsZero (run : List Char) : Prop :=
  (∀ c ∈ run, c.isDigit = false) ∨
    ∃ n : Numeral, n.IsSpelt run ∧ |n.exact| ≤ (2 : Rat) ^ (-1075 : Int)

namespace RangeExpression

/-- The `min-` or `max-` feature with a given bound. -/
def queryOf (e : RangeExpression) (bound : List Char) : List Char :=
  '(' :: e.comparison.bound.toList ++ '-' :: e.feature.name.toList ++ ": ".toList ++ bound ++ [')']

theorem queryOf_inj {e : RangeExpression} {u v : List Char} : e.queryOf u = e.queryOf v ↔ u = v := by
  simp [queryOf]

section

variable {e : RangeExpression} (useCalc : Bool)

theorem query_inclusive (h : e.inclusive = true) : e.query ⟨none, useCalc⟩ = e.queryOf e.value := by
  have bound : e.boundValue ⟨none, useCalc⟩ = e.value := by rw [boundValue, numericBound, if_pos h]
  rw [query, bound, queryOf]

variable {p : ValueParts} (hp : p.IsSplit e.value)
include hp

/-- A query with another number in the place of the first is not the one with equality. -/
theorem query_ne_inclusive {n m : Numeral} {tail : List Char} (hn : n.IsSpelt p.run)
    (plain : m.IsPlain) (other : m.exact ≠ n.exact)
    (htail : ∀ c ∈ tail.head?, ValueParts.isNumeric c = false) :
    e.queryOf (p.lead ++ m.text ++ tail) ≠ { e with inclusive := true }.query ⟨none, useCalc⟩ := by
  intro same
  have written := Numeral.isSpelt_text plain
  have value : e.value = p.lead ++ (m.text ++ tail) := by
    rw [query_inclusive useCalc rfl] at same
    rw [← List.append_assoc]
    exact (queryOf_inj (e := e).mp same).symm
  have cut := written.isSplit hp.lead htail
  rw [← value] at cut
  have parts := Option.some.inj (cut.of?_eq.symm.trans hp.of?_eq)
  have run : m.text = p.run := congrArg ValueParts.run parts
  have read := Numeral.read?_of_isSpelt written
  rw [run, Numeral.read?_of_isSpelt hn] at read
  exact other (congrArg Numeral.exact (Option.some.inj read).symm)

variable (exclusive : e.inclusive = false)
include exclusive

/-- Zero gives way to one. -/
theorem query_zero (zero : ReadsAsZero p.run) : e.query ⟨none, useCalc⟩ = e.queryOf
    (p.lead ++ e.comparison.one.text ++ if p.tail = [] then e.feature.unit.toList else p.tail) := by
  have none : ((Numeral.read? p.run).filter fun n => !n.value.isZero) = none := by
    rcases zero with noDigit | ⟨n, hn, small⟩
    · rw [Numeral.read?_eq_none noDigit]
      rfl
    · rw [Numeral.read?_of_isSpelt hn, Option.filter_some, Numeral.isZero_value_iff.mpr small]
      rfl
  have bound : e.boundValue ⟨Option.none, useCalc⟩ = p.lead ++ e.comparison.one.text ++
      if p.tail = [] then e.feature.unit.toList else p.tail := by
    rw [boundValue, numericBound, exclusive, hp.of?_eq]
    dsimp only
    rw [none, Comparison.text_one]
    simp only [Bool.false_eq_true, if_false, List.isEmpty_iff]
  rw [query, bound, queryOf]

/-- Any other number is moved. -/
theorem query_moved {n : Numeral} (hn : n.IsSpelt p.run)
    (large : (2 : Rat) ^ (-1075 : Int) < |n.exact|) : e.query ⟨none, useCalc⟩ = e.queryOf
      (p.lead ++ (n.moved (p.tail = "px".toList) e.comparison.sign).text ++ p.tail) := by
  have some : ((Numeral.read? p.run).filter fun n => !n.value.isZero) = some n := by
    have nonzero : n.value.isZero = false :=
      Bool.eq_false_iff.mpr fun zero => not_le.mpr large (Numeral.isZero_value_iff.mp zero)
    rw [Numeral.read?_of_isSpelt hn, Option.filter_some, nonzero]
    rfl
  have bound : e.boundValue ⟨none, useCalc⟩ =
      p.lead ++ (n.moved (p.tail = "px".toList) e.comparison.sign).text ++ p.tail := by
    rw [boundValue, numericBound, exclusive, hp.of?_eq]
    dsimp only
    rw [some]
    simp only [Bool.false_eq_true, if_false]
  rw [query, bound, queryOf]

end

/-- A bound of the practical range agrees with exact arithmetic: an exclusive one moves by one if it
is a whole number of pixels, and else by a thousandth. Zero becomes one, with the unit of the
feature if there is none. Beyond that range too, only the number is replaced. -/
theorem query_exact (e : RangeExpression) (useCalc : Bool) (h : IsNumber e.value) :
    (e.inclusive = true → e.query ⟨none, useCalc⟩ = e.queryOf e.value) ∧
    (e.inclusive = false → ∃ p : ValueParts, p.IsSplit e.value ∧
      (ReadsAsZero p.run ∨ ∃ n : Numeral, n.IsSpelt p.run ∧ n.exact ≠ 0) ∧
      (ReadsAsZero p.run → e.query ⟨none, useCalc⟩ = e.queryOf (p.lead ++ e.comparison.one.text ++
        if p.tail = [] then e.feature.unit.toList else p.tail)) ∧
      (∀ n : Numeral, n.IsSpelt p.run → ¬ReadsAsZero p.run → e.query ⟨none, useCalc⟩ = e.queryOf
        (p.lead ++ (n.moved (p.tail = "px".toList) e.comparison.sign).text ++ p.tail)) ∧
      ∀ n : Numeral, n.IsSpelt p.run → n.exact ≠ 0 → (10 ^ 6 * n.exact).den = 1 → |n.exact| < 10 ^ 9 →
        ∃ m : Numeral, m.IsCanonical ∧
          m.exact = n.exact + (if p.tail = "px".toList ∧ n.whole ≠ [] ∧ n.exact.den = 1
            then (e.comparison.sign : Rat) else e.comparison.sign / 1000) ∧
          e.query ⟨none, useCalc⟩ = e.queryOf (p.lead ++ m.text ++ p.tail)) := by
  refine ⟨query_inclusive useCalc, fun exclusive => ?_⟩
  obtain ⟨p, hp, runs⟩ := exists_isSplit h
  refine ⟨p, hp, ?_, query_zero useCalc hp exclusive, fun n hn other => ?_,
    fun n hn nonzero micro bound => ?_⟩
  · rcases runs with noDigit | ⟨n, hn⟩
    · exact .inl (.inl noDigit)
    · by_cases zero : n.exact = 0
      · refine .inl (.inr ⟨n, hn, ?_⟩)
        rw [zero, abs_zero]
        positivity
      · exact .inr ⟨n, hn, zero⟩
  · exact query_moved useCalc hp exclusive hn (not_le.mp fun small => other (.inr ⟨n, hn, small⟩))
  · have micro := Numeral.exists_micro micro
    have large := Numeral.lt_abs_of_micro micro nonzero
    obtain ⟨w, hw, double, value⟩ := Numeral.exists_moved_exact (p.tail = "px".toList) bound micro
      e.comparison
    obtain ⟨m, canonical, exact, text⟩ := exists_isCanonical_text double
    refine ⟨m, canonical, ?_, ?_⟩
    · rw [exact, value]
      simp only [decide_eq_true_eq]
    · rw [query_moved useCalc hp exclusive hn large, hw, text]

theorem query_exact_near_limit :
    IsNumber "999999999.999999px".toList ∧
      ∃ m : Numeral, m.IsCanonical ∧ m.exact = 1000000000000999 / 10 ^ 6 ∧
        (⟨.width, .greater, false, "999999999.999999px".toList⟩ : RangeExpression).query ⟨none, true⟩ =
          (⟨.width, .greater, false, "999999999.999999px".toList⟩ : RangeExpression).queryOf
            (m.text ++ "px".toList) := by
  have number : IsNumber "999999999.999999px".toList := by decide
  obtain ⟨p, hp, -, -, -, moved⟩ :=
    (query_exact ⟨.width, .greater, false, "999999999.999999px".toList⟩ true number).2 rfl
  obtain rfl : ⟨[], "999999999.999999".toList, "px".toList⟩ = p :=
    Option.some.inj ((rfl : ValueParts.of? "999999999.999999px".toList = _).symm.trans hp.of?_eq)
  have exact : Numeral.exact ⟨false, "999999999".toList, "999999".toList⟩ = 999999999999999 / 10 ^ 6 := by
    decide +kernel
  obtain ⟨m, canonical, value, query⟩ := moved ⟨false, "999999999".toList, "999999".toList⟩
    ⟨List.all_eq_true.mp (by decide), by decide, ['.'], .inl rfl, by decide⟩ (by rw [exact]; norm_num)
    (by rw [exact]; decide +kernel) (by rw [exact]; norm_num [abs_of_pos])
  refine ⟨number, m, canonical, ?_, query⟩
  rw [value, exact, if_neg (by decide +kernel)]
  norm_num [Comparison.sign]

/-- An exclusive bound excludes the number that it is made of, up to the size where doubles cannot
be told apart any more. -/
theorem query_excludes {e : RangeExpression} {p : ValueParts} {n : Numeral} (useCalc : Bool)
    (exclusive : e.inclusive = false) (hp : p.IsSplit e.value) (hn : n.IsSpelt p.run)
    (bound : |n.exact| ≤ 2 * 10 ^ 12 ∨
      p.tail = "px".toList ∧ n.whole ≠ [] ∧ n.exact.den = 1 ∧ |n.exact| < 2 ^ 53) :
    ∃ (m : Numeral) (tail : List Char), m.IsPlain ∧
      (tail = p.tail ∨ p.tail = [] ∧ tail = e.feature.unit.toList) ∧
      e.query ⟨none, useCalc⟩ = e.queryOf (p.lead ++ m.text ++ tail) ∧
      e.comparison.Holds m.exact n.exact ∧
      e.query ⟨none, useCalc⟩ ≠ { e with inclusive := true }.query ⟨none, useCalc⟩ := by
  have units : ∀ c ∈ e.feature.unit.toList, (!ValueParts.isNumeric c) = true :=
    List.all_eq_true.mp (by cases e.feature <;> decide)
  by_cases zero : |n.exact| ≤ (2 : Rat) ^ (-1075 : Int)
  · have small : |n.exact| < 1 := zero.trans_lt (zpow_lt_one_of_neg₀ one_lt_two (by decide))
    have holds := e.comparison.holds_one small
    have query := query_zero useCalc hp exclusive (.inr ⟨n, hn, zero⟩)
    refine ⟨_, _, e.comparison.isPlain_one, ?_, query, holds,
      query ▸ query_ne_inclusive useCalc hp hn e.comparison.isPlain_one holds.ne ?_⟩
    · by_cases bare : p.tail = []
      · exact .inr ⟨bare, if_pos bare⟩
      · exact .inl (if_neg bare)
    · split_ifs
      · intro c hc
        simpa using units c (List.mem_of_head? hc)
      · exact hp.tail
  · obtain ⟨w, hw, double, holds⟩ :=
      Numeral.exists_moved_holds (p.tail = "px".toList) (by simpa using bound) e.comparison
    obtain ⟨m, canonical, exact, text⟩ := exists_isCanonical_text double
    rw [← exact] at holds
    have query := query_moved useCalc hp exclusive hn (not_le.mp zero)
    rw [hw, ← text] at query
    exact ⟨m, p.tail, canonical.toIsPlain, .inl rfl, query, holds,
      query ▸ query_ne_inclusive useCalc hp hn canonical.toIsPlain holds.ne hp.tail⟩

theorem query_excludes_last_pixel :
    (⟨[], "9007199254740991".toList, "px".toList⟩ : ValueParts).IsSplit "9007199254740991px".toList ∧
    Numeral.IsSpelt ⟨false, "9007199254740991".toList, []⟩ "9007199254740991".toList ∧
    ∃ m : Numeral, m.IsPlain ∧ 9007199254740991 < m.exact ∧
      (⟨.width, .greater, false, "9007199254740991px".toList⟩ : RangeExpression).query ⟨none, false⟩ =
        (⟨.width, .greater, false, "9007199254740991px".toList⟩ : RangeExpression).queryOf
          (m.text ++ "px".toList) ∧
      (⟨.width, .greater, false, "9007199254740991px".toList⟩ : RangeExpression).query ⟨none, false⟩ ≠
        (⟨.width, .greater, true, "9007199254740991px".toList⟩ : RangeExpression).query ⟨none, false⟩ := by
  have hp : (⟨[], "9007199254740991".toList, "px".toList⟩ : ValueParts).IsSplit
      "9007199254740991px".toList := ValueParts.of?_eq_some_iff.mp rfl
  have hn : Numeral.IsSpelt ⟨false, "9007199254740991".toList, []⟩ "9007199254740991".toList :=
    ⟨List.all_eq_true.mp (by decide), by decide, [], .inr ⟨rfl, rfl⟩, by decide⟩
  have exact : Numeral.exact ⟨false, "9007199254740991".toList, []⟩ = 9007199254740991 := by
    decide +kernel
  obtain ⟨m, tail, plain, same | ⟨bare, -⟩, query, holds, other⟩ :=
    query_excludes (e := ⟨.width, .greater, false, "9007199254740991px".toList⟩) false rfl
      hp hn (.inr ⟨rfl, by decide, by rw [exact]; rfl, by rw [exact]; norm_num⟩)
  · rw [exact] at holds
    rw [same] at query
    exact ⟨hp, hn, m, plain, holds, query, other⟩
  · exact absurd bare (by decide)

/-- From `2 ^ 53` on a pixel is lost, and a thousandth before that: these exclusive bounds are
written as the inclusive ones. -/
theorem query_keeps_boundary :
    IsNumber "9007199254740992px".toList ∧ IsNumber "100000000000000em".toList ∧
    (⟨.width, .greater, false, "9007199254740992px".toList⟩ : RangeExpression).query ⟨none, false⟩ =
      (⟨.width, .greater, true, "9007199254740992px".toList⟩ : RangeExpression).query ⟨none, false⟩ ∧
    (⟨.width, .greater, false, "100000000000000em".toList⟩ : RangeExpression).query ⟨none, false⟩ =
      (⟨.width, .greater, true, "100000000000000em".toList⟩ : RangeExpression).query ⟨none, false⟩ :=
  ⟨by decide, by decide, by decide +kernel, by decide +kernel⟩

end RangeExpression

end MediaRange
