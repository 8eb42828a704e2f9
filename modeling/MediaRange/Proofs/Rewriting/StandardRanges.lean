import MediaRange.Proofs.Rewriting.LoneRange

/-!
# Standard ranges

What becomes of a standard range depends on little: a double range gives the same queries as two
single ones (`rewrittenParams_double`), and custom values that are not in it make no difference
(`rewriteParams_conservative`).
-/

namespace MediaRange

open Unicode Grammar

/-! ### Two bounds as one range -/

def singleText (name : List Char) (s : Comparison) (inclusive : Bool) (value : List Char) :
    List Char :=
  (Fragment.group (SignCut.mk name s inclusive value).text).text

def doubleText (left : List Char) (s : Comparison) (leftInclusive : Bool) (name : List Char)
    (t : Comparison) (rightInclusive : Bool) (right : List Char) : List Char :=
  (Fragment.group
    (SignCut.mk left s leftInclusive (SignCut.mk name t rightInclusive right).text).text).text

theorem IsPadded.trim_eq {text value : List Char} (h : IsPadded text value)
    (token : IsValueToken value) : trim text = value :=
  (isPadded_iff token.isTrimmed).mp h

theorem isSingle_of_isPadded {f : Feature} {name value a : List Char} {s : Comparison}
    {inclusive : Bool} (hname : IsPadded name f.name.toList) (hvalue : IsPadded value a)
    (ha : IsValueToken a) : (SignCut.mk name s inclusive value).IsSingle :=
  ⟨isPadded_name.mp hname ▸ isName_name f, .inl (hvalue.trim_eq ha ▸ ha.number)⟩

namespace Engine

variable {useCalc : Bool}

theorem rewrittenParams_of_isSingle {cut : SignCut} (h : cut.IsSingle) :
    (plainEngine useCalc).rewrittenParams (Fragment.group cut.text).text =
      ((SingleForm.ofCut cut).range?.map (·.query ⟨none, useCalc⟩)).getD
        (Fragment.group cut.text).text := by
  rw [rewrittenParams, rewriteParams_single rfl recognizes_none h]
  dsimp only
  rw [Verdict.paramsOr_outcome, Verdict.text_eq, SingleForm.replacement?_verdict]
  rfl

theorem rewrittenParams_of_isDouble {first second : SignCut} (h : first.IsDouble second) :
    (plainEngine useCalc).rewrittenParams (Fragment.group first.text).text =
      ((DoubleForm.ofCuts first second).range?.map (·.query ⟨none, useCalc⟩)).getD
        (Fragment.group first.text).text := by
  rw [rewrittenParams, rewriteParams_double rfl recognizes_none h]
  dsimp only
  rw [Verdict.paramsOr_outcome, Verdict.text_eq, DoubleForm.replacement?_verdict]
  rfl

variable {f : Feature} {name : List Char} (hname : IsPadded name f.name.toList)
include hname

theorem rewrittenParams_singleText {value a : List Char} (hvalue : IsPadded value a)
    (ha : IsValueToken a) (s : Comparison) (inclusive : Bool) :
    (plainEngine useCalc).rewrittenParams (singleText name s inclusive value) =
      RangeExpression.query ⟨none, useCalc⟩ ⟨f, s, inclusive, a⟩ := by
  have form : SingleForm.ofCut ⟨name, s, inclusive, value⟩ =
      ⟨f.name.toList, s, inclusive, a⟩ := by
    rw [SingleForm.ofCut, isPadded_name.mp hname, hvalue.trim_eq ha]
  have range := SingleForm.range?_eq_some_iff (e := ⟨f, s, inclusive, a⟩).mpr
    ⟨form, ha.number.ne_nil⟩
  rw [singleText, rewrittenParams_of_isSingle (isSingle_of_isPadded hname hvalue ha), range]
  rfl

theorem rewrittenParams_doubleText {left right a b : List Char} (hleft : IsPadded left a)
    (ha : IsValueToken a) (hright : IsPadded right b) (hb : IsValueToken b) (s t : Comparison)
    (i j : Bool) :
    (plainEngine useCalc).rewrittenParams (doubleText left s i name t j right) =
      if s = t then DoubleRange.query ⟨none, useCalc⟩ ⟨f, s, i, a, j, b⟩
      else doubleText left s i name t j right := by
  have form (u : List Char) : DoubleForm.ofCuts ⟨left, s, i, u⟩ ⟨name, t, j, right⟩ =
      ⟨a, s, i, f.name.toList, t, j, b⟩ := by
    rw [DoubleForm.ofCuts, isPadded_name.mp hname, hleft.trim_eq ha, hright.trim_eq hb]
  have double : (SignCut.mk left s i (SignCut.mk name t j right).text).IsDouble
      ⟨name, t, j, right⟩ :=
    ⟨rfl, .inl (hleft.trim_eq ha ▸ ha.number), isSingle_of_isPadded hname hright hb⟩
  rw [doubleText, rewrittenParams_of_isDouble double, form]
  by_cases same : s = t
  · subst same
    have range := DoubleForm.range?_eq_some_iff (d := ⟨f, s, i, a, j, b⟩).mpr
      ⟨rfl, ha.number.ne_nil, hb.number.ne_nil⟩
    rw [range, if_pos rfl]
    rfl
  · rw [if_neg same, DoubleForm.range?, Feature.named?_name, Option.bind_some, if_pos same]
    rfl

end Engine

/-- A double range is the conjunction of two single ones: `<` has the lower bound on the left and
`>` on the right, each bound keeps its equality sign, and the blanks between tokens are of no
account. Two directions give no range. -/
theorem rewrittenParams_double {useCalc : Bool} {engine : Engine}
    (built : Engine.build ⟨none, useCalc⟩ = .ok engine) {f : Feature} {a b : List Char}
    (ha : IsValueToken a) (hb : IsValueToken b)
    {left name right leftName leftValue rightName rightValue : List Char}
    (hleft : IsPadded left a) (hname : IsPadded name f.name.toList) (hright : IsPadded right b)
    (hleftName : IsPadded leftName f.name.toList) (hleftValue : IsPadded leftValue a)
    (hrightName : IsPadded rightName f.name.toList) (hrightValue : IsPadded rightValue b)
    (s t : Comparison) (i j : Bool) :
    let atLeft (c : Comparison) := engine.rewrittenParams (singleText leftName c i leftValue)
    let atRight (c : Comparison) := engine.rewrittenParams (singleText rightName c j rightValue)
    engine.rewrittenParams (doubleText left s i name t j right) =
      match s, t with
      | .less, .less => atLeft .greater ++ " and ".toList ++ atRight .less
      | .greater, .greater => atRight .greater ++ " and ".toList ++ atLeft .less
      | _, _ => doubleText left s i name t j right := by
  intro atLeft atRight
  obtain rfl := eq_plainEngine built
  have lone (c : Comparison) :
      atLeft c = RangeExpression.query ⟨none, useCalc⟩ ⟨f, c, i, a⟩ ∧
        atRight c = RangeExpression.query ⟨none, useCalc⟩ ⟨f, c, j, b⟩ :=
    ⟨Engine.rewrittenParams_singleText hleftName hleftValue ha c i,
      Engine.rewrittenParams_singleText hrightName hrightValue hb c j⟩
  rw [Engine.rewrittenParams_doubleText hname hleft ha hright hb s t i j]
  cases s <;> cases t <;> simp only [lone] <;> rfl

theorem rewrittenParams_double_ratio :
    Engine.build ⟨none, false⟩ = .ok (plainEngine false) ∧ IsValueToken "-.5em".toList ∧
      IsValueToken "16 / 9".toList ∧
      (plainEngine false).rewrittenParams "( -.5em >= width\t> 16 / 9)".toList =
        (plainEngine false).rewrittenParams "(width >16 / 9 )".toList ++ " and ".toList ++
          (plainEngine false).rewrittenParams "(width <= -.5em)".toList := by
  have em : IsValueToken "-.5em".toList :=
    ⟨by decide +kernel, fun _ first => by cases first; decide⟩
  have ratio : IsValueToken "16 / 9".toList :=
    ⟨by decide +kernel, fun _ first => by cases first; decide⟩
  have left : IsPadded " -.5em ".toList "-.5em".toList :=
    (isPadded_iff em.isTrimmed).mpr (by decide)
  have leftAlone : IsPadded " -.5em".toList "-.5em".toList :=
    (isPadded_iff em.isTrimmed).mpr (by decide)
  have right : IsPadded " 16 / 9".toList "16 / 9".toList :=
    (isPadded_iff ratio.isTrimmed).mpr (by decide)
  have rightAlone : IsPadded "16 / 9 ".toList "16 / 9".toList :=
    (isPadded_iff ratio.isTrimmed).mpr (by decide)
  have name : IsPadded " width\t".toList Feature.width.name.toList := isPadded_name.mpr (by decide)
  have nameAlone : IsPadded "width ".toList Feature.width.name.toList :=
    isPadded_name.mpr (by decide)
  have same := rewrittenParams_double (build_plain false) em ratio left name right nameAlone leftAlone
    nameAlone rightAlone .greater .greater true false
  exact ⟨build_plain false, em, ratio, same⟩

/-! ### Custom values that are not there -/

/-- A text that is one range of the grammar without custom values, with its values. -/
inductive IsStandard : List Char → List (List Char) → Prop where
  | single {cut : SignCut} (h : cut.IsSingle) :
      IsStandard (Fragment.group cut.text).text [trim cut.after]
  | double {first second : SignCut} (h : first.IsDouble second) :
      IsStandard (Fragment.group first.text).text [trim first.before, trim second.after]

section

variable {custom : CustomValue} (useCalc otherCalc : Bool)

theorem RangeExpression.query_of_recognizes {e : RangeExpression}
    (h : custom.recognizes e.value = false) :
    e.query ⟨some custom, useCalc⟩ = e.query ⟨none, otherCalc⟩ := by
  simp [query, boundValue, h]

theorem DoubleRange.query_of_recognizes {d : DoubleRange} (hl : custom.recognizes d.left = false)
    (hr : custom.recognizes d.right = false) :
    d.query ⟨some custom, useCalc⟩ = d.query ⟨none, otherCalc⟩ := by
  have lower : custom.recognizes d.lower.value = false := by
    rw [lower]
    split <;> assumption
  have upper : custom.recognizes d.upper.value = false := by
    rw [upper]
    split <;> assumption
  rw [query, query, RangeExpression.query_of_recognizes useCalc otherCalc lower,
    RangeExpression.query_of_recognizes useCalc otherCalc upper]

theorem SingleForm.verdict_of_recognizes {f : SingleForm} (h : custom.recognizes f.value = false) :
    f.verdict ⟨some custom, useCalc⟩ = f.verdict ⟨none, otherCalc⟩ := by
  have same (feature : Feature) := RangeExpression.query_of_recognizes useCalc otherCalc
    (e := ⟨feature, f.comparison, f.inclusive, f.value⟩) h
  simp only [verdict, same]

theorem DoubleForm.verdict_of_recognizes {f : DoubleForm} (hl : custom.recognizes f.left = false)
    (hr : custom.recognizes f.right = false) :
    f.verdict ⟨some custom, useCalc⟩ = f.verdict ⟨none, otherCalc⟩ := by
  have same (feature : Feature) := DoubleRange.query_of_recognizes useCalc otherCalc
    (d := ⟨feature, f.leftComparison, f.leftInclusive, f.left, f.rightInclusive, f.right⟩) hl hr
  simp only [verdict, same]

end

/-- Custom values are a conservative extension: on a standard range none of whose values is
recognized, the engine gives what it gives without them, with the same log. -/
theorem rewriteParams_conservative {pattern : List Char} {custom : CustomValue}
    (accepted : CustomValue.read? pattern = .ok custom) {useCalc otherCalc : Bool}
    {engine standard : Engine} (built : Engine.build ⟨some custom, useCalc⟩ = .ok engine)
    (plain : Engine.build ⟨none, otherCalc⟩ = .ok standard) {params : List Char}
    {values : List (List Char)} (range : IsStandard params values)
    (unknown : ∀ v ∈ values, custom.recognizes v = false) :
    engine.rewriteParams params = standard.rewriteParams params := by
  obtain rfl := eq_plainEngine plain
  obtain ⟨grammar, hgrammar, h⟩ := bind_eq_ok_iff.mp built
  cases h
  obtain ⟨body, rfl, hbody⟩ := CustomValue.exists_body accepted hgrammar
  cases range with
  | @single cut h =>
    have same := SingleForm.verdict_of_recognizes useCalc otherCalc (f := .ofCut cut)
      (unknown (trim cut.after) (by simp))
    rw [Engine.rewriteParams_single rfl hbody h, Engine.rewriteParams_single rfl recognizes_none h,
      same]
    rfl
  | @double first second h =>
    have same := DoubleForm.verdict_of_recognizes useCalc otherCalc (f := .ofCuts first second)
      (unknown (trim first.before) (by simp)) (unknown (trim second.after) (by simp))
    rw [Engine.rewriteParams_double rfl hbody h, Engine.rewriteParams_double rfl recognizes_none h,
      same]
    rfl

theorem rewriteParams_conservative_var :
    CustomValue.read? "/var\\(--[a-z-]+\\)/".toList = .ok varValue ∧
      Engine.build ⟨some varValue, false⟩ = .ok varEngine ∧
      Engine.build ⟨none, true⟩ = .ok (plainEngine true) ∧
      IsStandard "(16 / 9 < aspect-ratio <= 2)".toList ["16 / 9".toList, "2".toList] ∧
      (∀ v ∈ ["16 / 9".toList, "2".toList], varValue.recognizes v = false) ∧
      varEngine.rewriteParams "(16 / 9 < aspect-ratio <= 2)".toList =
        (plainEngine true).rewriteParams "(16 / 9 < aspect-ratio <= 2)".toList := by
  have double : SignCut.IsDouble ⟨"16 / 9 ".toList, .less, false, " aspect-ratio <= 2".toList⟩
      ⟨" aspect-ratio ".toList, .less, true, " 2".toList⟩ :=
    ⟨by decide, by decide +kernel, by decide, by decide +kernel⟩
  have range : IsStandard "(16 / 9 < aspect-ratio <= 2)".toList ["16 / 9".toList, "2".toList] :=
    .double double
  have unknown : ∀ v ∈ ["16 / 9".toList, "2".toList], varValue.recognizes v = false := by
    decide +kernel
  exact ⟨read?_varValue, build_varEngine, build_plain true, range, unknown,
    rewriteParams_conservative read?_varValue build_varEngine (build_plain true) range unknown⟩

end MediaRange
