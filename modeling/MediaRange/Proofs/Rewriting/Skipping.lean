import MediaRange.Proofs.Rewriting.LoneRange

/-!
# Skipping parameters

Parameters without comparison signs are skipped before any pattern is run. Every match of a grammar
takes a sign, whatever its custom values are, so by `skipping_loses_nothing` both passes would have
left them as they are.
-/

namespace MediaRange

open Pattern Grammar

/-! ### Patterns that need a sign -/

/-- Every way to match takes a comparison sign. -/
def Pattern.NeedsSign (p : Pattern) : Prop :=
  ∀ k, ∀ w ∈ ways p k [], 0 < signCount (w.matchFrom k).text

theorem signCount_take_le (n : Nat) (text : List Char) :
    signCount (text.take n) ≤ signCount text := by
  have whole := signCount_append (text.take n) (text.drop n)
  rw [List.take_append_drop] at whole
  omega

namespace Pattern

variable {p : Pattern}

theorem NeedsSign.matchAt_eq_none (h : p.NeedsSign) {k : Cursor} (noSign : signCount k.rest = 0) :
    p.matchAt k = none := by
  rw [matchAt_eq_head, Option.map_eq_none_iff, List.head?_eq_none_iff]
  apply List.eq_nil_iff_forall_not_mem.mpr
  intro w hw
  have some := h k w hw
  have fewer := signCount_take_le (w.stop.position - k.position) k.rest
  unfold Way.matchFrom at some
  dsimp only at some
  omega

theorem NeedsSign.occursFrom_eq_false (h : p.NeedsSign) {text : List Char}
    (noSign : signCount text = 0) (position : Nat) (before : Option Char) :
    p.occursFrom position before text = false := by
  induction text generalizing position before with
  | nil => rw [occursFrom, h.matchAt_eq_none (k := ⟨position, before, []⟩) noSign]; rfl
  | cons c rest ih =>
    have split := signCount_append [c] rest
    rw [List.singleton_append] at split
    rw [occursFrom, h.matchAt_eq_none noSign, ih (by omega)]
    rfl

/-- A pattern that needs a sign occurs nowhere in a text without one. -/
theorem NeedsSign.occursIn_eq_false (h : p.NeedsSign) {text : List Char}
    (noSign : signCount text = 0) : p.occursIn text = false :=
  h.occursFrom_eq_false noSign 0 none

end Pattern

namespace Engine

variable {engine : Engine} {body : Option Pattern} {recognized : List Char → Prop}
  (grammar : engine.grammar = ofBody body) (hbody : Recognizes body recognized)
include grammar hbody

theorem needsSign_single : engine.grammar.single.NeedsSign := by
  rw [grammar]
  intro k w hw
  have count := (single_way_captures hbody hw).2
  omega

theorem needsSign_double : engine.grammar.double.NeedsSign := by
  rw [grammar]
  intro k w hw
  have count := (double_way_captures hbody hw).2
  omega

end Engine

/-! ### Both passes without skipping -/

theorem signCount_eq_zero_iff {text : List Char} :
    signCount text = 0 ↔ '<' ∉ text ∧ '>' ∉ text := by
  unfold signCount
  rw [List.countP_eq_zero]
  constructor
  · intro none
    exact ⟨fun less => none _ less rfl, fun greater => none _ greater rfl⟩
  · rintro ⟨noLess, noGreater⟩ c hc sign
    obtain ⟨s, rfl⟩ := isSign_iff.mp sign
    cases s with
    | less => exact noLess hc
    | greater => exact noGreater hc

namespace Engine

/-- What both passes make of parameters, whether or not these hold a sign. -/
def bothPasses (engine : Engine) (params : List Char) : Logged Outcome :=
  let rewrites := engine.doubleRewrites params ++ engine.singleRewrites params
  ⟨if rewrites.isEmpty then .unchanged
    else .rewritten ((engine.singlePass params).flatMap Judged.text) rewrites,
    (engine.doublePass params ++ engine.singlePass params).filterMap Judged.record?⟩

variable {engine : Engine} {params : List Char}

/-- A pass without a rewrite leaves the text as it is. -/
theorem judge_text_of_no_rewrites {p : Pattern} {verdict : Match → Verdict} {text : List Char}
    (h : (judge p verdict text).filterMap Judged.rewrite? = []) :
    (judge p verdict text).flatMap Judged.text = text := by
  rw [judge_eq] at h ⊢
  have same : ∀ s ∈ p.segments text, (judgeSegment verdict s).text = s.text := by
    intro s hs
    have left : (judgeSegment verdict s).rewrite? = none :=
      List.filterMap_eq_nil_iff.mp h _ (List.mem_map_of_mem hs)
    cases s with
    | plain c => rfl
    | found m =>
      unfold judgeSegment at left ⊢
      dsimp only [Judged.rewrite?, Judged.text] at left ⊢
      cases hv : verdict m with
      | rewritten replacement =>
        rw [hv] at left
        cases left
      | unknownFeature | mixedDirections | missingValue => rfl
  rw [List.flatMap_map]
  conv_rhs => rw [← segments_text p text]
  rw [List.flatMap_def, List.flatMap_def, List.map_congr_left same]

theorem paramsOr_bothPasses :
    (engine.bothPasses params).value.paramsOr params =
      (engine.singlePass params).flatMap Judged.text := by
  unfold bothPasses
  dsimp only
  split
  · rename_i none
    obtain ⟨noDouble, noSingle⟩ := List.append_eq_nil_iff.mp (List.isEmpty_iff.mp none)
    have first := judge_text_of_no_rewrites noDouble
    have second := judge_text_of_no_rewrites noSingle
    exact (second.trans first).symm
  · rfl

theorem rewrites_bothPasses :
    (engine.bothPasses params).value.rewrites =
      engine.doubleRewrites params ++ engine.singleRewrites params := by
  unfold bothPasses
  dsimp only
  split
  · rename_i none
    exact (List.isEmpty_iff.mp none).symm
  · rfl

theorem rewriteParams_eq_bothPasses (sign : signCount params ≠ 0) :
    engine.rewriteParams params = engine.bothPasses params :=
  rewriteParams_passes sign

theorem rewriteParams_skipped (noSign : signCount params = 0) :
    (engine.rewriteParams params).value = .skipped := by
  obtain ⟨noLess, noGreater⟩ := signCount_eq_zero_iff.mp noSign
  apply rewriteParams_of_no_sign
  rintro (less | greater)
  · exact noLess less
  · exact noGreater greater

theorem bothPasses_ne_skipped : (engine.bothPasses params).value ≠ .skipped := by
  unfold bothPasses
  dsimp only
  split
  · simp
  · simp

theorem rewriteParams_skipped_iff :
    (engine.rewriteParams params).value = .skipped ↔ '<' ∉ params ∧ '>' ∉ params := by
  rw [← signCount_eq_zero_iff]
  constructor
  · intro skipped
    by_contra sign
    rw [rewriteParams_eq_bothPasses sign] at skipped
    exact bothPasses_ne_skipped skipped
  · exact rewriteParams_skipped

section

variable {body : Option Pattern} (grammar : engine.grammar = ofBody body)
  (hbody : Recognizes body fun _ => True)
include grammar hbody

theorem doublePass_of_no_sign (noSign : signCount params = 0) :
    engine.doublePass params = params.map .plain :=
  judgeDouble_of_signCount grammar hbody (by omega)

theorem singlePass_of_no_sign (noSign : signCount params = 0) :
    engine.singlePass params = params.map .plain := by
  unfold singlePass
  rw [doublePass_of_no_sign grammar hbody noSign, flatMap_text_plain]
  exact judgeSingle_of_signCount grammar hbody (by omega)

theorem bothPasses_of_no_sign (noSign : signCount params = 0) :
    engine.bothPasses params = ⟨.unchanged, []⟩ := by
  have doubles := doublePass_of_no_sign grammar hbody noSign
  have singles := singlePass_of_no_sign grammar hbody noSign
  unfold bothPasses doubleRewrites singleRewrites
  rw [doubles, singles, List.filterMap_append, filterMap_rewrite?_plain, filterMap_record?_plain]
  rfl

/-- The text after both passes is the result, also for parameters that are skipped. -/
theorem rewrittenParams_eq (params : List Char) :
    engine.rewrittenParams params = (engine.singlePass params).flatMap Judged.text := by
  unfold rewrittenParams
  by_cases noSign : signCount params = 0
  · rw [rewriteParams_skipped noSign, singlePass_of_no_sign grammar hbody noSign,
      flatMap_text_plain]
    rfl
  · rw [rewriteParams_eq_bothPasses noSign, paramsOr_bothPasses]

/-- The rewrites are those of the first pass and then those of the second. -/
theorem rewrites_rewriteParams (params : List Char) :
    (engine.rewriteParams params).value.rewrites =
      engine.doubleRewrites params ++ engine.singleRewrites params := by
  rw [← rewrites_bothPasses]
  by_cases noSign : signCount params = 0
  · rw [rewriteParams_skipped noSign, bothPasses_of_no_sign grammar hbody noSign]
    rfl
  · rw [rewriteParams_eq_bothPasses noSign]

end

/-- Parameters without comparison signs are skipped, and they alone. No pattern of the grammar occurs
in them, so both passes would leave them as they are, and no rewrite is ever lost. -/
theorem skipping_loses_nothing {config : Config} {engine : Engine}
    (built : config.settings.bind build = .ok engine) (params : List Char) :
    ((engine.rewriteParams params).value = .skipped ↔ '<' ∉ params ∧ '>' ∉ params) ∧
      ('<' ∉ params ∧ '>' ∉ params →
        engine.grammar.single.occursIn params = false ∧
          engine.grammar.double.occursIn params = false ∧
          engine.bothPasses params = ⟨.unchanged, []⟩ ∧
          (engine.singlePass params).flatMap Judged.text = params) ∧
      (engine.rewriteParams params).value.paramsOr params =
        (engine.bothPasses params).value.paramsOr params ∧
      (engine.rewriteParams params).value.rewrites = (engine.bothPasses params).value.rewrites := by
  obtain ⟨body, grammar, hbody⟩ := exists_body built
  refine ⟨rewriteParams_skipped_iff, ?_, ?_, ?_⟩
  · intro none
    have noSign := signCount_eq_zero_iff.mpr none
    refine ⟨(needsSign_single grammar hbody).occursIn_eq_false noSign,
      (needsSign_double grammar hbody).occursIn_eq_false noSign,
      bothPasses_of_no_sign grammar hbody noSign, ?_⟩
    rw [singlePass_of_no_sign grammar hbody noSign, flatMap_text_plain]
  · rw [paramsOr_bothPasses]
    exact rewrittenParams_eq grammar hbody params
  · rw [rewrites_bothPasses]
    exact rewrites_rewriteParams grammar hbody params

/-- The engine of variables skips a variable that stands in the place of a number. -/
theorem skipping_loses_nothing_var :
    (Config.settings ⟨some "/var\\(--[a-z-]+\\)/", false⟩).bind build = .ok varEngine ∧
      ('<' ∉ "(width = 5px) and (min-width: var(--x))".toList ∧
        '>' ∉ "(width = 5px) and (min-width: var(--x))".toList) ∧
      (varEngine.rewriteParams "(width = 5px) and (min-width: var(--x))".toList).value = .skipped ∧
      varEngine.grammar.single.occursIn "(width = 5px) and (min-width: var(--x))".toList = false ∧
      varEngine.grammar.double.occursIn "(width = 5px) and (min-width: var(--x))".toList = false ∧
      varEngine.bothPasses "(width = 5px) and (min-width: var(--x))".toList = ⟨.unchanged, []⟩ := by
  have none : '<' ∉ "(width = 5px) and (min-width: var(--x))".toList ∧
      '>' ∉ "(width = 5px) and (min-width: var(--x))".toList := by decide
  obtain ⟨skipped, left, -⟩ := skipping_loses_nothing settings_bind_build_var
    "(width = 5px) and (min-width: var(--x))".toList
  obtain ⟨single, double, unchanged, -⟩ := left none
  exact ⟨settings_bind_build_var, none, skipped.mpr none, single, double, unchanged⟩

end Engine

end MediaRange
