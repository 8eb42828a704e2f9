import MediaRange.Proofs.Rewriting.StandardRanges

/-!
# Ranges as they are printed

The text of an expression is a range with one sign, and one space on either side of it. If its value
is one of the grammar, the parts of the range are those of the expression (`verdict_cut`), so rewriting
the text replaces all of it by the query, whatever custom values the engine has
(`rewriteParams_text`).
-/

namespace MediaRange

open Unicode

namespace RangeExpression

/-- The inside of the printed expression, cut at its sign. -/
def cut (e : RangeExpression) : SignCut :=
  ⟨e.feature.name.toList ++ [' '], e.comparison, e.inclusive, ' ' :: e.value⟩

theorem text_eq_group (e : RangeExpression) : e.text = (Fragment.group e.cut.text).text := by
  obtain ⟨feature, comparison, inclusive, value⟩ := e
  cases inclusive <;> simp [text, cut, SignCut.text, signText, Fragment.text]

theorem isBlankText_space : IsBlankText [' '] := by
  intro c hc
  rw [List.mem_singleton.mp hc]
  decide

theorem isPadded_before (e : RangeExpression) : IsPadded e.cut.before e.feature.name.toList :=
  ⟨[], [' '], isBlankText_nil, isBlankText_space, rfl⟩

theorem isPadded_after (e : RangeExpression) : IsPadded e.cut.after e.value :=
  ⟨[' '], [], isBlankText_space, isBlankText_nil, by simp [cut]⟩

/-- What is printed is what is read. -/
theorem verdict_cut {e : RangeExpression} (token : IsValueToken e.value) (settings : Settings) :
    (SingleForm.ofCut e.cut).verdict settings = .rewritten (e.query settings) := by
  have form : SingleForm.ofCut e.cut =
      ⟨e.feature.name.toList, e.comparison, e.inclusive, e.value⟩ := by
    rw [SingleForm.ofCut, isPadded_name.mp e.isPadded_before, e.isPadded_after.trim_eq token]
    rfl
  have some : e.value.isEmpty = false := List.isEmpty_eq_false_iff.mpr token.number.ne_nil
  rw [form, SingleForm.verdict]
  dsimp only
  rw [Feature.named?_name]
  dsimp only
  rw [some]
  rfl

end RangeExpression

/-- Printing an expression and rewriting the text gives the query of the expression: the text is the
one range that is rewritten, and nothing is left of it. -/
theorem rewriteParams_text {config : Config} {engine : Engine}
    (built : config.settings.bind Engine.build = .ok engine) {e : RangeExpression}
    (token : IsValueToken e.value) :
    (engine.rewriteParams e.text).value =
      .rewritten (e.query engine.settings) [⟨e.text, e.query engine.settings⟩] := by
  obtain ⟨body, grammar, hbody⟩ := Engine.exists_body built
  have single : e.cut.IsSingle :=
    isSingle_of_isPadded e.isPadded_before e.isPadded_after token
  rw [e.text_eq_group, Engine.rewriteParams_single grammar hbody single,
    RangeExpression.verdict_cut token]
  rfl

theorem rewriteParams_text_ratio :
    (Config.settings ⟨none, false⟩).bind Engine.build = .ok (plainEngine false) ∧
      IsValueToken "16 / 9".toList ∧
      ((plainEngine false).rewriteParams "(aspect-ratio > 16 / 9)".toList).value =
        .rewritten "(min-aspect-ratio: 16.001 / 9)".toList
          [⟨"(aspect-ratio > 16 / 9)".toList, "(min-aspect-ratio: 16.001 / 9)".toList⟩] := by
  have built : (Config.settings ⟨none, false⟩).bind Engine.build = .ok (plainEngine false) :=
    bind_eq_ok_iff.mpr ⟨⟨none, false⟩, rfl, build_plain false⟩
  have ratio : IsValueToken "16 / 9".toList :=
    ⟨by decide +kernel, fun _ first => by cases first; decide⟩
  let e : RangeExpression := ⟨.aspectRatio, .greater, false, "16 / 9".toList⟩
  have text : e.text = "(aspect-ratio > 16 / 9)".toList := by decide
  have query : e.query (plainEngine false).settings = "(min-aspect-ratio: 16.001 / 9)".toList := by
    decide +kernel
  have rewritten := rewriteParams_text built (e := e) ratio
  rw [text, query] at rewritten
  exact ⟨built, ratio, rewritten⟩

end MediaRange
