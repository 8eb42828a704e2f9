import MediaRange.Proofs.Rewriting.Shrinking
import MediaRange.Proofs.Stylesheet.Splice

/-!
# A changed stylesheet has fewer comparison signs

Each change of a stylesheet takes signs out of it, so a stylesheet with changes is another text. By
`isChanged_iff_css_ne` the converse holds too: what is recorded and what is seen agree.
-/

namespace MediaRange

section

variable {engine : Engine} (shrinks : engine.Shrinks)
include shrinks

theorem IsSplice.signCount_le {read css out : List Char} {changes : List RuleChange}
    (h : IsSplice engine read css out changes) :
    signCount out + changes.length ≤ signCount css := by
  induction h with
  | rest => exact Nat.le_refl _
  | @change read front blanks css out change changes hblanks line ne_nil trimmed rewritten h ih =>
    have taken := shrinks _ _ _ rewritten
    simp only [signCount_append, List.length_cons]
    omega

theorem signCount_process_lt {css : List Char}
    (changed : (Stylesheet.process engine css).value.isChanged = true) :
    signCount (Stylesheet.process engine css).value.css < signCount css := by
  have count := (process_isSplice engine css).1.signCount_le shrinks
  have some : (Stylesheet.process engine css).value.changes ≠ [] := by
    simpa [Processed.isChanged] using changed
  have pos := List.length_pos_of_ne_nil some
  omega

/-- Changes are recorded exactly if the text is another one. -/
theorem isChanged_iff_css_ne (css : List Char) :
    (Stylesheet.process engine css).value.isChanged = true ↔
      (Stylesheet.process engine css).value.css ≠ css := by
  constructor
  · intro changed same
    have fewer := signCount_process_lt shrinks changed
    rw [same] at fewer
    exact Nat.lt_irrefl _ fewer
  · intro differs
    rcases (process_isSplice engine css).2 with some | same
    · simpa [Processed.isChanged] using some
    · exact absurd same differs

end

/-- Rewriting uses up comparison signs: two for each double rewrite and one for each single one. It
never gives the same text back, it ends after at most as many passes as there are signs, and a
stylesheet counts as changed exactly if its text is another one. -/
theorem rewriting_uses_up_signs {config : Config} {engine : Engine}
    (built : config.settings.bind Engine.build = .ok engine) :
    (∀ params after rewrites,
      (engine.rewriteParams params).value = .rewritten after rewrites →
      rewrites = engine.doubleRewrites params ++ engine.singleRewrites params ∧
        signCount after + (2 * (engine.doubleRewrites params).length +
          (engine.singleRewrites params).length) = signCount params ∧
        after ≠ params) ∧
      (∀ params, ∃ n ≤ signCount params,
        (∀ i < n, engine.Rewrites (engine.rewrittenParams^[i] params)) ∧
          ∀ i, ¬engine.Rewrites (engine.rewrittenParams^[n + i] params) ∧
            engine.rewrittenParams^[n + i] params = engine.rewrittenParams^[n] params) ∧
      ∀ css, (Stylesheet.process engine css).value.isChanged = true ↔
        (Stylesheet.process engine css).value.css ≠ css := by
  have shrinks := Engine.shrinks_of_built built
  refine ⟨fun params after rewrites h => ?_, Engine.exists_last_pass shrinks,
    isChanged_iff_css_ne shrinks⟩
  obtain ⟨body, grammar, hbody⟩ := Engine.exists_body built
  obtain ⟨-, parts, -⟩ := Engine.passes_of_rewritten h
  refine ⟨parts, Engine.signCount_rewriteParams grammar hbody h, ?_⟩
  rintro rfl
  exact Nat.lt_irrefl _ (shrinks _ _ _ h)

/-- The engine of variables rewrites both bounds of the text, and then nothing more. -/
theorem rewriting_uses_up_signs_var :
    (Config.settings ⟨some "/var\\(--[a-z-]+\\)/", false⟩).bind Engine.build = .ok varEngine ∧
      (varEngine.rewriteParams "(1px<width<var(--x))".toList).value =
        .rewritten "(min-width: 2px) and (max-width: var(--x) - 0.001)".toList
          [⟨"(1px<width<var(--x))".toList,
            "(min-width: 2px) and (max-width: var(--x) - 0.001)".toList⟩] ∧
      signCount "(min-width: 2px) and (max-width: var(--x) - 0.001)".toList + 2 =
        signCount "(1px<width<var(--x))".toList := by
  have rewritten : (varEngine.rewriteParams "(1px<width<var(--x))".toList).value =
      .rewritten "(min-width: 2px) and (max-width: var(--x) - 0.001)".toList
        [⟨"(1px<width<var(--x))".toList,
          "(min-width: 2px) and (max-width: var(--x) - 0.001)".toList⟩] := by
    decide +kernel
  refine ⟨settings_bind_build_var, rewritten, ?_⟩
  obtain ⟨parts, count, -⟩ := (rewriting_uses_up_signs settings_bind_build_var).1 _ _ _ rewritten
  have doubles : (varEngine.doubleRewrites "(1px<width<var(--x))".toList).length = 1 := by
    decide +kernel
  have whole := congrArg List.length parts
  rw [List.length_append, List.length_singleton] at whole
  omega

end MediaRange
