import MediaRange.Proofs.Rewriting.Skipping

/-!
# Lists of queries

No comma stands in a range, so what is on one side of a comma has no effect on the other side, not
even if parentheses are left open. `rewrites_query_by_query` shows that a list of queries is
rewritten member by member.
-/

namespace MediaRange

/-! ### The new text is unique -/

section

variable {settings : Settings} {text out out' : List Char}
  {doubles doubles' singles singles' : List Rewrite}

/-- A text has one new text and one list of rewrites. -/
theorem RewritesTo.unique (h : RewritesTo settings text out doubles singles)
    (h' : RewritesTo settings text out' doubles' singles') :
    out = out' ∧ doubles = doubles' ∧ singles = singles' := by
  induction h generalizing out' doubles' singles' with
  | done =>
    generalize same : [] = whole at h'
    cases h' with
    | done => exact ⟨rfl, rfl, rfl⟩
    | double | single => cases same
    | copy => cases same
  | @double inside text out doubles singles d spelt ht ih =>
    generalize same : (Fragment.group inside).text ++ text = whole at h'
    cases h' with
    | done => cases same
    | @double inside' text' _ _ _ d' spelt' ht' =>
      obtain ⟨rfl, rfl⟩ := group_unique spelt.isParenFree spelt'.isParenFree same
      obtain rfl := Reading.double.inj (spelt.unique spelt')
      obtain ⟨rfl, rfl, rfl⟩ := ih ht'
      exact ⟨rfl, rfl, rfl⟩
    | single spelt' =>
      obtain ⟨rfl, -⟩ := group_unique spelt.isParenFree spelt'.isParenFree same
      cases spelt.unique spelt'
    | copy unspelt => exact absurd same.symm (unspelt _ _ _ spelt)
  | @single inside text out doubles singles e spelt ht ih =>
    generalize same : (Fragment.group inside).text ++ text = whole at h'
    cases h' with
    | done => cases same
    | double spelt' =>
      obtain ⟨rfl, -⟩ := group_unique spelt.isParenFree spelt'.isParenFree same
      cases spelt.unique spelt'
    | @single inside' text' _ _ _ e' spelt' ht' =>
      obtain ⟨rfl, rfl⟩ := group_unique spelt.isParenFree spelt'.isParenFree same
      obtain rfl := Reading.single.inj (spelt.unique spelt')
      obtain ⟨rfl, rfl, rfl⟩ := ih ht'
      exact ⟨rfl, rfl, rfl⟩
    | copy unspelt => exact absurd same.symm (unspelt _ _ _ spelt)
  | @copy c text out doubles singles unspelt ht ih =>
    generalize same : c :: text = whole at h'
    cases h' with
    | done => cases same
    | double spelt' | single spelt' => exact absurd same (unspelt _ _ _ spelt')
    | copy unspelt' ht' =>
      obtain ⟨rfl, rfl⟩ := List.cons.inj same
      obtain ⟨rfl, rfl, rfl⟩ := ih ht'
      exact ⟨rfl, rfl, rfl⟩

end

/-! ### Texts around a separator -/

/-- A character that no group that spells a comparison has in it. -/
def IsSeparator (c : Char) : Prop :=
  ∀ inside r, Spells inside r → c ∉ (Fragment.group inside).text

theorem isSeparator_comma : IsSeparator ',' := by
  intro inside r spelt hmem
  have within : ',' ∈ inside := by simpa [Fragment.text] using hmem
  exact absurd rfl (ne_of_isRangeChar (d := ',') (spelt.isRangeChar _ within) (by decide))

/-- A group that ends behind a separator starts behind it. -/
theorem IsSeparator.ne_group {c : Char} (hc : IsSeparator c) {inside : List Char} {r : Reading}
    (spelt : Spells inside r) {a b : List Char}
    (h : ∀ rest, a ≠ (Fragment.group inside).text ++ rest) (rest : List Char) :
    a ++ c :: b ≠ (Fragment.group inside).text ++ rest := by
  intro same
  rcases List.append_eq_append_iff.mp same with ⟨u, within, after⟩ | ⟨u, before, -⟩
  · cases u with
    | nil => exact h [] (by simpa using within.symm)
    | cons d u =>
      obtain ⟨rfl, -⟩ := List.cons.inj after
      exact hc inside r spelt (by simp [within])
  · exact h u before

/-- The texts before and after a separator are rewritten on their own. -/
theorem RewritesTo.append {settings : Settings} {c : Char} (hc : IsSeparator c)
    {a b outA outB : List Char} {doublesA doublesB singlesA singlesB : List Rewrite}
    (ha : RewritesTo settings a outA doublesA singlesA)
    (hb : RewritesTo settings b outB doublesB singlesB) :
    RewritesTo settings (a ++ c :: b) (outA ++ c :: outB) (doublesA ++ doublesB)
      (singlesA ++ singlesB) := by
  induction ha with
  | done =>
    refine .copy (fun inside r rest spelt => ?_) hb
    exact hc.ne_group spelt (a := []) (by simp [Fragment.text]) rest
  | double spelt _ ih =>
    rw [List.append_assoc, List.append_assoc]
    exact .double spelt ih
  | single spelt _ ih =>
    rw [List.append_assoc, List.append_assoc]
    exact .single spelt ih
  | copy unspelt _ ih =>
    refine .copy (fun inside r rest spelt => ?_) ih
    exact hc.ne_group spelt (fun rest => unspelt inside r rest spelt) rest

/-! ### Query by query -/

section

variable (useCalc : Bool)

/-- What an engine without custom values makes of any parameters, also of those that it skips. -/
theorem rewritesTo_plainEngine (params : List Char) :
    RewritesTo ⟨none, useCalc⟩ params ((plainEngine useCalc).rewrittenParams params)
      ((plainEngine useCalc).doubleRewrites params)
      ((plainEngine useCalc).singleRewrites params) := by
  obtain ⟨doubles, singles, text⟩ := firstPass_secondPass useCalc params
  have whole := rewritesTo_fragments ⟨none, useCalc⟩ params
  rw [← doubles, ← singles, ← text] at whole
  rw [Engine.rewrittenParams_eq rfl recognizes_none]
  exact whole

theorem rewritten_comma (a b : List Char) :
    (plainEngine useCalc).rewrittenParams (a ++ ',' :: b) =
        (plainEngine useCalc).rewrittenParams a ++
          ',' :: (plainEngine useCalc).rewrittenParams b ∧
      (plainEngine useCalc).doubleRewrites (a ++ ',' :: b) =
        (plainEngine useCalc).doubleRewrites a ++ (plainEngine useCalc).doubleRewrites b ∧
      (plainEngine useCalc).singleRewrites (a ++ ',' :: b) =
        (plainEngine useCalc).singleRewrites a ++ (plainEngine useCalc).singleRewrites b := by
  have apart := (rewritesTo_plainEngine useCalc a).append isSeparator_comma
    (rewritesTo_plainEngine useCalc b)
  exact (rewritesTo_plainEngine useCalc (a ++ ',' :: b)).unique apart

theorem rewritten_intercalate (queries : List (List Char)) :
    (plainEngine useCalc).rewrittenParams ([','].intercalate queries) =
        [','].intercalate (queries.map (plainEngine useCalc).rewrittenParams) ∧
      (plainEngine useCalc).doubleRewrites ([','].intercalate queries) =
        queries.flatMap (plainEngine useCalc).doubleRewrites ∧
      (plainEngine useCalc).singleRewrites ([','].intercalate queries) =
        queries.flatMap (plainEngine useCalc).singleRewrites := by
  induction queries with
  | nil => exact (rewritesTo_plainEngine useCalc []).unique .done
  | cons query queries ih =>
    cases queries with
    | nil => simp
    | cons next queries =>
      obtain ⟨text, doubles, singles⟩ := ih
      obtain ⟨text', doubles', singles'⟩ :=
        rewritten_comma useCalc query ([','].intercalate (next :: queries))
      rw [text] at text'
      rw [doubles] at doubles'
      rw [singles] at singles'
      simp only [List.intercalate_cons_cons, List.singleton_append, List.append_assoc,
        List.map_cons, List.flatMap_cons] at *
      exact ⟨text', doubles', singles'⟩

end

namespace Engine

/-- Without custom values the texts before and after a comma are rewritten on their own, whatever
they are, and so are the members of a list of queries of any length. The rewrites are the double
ones of all members in order and then the single ones. -/
theorem rewrites_query_by_query {useCalc : Bool} {engine : Engine}
    (built : build ⟨none, useCalc⟩ = .ok engine) :
    (∀ params, (engine.rewriteParams params).value.rewrites =
        engine.doubleRewrites params ++ engine.singleRewrites params) ∧
      (∀ a b, engine.rewrittenParams (a ++ ',' :: b) =
          engine.rewrittenParams a ++ ',' :: engine.rewrittenParams b ∧
        (engine.rewriteParams (a ++ ',' :: b)).value.rewrites =
          engine.doubleRewrites a ++ engine.doubleRewrites b ++
            (engine.singleRewrites a ++ engine.singleRewrites b)) ∧
      ∀ queries : List (List Char),
        engine.rewrittenParams ([','].intercalate queries) =
            [','].intercalate (queries.map engine.rewrittenParams) ∧
          (engine.rewriteParams ([','].intercalate queries)).value.rewrites =
            queries.flatMap engine.doubleRewrites ++ queries.flatMap engine.singleRewrites := by
  obtain rfl := eq_plainEngine built
  have rewrites (params : List Char) :
      ((plainEngine useCalc).rewriteParams params).value.rewrites =
        (plainEngine useCalc).doubleRewrites params ++ (plainEngine useCalc).singleRewrites params :=
    rewrites_rewriteParams rfl recognizes_none params
  refine ⟨rewrites, fun a b => ?_, fun queries => ?_⟩
  · obtain ⟨text, doubles, singles⟩ := rewritten_comma useCalc a b
    refine ⟨text, ?_⟩
    rw [rewrites, doubles, singles]
  · obtain ⟨text, doubles, singles⟩ := rewritten_intercalate useCalc queries
    refine ⟨text, ?_⟩
    rw [rewrites, doubles, singles]

/-- The comma stands in parentheses that neither query of the list has both of. -/
theorem rewrites_query_by_query_open :
    build ⟨none, false⟩ = .ok (plainEngine false) ∧
      (plainEngine false).rewrittenParams
          ("(width > 5px".toList ++ ',' :: " x), (1px < width < 9px)".toList) =
        (plainEngine false).rewrittenParams "(width > 5px".toList ++
          ',' :: (plainEngine false).rewrittenParams " x), (1px < width < 9px)".toList := by
  obtain ⟨-, commas, -⟩ := rewrites_query_by_query (build_plain false)
  exact ⟨build_plain false, (commas _ _).1⟩

end Engine

end MediaRange
