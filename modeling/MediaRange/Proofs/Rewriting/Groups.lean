import MediaRange.Proofs.Rewriting.Passes

/-!
# What rewriting does

`RewritesTo` describes the new text of parameters without patterns. `rewriteParams_rewritesTo` shows
that rewriting without custom values does just that, and `rewriteParams_idempotent` that it has
nothing left to do the second time.
-/

namespace MediaRange

/-! ### The new text -/

/-- Every group that spells a comparison gives way to its query, and all else is copied. The
rewrites of double comparisons and those of single ones stand in the order of the groups. -/
inductive RewritesTo (settings : Settings) :
    List Char → List Char → List Rewrite → List Rewrite → Prop where
  | done : RewritesTo settings [] [] [] []
  | double {inside text out : List Char} {doubles singles : List Rewrite} {d : DoubleRange}
    (h : Spells inside (.double d)) (ht : RewritesTo settings text out doubles singles) :
    RewritesTo settings ((Fragment.group inside).text ++ text) (d.query settings ++ out)
      (⟨(Fragment.group inside).text, d.query settings⟩ :: doubles) singles
  | single {inside text out : List Char} {doubles singles : List Rewrite} {e : RangeExpression}
    (h : Spells inside (.single e)) (ht : RewritesTo settings text out doubles singles) :
    RewritesTo settings ((Fragment.group inside).text ++ text) (e.query settings ++ out)
      doubles (⟨(Fragment.group inside).text, e.query settings⟩ :: singles)
  | copy {c : Char} {text out : List Char} {doubles singles : List Rewrite}
    (h : ∀ inside r rest, Spells inside r → c :: text ≠ (Fragment.group inside).text ++ rest)
    (ht : RewritesTo settings text out doubles singles) :
    RewritesTo settings (c :: text) (c :: out) doubles singles

theorem Spells.isParenFree {inside : List Char} {r : Reading} (h : Spells inside r) :
    IsParenFree inside := fun c hc =>
  ⟨ne_of_isRangeChar (h.isRangeChar c hc) (by decide),
    ne_of_isRangeChar (h.isRangeChar c hc) (by decide)⟩

theorem RewritesTo.copies {settings : Settings} {text out : List Char}
    {doubles singles : List Rewrite} (ht : RewritesTo settings text out doubles singles)
    {u : List Char} (hu : ∀ c ∈ u, c ≠ '(') :
    RewritesTo settings (u ++ text) (u ++ out) doubles singles := by
  induction u with
  | nil => exact ht
  | cons c u ih =>
    obtain ⟨hc, hu⟩ := List.forall_mem_cons.mp hu
    exact .copy (fun _ _ _ _ same => hc (List.cons.inj same).1) (ih hu)

theorem Settled.rewritesTo (settings : Settings) {fs : List Fragment} (h : Settled fs) :
    RewritesTo settings (fs.flatMap Fragment.text)
      (fs.flatMap fun f => (replaceGroup reading? settings f).flatMap Fragment.text)
      (fs.filterMap (doubleRewrite? settings)) (fs.filterMap (singleRewrite? settings)) := by
  induction h with
  | nil => exact .done
  | @plain c fs hopen hfs ih =>
    -- A spelt group that started here would have been cut out.
    have unspelt : ∀ inside r rest, Spells inside r →
        c :: fs.flatMap Fragment.text ≠ (Fragment.group inside).text ++ rest := by
      intro inside r rest hspells same
      rw [group_text_append] at same
      obtain ⟨rfl, htail⟩ := List.cons.inj same
      exact hfs.text_ne_of_closeGroup? (hopen rfl) hspells.isParenFree rest htail
    exact .copy unspelt ih
  | @group inside fs hfree _ ih =>
    cases hd : doubleRange? inside with
    | some d =>
      obtain ⟨f, hf, -⟩ := Option.bind_eq_some_iff.mp hd
      have step := RewritesTo.double (doubleRange?_eq_some_iff.mp hd) ih
      simpa [replaceGroup, reading?, hd, singleRange?_of_double hf, doubleRewrite?, singleRewrite?,
        Reading.text_fragments, Reading.query] using step
    | none =>
      cases hs : singleRange? inside with
      | some e =>
        have step := RewritesTo.single (singleRange?_eq_some_iff.mp hs) ih
        simpa [replaceGroup, reading?, hd, hs, doubleRewrite?, singleRewrite?,
          Reading.text_fragments, Reading.query] using step
      | none =>
        have unread : reading? inside = none := by rw [reading?, hd, hs]; rfl
        have unspelt : ∀ i r rest, Spells i r →
            '(' :: ((inside ++ [')']) ++ fs.flatMap Fragment.text) ≠
              (Fragment.group i).text ++ rest := by
          intro i r rest hspells same
          have same : (Fragment.group inside).text ++ fs.flatMap Fragment.text =
              (Fragment.group i).text ++ rest := by
            rw [← same]; simp [Fragment.text]
          obtain ⟨rfl, -⟩ := group_unique hfree hspells.isParenFree same
          simp [reading?_eq_some_iff.mpr hspells] at unread
        have closing : ∀ c ∈ inside ++ [')'], c ≠ '(' := by
          intro c hc
          rcases List.mem_append.mp hc with hc | hc
          · exact (hfree c hc).1
          · rw [List.mem_singleton.mp hc]; decide
        have step := RewritesTo.copy unspelt (ih.copies closing)
        simpa [replaceGroup, unread, hd, hs, doubleRewrite?, singleRewrite?, Fragment.text]
          using step

theorem rewritesTo_fragments (settings : Settings) (text : List Char) :
    RewritesTo settings text
      ((fragments text).flatMap fun f => (replaceGroup reading? settings f).flatMap Fragment.text)
      ((fragments text).filterMap (doubleRewrite? settings))
      ((fragments text).filterMap (singleRewrite? settings)) := by
  have rewrites := (settled_fragments text).rewritesTo settings
  rwa [flatMap_text_fragments] at rewrites

/-! ### Groups to rewrite -/

theorem group_mem_fragments_iff {inside text : List Char} (h : IsParenFree inside) :
    .group inside ∈ fragments text ↔
      ∃ before after, text = before ++ ((Fragment.group inside).text ++ after) := by
  constructor
  · intro hmem
    obtain ⟨fs, gs, hfs⟩ := List.append_of_mem hmem
    refine ⟨fs.flatMap Fragment.text, gs.flatMap Fragment.text, ?_⟩
    rw [← flatMap_text_fragments text, hfs]
    simp
  · rintro ⟨before, after, rfl⟩
    rw [fragments_append_group before after h]
    simp

theorem groupRewrites_ne_nil_iff (settings : Settings) (fs : List Fragment) :
    groupRewrites settings fs ≠ [] ↔ ∃ inside r, .group inside ∈ fs ∧ Spells inside r := by
  constructor
  · intro h
    obtain ⟨rewrite, hmem⟩ := List.exists_mem_of_ne_nil _ h
    rcases List.mem_append.mp hmem with hmem | hmem
    · obtain ⟨f, hf, hrewrite⟩ := List.mem_filterMap.mp hmem
      cases f with
      | plain c => cases hrewrite
      | group inside =>
        obtain ⟨d, hd, -⟩ := Option.map_eq_some_iff.mp hrewrite
        exact ⟨inside, .double d, hf, doubleRange?_eq_some_iff.mp hd⟩
    · obtain ⟨f, hf, hrewrite⟩ := List.mem_filterMap.mp hmem
      cases f with
      | plain c => cases hrewrite
      | group inside =>
        obtain ⟨e, he, -⟩ := Option.map_eq_some_iff.mp hrewrite
        exact ⟨inside, .single e, hf, singleRange?_eq_some_iff.mp he⟩
  · rintro ⟨inside, r, hmem, hspells⟩
    cases r with
    | double d =>
      have rewrite : doubleRewrite? settings (.group inside) =
          some ⟨(Fragment.group inside).text, d.query settings⟩ := by
        rw [doubleRewrite?, doubleRange?_eq_some_iff.mpr hspells]; rfl
      exact List.ne_nil_of_mem
        (List.mem_append_left _ (List.mem_filterMap.mpr ⟨_, hmem, rewrite⟩))
    | single e =>
      have rewrite : singleRewrite? settings (.group inside) =
          some ⟨(Fragment.group inside).text, e.query settings⟩ := by
        rw [singleRewrite?, singleRange?_eq_some_iff.mpr hspells]; rfl
      exact List.ne_nil_of_mem
        (List.mem_append_right _ (List.mem_filterMap.mpr ⟨_, hmem, rewrite⟩))

/-- A text has something to rewrite if and only if a group in it spells a comparison. -/
theorem groupRewrites_fragments_ne_nil_iff (settings : Settings) (text : List Char) :
    groupRewrites settings (fragments text) ≠ [] ↔
      ∃ before inside r after, Spells inside r ∧
        text = before ++ ((Fragment.group inside).text ++ after) := by
  rw [groupRewrites_ne_nil_iff]
  constructor
  · rintro ⟨inside, r, hmem, hspells⟩
    obtain ⟨before, after, rfl⟩ := (group_mem_fragments_iff hspells.isParenFree).mp hmem
    exact ⟨before, inside, r, after, hspells, rfl⟩
  · rintro ⟨before, inside, r, after, hspells, rfl⟩
    exact ⟨inside, r, (group_mem_fragments_iff hspells.isParenFree).mpr ⟨before, after, rfl⟩, hspells⟩

/-! ### Rewriting -/

theorem eq_plainEngine {useCalc : Bool} {engine : Engine}
    (built : Engine.build ⟨none, useCalc⟩ = .ok engine) : engine = plainEngine useCalc :=
  Except.ok.inj (built.symm.trans (build_plain useCalc))

/-- Rewriting without custom values replaces the groups that spell a comparison and copies all
else, and it has a result if there is such a group. -/
theorem rewriteParams_rewritesTo {useCalc : Bool} {engine : Engine}
    (built : Engine.build ⟨none, useCalc⟩ = .ok engine) {params : List Char}
    (sign : '<' ∈ params ∨ '>' ∈ params) :
    ∃ out doubles singles, RewritesTo engine.settings params out doubles singles ∧
      (engine.rewriteParams params).value =
        (if doubles ++ singles = [] then .unchanged else .rewritten out (doubles ++ singles)) ∧
      (doubles ++ singles ≠ [] ↔ ∃ before inside r after, Spells inside r ∧
        params = before ++ ((Fragment.group inside).text ++ after)) := by
  obtain rfl := eq_plainEngine built
  refine ⟨_, _, _, rewritesTo_fragments _ params, ?_, groupRewrites_fragments_ne_nil_iff _ params⟩
  rw [rewriteParams_eq useCalc sign]
  simp only [groupRewrites, List.isEmpty_iff]
  rfl

theorem rewriteParams_rewritesTo_width :
    Engine.build ⟨none, false⟩ = .ok (plainEngine false) ∧
      ∃ out rewrites, rewrites ≠ [] ∧
        ((plainEngine false).rewriteParams "(width > 5px)".toList).value = .rewritten out rewrites := by
  obtain ⟨out, doubles, singles, -, hvalue, hne⟩ :=
    rewriteParams_rewritesTo (build_plain false) (show '<' ∈ "(width > 5px)".toList ∨
      '>' ∈ "(width > 5px)".toList by decide)
  have spells : Spells "width > 5px".toList
      (.single ⟨.width, .greater, false, "5px".toList⟩) :=
    singleRange?_eq_some_iff.mp (by decide +kernel)
  have rewritten := hne.mpr ⟨[], _, _, [], spells, by decide⟩
  rw [if_neg rewritten] at hvalue
  exact ⟨build_plain false, out, _, rewritten, hvalue⟩

/-! ### Rewriting twice -/

/-- No query and no group that is left holds anything to rewrite. -/
theorem groupRewrites_replaced (useCalc : Bool) (fs : List Fragment) :
    groupRewrites ⟨none, useCalc⟩ (fs.flatMap (replaceGroup reading? ⟨none, useCalc⟩)) = [] := by
  refine Decidable.not_not.mp (mt (groupRewrites_ne_nil_iff _ _).mp ?_)
  rintro ⟨inside, r, hmem, hspells⟩
  obtain ⟨f, -, hmem⟩ := List.mem_flatMap.mp hmem
  have read := reading?_eq_some_iff.mpr hspells
  cases f with
  | plain c => cases List.mem_singleton.mp hmem
  | group i =>
    rw [replaceGroup] at hmem
    cases hi : reading? i with
    | none =>
      rw [hi] at hmem
      obtain rfl := Fragment.group.inj (List.mem_singleton.mp hmem)
      simp [hi] at read
    | some r' =>
      rw [hi] at hmem
      obtain ⟨hsingle, hdouble⟩ :=
        Reading.read?_fragments (reading?_eq_some_iff.mp hi).hasTokens hmem
      simp [reading?, singleRange?, doubleRange?, hsingle, hdouble] at read

theorem rewriteParams_of_no_sign (engine : Engine) {params : List Char}
    (h : ¬('<' ∈ params ∨ '>' ∈ params)) : (engine.rewriteParams params).value = .skipped := by
  have signs : (!params.contains '<' && !params.contains '>') = true := by simpa using h
  rw [Engine.rewriteParams, if_pos signs]

theorem rewriteParams_of_no_rewrites {useCalc : Bool} {params : List Char}
    (h : groupRewrites ⟨none, useCalc⟩ (fragments params) = []) :
    ((plainEngine useCalc).rewriteParams params).value = .skipped ∨
      ((plainEngine useCalc).rewriteParams params).value = .unchanged := by
  by_cases sign : '<' ∈ params ∨ '>' ∈ params
  · exact .inr (by rw [rewriteParams_eq useCalc sign, h]; rfl)
  · exact .inl (rewriteParams_of_no_sign _ sign)

/-- Rewriting without custom values has nothing to do in its own result. -/
theorem rewriteParams_idempotent {useCalc : Bool} {engine : Engine}
    (built : Engine.build ⟨none, useCalc⟩ = .ok engine) (params : List Char) :
    let out := (engine.rewriteParams params).value.paramsOr params
    let again := (engine.rewriteParams out).value
    (again = .skipped ∨ again = .unchanged) ∧ again.paramsOr out = out ∧ again.rewrites = [] := by
  obtain rfl := eq_plainEngine built
  intro out again
  have done : again = .skipped ∨ again = .unchanged := by
    by_cases sign : '<' ∈ params ∨ '>' ∈ params
    · have first := rewriteParams_eq useCalc sign
      by_cases none : groupRewrites ⟨none, useCalc⟩ (fragments params) = []
      · rw [none] at first
        have same : out = params := congrArg (Outcome.paramsOr params) first
        simp only [again, same]
        exact rewriteParams_of_no_rewrites none
      · rw [if_neg (by simpa using none)] at first
        have replaced : out = (fragments params).flatMap fun f =>
            (replaceGroup reading? ⟨.none, useCalc⟩ f).flatMap Fragment.text :=
          congrArg (Outcome.paramsOr params) first
        refine rewriteParams_of_no_rewrites ?_
        rw [replaced, fragments_replaced (replacement_replaceGroup fun _ _ hr =>
          (reading?_eq_some_iff.mp hr).hasTokens), groupRewrites_replaced]
    · have first := rewriteParams_of_no_sign (plainEngine useCalc) sign
      have same : out = params := congrArg (Outcome.paramsOr params) first
      simp only [again, same]
      exact .inl first
  refine ⟨done, ?_⟩
  rcases done with done | done <;> simp [done, Outcome.paramsOr, Outcome.rewrites]

theorem rewriteParams_idempotent_width :
    Engine.build ⟨none, false⟩ = .ok (plainEngine false) ∧
      ((plainEngine false).rewriteParams (((plainEngine false).rewriteParams
        "(1px < width < 9px), (1px < size)".toList).value.paramsOr
          "(1px < width < 9px), (1px < size)".toList)).value.rewrites = [] :=
  ⟨build_plain false, (rewriteParams_idempotent (build_plain false) _).2.2⟩

end MediaRange
