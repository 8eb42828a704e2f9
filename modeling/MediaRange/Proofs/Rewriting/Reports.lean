import MediaRange.Proofs.Rewriting.PassOrder

/-!
# What the log tells of a rewrite

Every match of a grammar gets one record, and the level of the record tells what became of the match.
`log_rewriteParams` accounts for the log as a whole: first the double comparisons and then the single
ones, each in the order of the text, and nothing else.
-/

namespace MediaRange

/-! ### Matches in order -/

/-- The first of two matches ends before the second one starts. -/
def Match.Precedes (m n : Match) : Prop := m.start + m.text.length ≤ n.start

/-- The first of two segments precedes the second one, if both are matches. -/
def Segment.Precedes (s t : Segment) : Prop :=
  ∀ m n, s = .found m → t = .found n → m.Precedes n

namespace Pattern

variable {p : Pattern}

theorem le_start_of_mem {text : List Char} {skip position : Nat} {before : Option Char} {m : Match}
    (hm : .found m ∈ p.segmentsFrom skip position before text) : position + skip ≤ m.start := by
  induction text generalizing skip position before with
  | nil => cases hm
  | cons c rest ih =>
    rw [segmentsFrom.eq_def] at hm
    dsimp only at hm
    split at hm
    · have later := ih hm
      omega
    · have later {skip : Nat} {b : Option Char}
          (hm : .found m ∈ p.segmentsFrom skip (position + 1) b rest) : position ≤ m.start := by
        have := ih hm
        omega
      split at hm
      · split at hm
        · rcases List.mem_cons.mp hm with same | hm
          · cases same
            exact Nat.le_refl _
          · exact later hm
        · exact later ((List.mem_cons.mp hm).resolve_left (by simp))
      · exact later ((List.mem_cons.mp hm).resolve_left (by simp))

theorem pairwise_segmentsFrom (text : List Char) (skip position : Nat) (before : Option Char) :
    (p.segmentsFrom skip position before text).Pairwise Segment.Precedes := by
  have plain {c : Char} {rest : List Segment} (h : rest.Pairwise Segment.Precedes) :
      (Segment.plain c :: rest).Pairwise Segment.Precedes :=
    h.cons fun _ _ _ _ same => by cases same
  induction text generalizing skip position before with
  | nil => exact .nil
  | cons c rest ih =>
    rw [segmentsFrom.eq_def]
    dsimp only
    split
    · exact ih _ _ _
    · split
      · rename_i hit _
        split
        -- What follows a match starts where the characters that are skipped for it end.
        · refine (ih _ _ _).cons fun t ht m n hm hn => ?_
          cases hm
          subst hn
          have start := le_start_of_mem ht
          have length := List.length_take_le (hit.stop - position) (c :: rest)
          unfold Match.Precedes
          dsimp only
          omega
        · exact plain (ih _ _ _)
      · exact plain (ih _ _ _)

/-- Matches are found in the order of the text, and they do not overlap. -/
theorem pairwise_matchesIn (p : Pattern) (text : List Char) :
    (p.matchesIn text).Pairwise Match.Precedes := by
  refine (p.pairwise_segmentsFrom text 0 0 none).filterMap _ fun s t precedes m hm n hn => ?_
  cases s with
  | plain c => cases hm
  | found m' =>
    cases t with
    | plain c => cases hn
    | found n' =>
      cases hm
      cases hn
      exact precedes m n rfl rfl

end Pattern

/-! ### One record for a verdict -/

namespace Verdict

variable (original : List Char) (v : Verdict)

/-- The verdict is on a name that another one is near to. -/
def SuggestsFeature : Prop := ∃ name feature, v = unknownFeature name (some feature)

variable {original v} in
theorem rewrite?_eq_some_iff {w : Rewrite} : v.rewrite? original = some w ↔
    ∃ replacement, w = ⟨original, replacement⟩ ∧ v = rewritten replacement := by
  cases v with
  | rewritten replacement => simp [rewrite?, eq_comm]
  | unknownFeature | mixedDirections | missingValue => simp [rewrite?]

theorem record_trace_iff :
    (v.record original).level = .trace ↔ (v.rewrite? original).isSome = true := by
  cases v with
  | unknownFeature name suggestion => cases suggestion <;> simp [record, rewrite?]
  | rewritten | mixedDirections | missingValue => simp [record, rewrite?]

theorem record_warn_iff : (v.record original).level = .warn ↔ v.SuggestsFeature := by
  cases v with
  | unknownFeature name suggestion => cases suggestion <;> simp [record, SuggestsFeature]
  | rewritten | mixedDirections | missingValue => simp [record, SuggestsFeature]

theorem record_debug_iff : (v.record original).level = .debug ↔
    v.rewrite? original = none ∧ ¬v.SuggestsFeature := by
  cases v with
  | unknownFeature name suggestion => cases suggestion <;> simp [record, rewrite?, SuggestsFeature]
  | rewritten | mixedDirections | missingValue => simp [record, rewrite?, SuggestsFeature]

end Verdict

/-- The verdict is that the feature is unknown exactly if the match names none. -/
def NamesUnknown (verdict : Match → Verdict) : Prop :=
  ∀ m name suggestion, verdict m = .unknownFeature name suggestion ↔
    Feature.named? (m.group "feature") = none ∧ name = m.group "feature" ∧
      suggestion = Feature.suggested? (m.group "feature")

theorem namesUnknown_single (engine : Engine) : NamesUnknown engine.judgeSingle := by
  intro m name suggestion
  unfold Engine.judgeSingle
  dsimp only
  cases Feature.named? (m.group "feature") with
  | none => simp [eq_comm]
  | some feature =>
    dsimp only
    split
    · simp
    · split <;> simp

theorem namesUnknown_double (engine : Engine) : NamesUnknown engine.judgeDouble := by
  intro m name suggestion
  unfold Engine.judgeDouble
  dsimp only
  cases Feature.named? (m.group "feature") with
  | none => simp [eq_comm]
  | some feature =>
    dsimp only
    split
    · split
      · simp
      · split <;> simp
    · simp

/-! ### One report for a match -/

/-- A match with its record and, if it was rewritten, its rewrite. -/
structure Report where
  found : Match
  record : LogRecord
  rewrite? : Option Rewrite

namespace Report

/-- The match names no feature, but one that it may mean. -/
def LooksMisspelt (m : Match) : Prop :=
  Feature.named? (m.group "feature") = none ∧ (Feature.suggested? (m.group "feature")).isSome = true

/-- The level of the record tells what became of the match: it was rewritten, it was left alone with
a warning, or it was left alone for another reason. -/
structure IsFaithful (r : Report) : Prop where
  original : ∀ w ∈ r.rewrite?, w.original = r.found.text
  message : ∀ w ∈ r.rewrite?, r.record = ⟨.trace, .rewriting,
    s!"rewrote '{String.ofList w.original}' -> '{String.ofList w.replacement}'"⟩
  trace : r.record.level = .trace ↔ r.rewrite?.isSome = true
  warn : r.record.level = .warn ↔ LooksMisspelt r.found
  debug : r.record.level = .debug ↔ r.rewrite? = none ∧ ¬LooksMisspelt r.found

/-- The report on a match with a verdict. -/
def ofVerdict (verdict : Match → Verdict) (m : Match) : Report :=
  ⟨m, (verdict m).record m.text, (verdict m).rewrite? m.text⟩

section

variable {verdict : Match → Verdict} (names : NamesUnknown verdict)
include names

theorem suggestsFeature_iff (m : Match) : (verdict m).SuggestsFeature ↔ LooksMisspelt m := by
  rw [Verdict.SuggestsFeature, LooksMisspelt, Option.isSome_iff_exists]
  constructor
  · rintro ⟨name, feature, unknown⟩
    obtain ⟨unnamed, -, suggested⟩ := (names m _ _).mp unknown
    exact ⟨unnamed, feature, suggested.symm⟩
  · rintro ⟨unnamed, feature, suggested⟩
    exact ⟨_, feature, (names m _ _).mpr ⟨unnamed, rfl, suggested.symm⟩⟩

theorem isFaithful_ofVerdict (m : Match) : (ofVerdict verdict m).IsFaithful where
  original w hw := by
    obtain ⟨replacement, rfl, -⟩ := Verdict.rewrite?_eq_some_iff.mp hw
    rfl
  message w hw := by
    obtain ⟨replacement, rfl, rewritten⟩ := Verdict.rewrite?_eq_some_iff.mp hw
    rw [ofVerdict, rewritten]
    rfl
  trace := (verdict m).record_trace_iff m.text
  warn := ((verdict m).record_warn_iff m.text).trans (suggestsFeature_iff names m)
  debug := ((verdict m).record_debug_iff m.text).trans
    (and_congr Iff.rfl (not_congr (suggestsFeature_iff names m)))

end

/-- The reports on all matches in a text. -/
def allIn (p : Pattern) (verdict : Match → Verdict) (text : List Char) : List Report :=
  (p.matchesIn text).map (ofVerdict verdict)

theorem map_found_allIn (p : Pattern) (verdict : Match → Verdict) (text : List Char) :
    (allIn p verdict text).map found = p.matchesIn text := by
  have same : found ∘ ofVerdict verdict = id := rfl
  rw [allIn, List.map_map, same, List.map_id]

theorem found_mem_of_mem {p : Pattern} {verdict : Match → Verdict} {text : List Char} {r : Report}
    (hr : r ∈ allIn p verdict text) : r.found ∈ p.matchesIn text := by
  rw [← map_found_allIn p verdict text]
  exact List.mem_map_of_mem hr

theorem isFaithful_of_mem {p : Pattern} {verdict : Match → Verdict} (names : NamesUnknown verdict)
    {text : List Char} {r : Report} (hr : r ∈ allIn p verdict text) : r.IsFaithful := by
  obtain ⟨m, -, rfl⟩ := List.mem_map.mp hr
  exact isFaithful_ofVerdict names m

theorem filterMap_judge_found {β : Type} {g : Judged → Option β} (plain : ∀ c, g (.plain c) = none)
    (p : Pattern) (verdict : Match → Verdict) (text : List Char) :
    (Engine.judge p verdict text).filterMap g =
      (p.matchesIn text).filterMap fun m => g (.range m.text (verdict m)) := by
  rw [Engine.judge_eq, List.filterMap_map, Pattern.matchesIn, List.filterMap_filterMap]
  refine congrArg (List.filterMap · _) (funext fun s => ?_)
  cases s with
  | plain c => exact plain c
  | found m => rfl

/-- The log has the record of every report, and nothing else. -/
theorem records_judge (p : Pattern) (verdict : Match → Verdict) (text : List Char) :
    (Engine.judge p verdict text).filterMap Judged.record? =
      (allIn p verdict text).map record := by
  rw [filterMap_judge_found (fun _ => rfl), allIn, List.map_map]
  exact congrFun List.filterMap_eq_map _

/-- The list of rewrites has the rewrite of every report that has one, and nothing else. -/
theorem rewrites_judge (p : Pattern) (verdict : Match → Verdict) (text : List Char) :
    (Engine.judge p verdict text).filterMap Judged.rewrite? =
      (allIn p verdict text).filterMap rewrite? := by
  rw [filterMap_judge_found (fun _ => rfl), allIn, List.filterMap_map]
  rfl

end Report

/-! ### The log of both passes -/

namespace Engine

/-- Without custom values the log of parameters with a sign has one record for each match of the
double grammar, then one for each match of the single grammar, both in the order of the text, and no
other. The level of a record tells what became of its match, and the matches that were rewritten are
the rewrites of the result. No match of one grammar overlaps another one, of either grammar. -/
theorem log_rewriteParams {useCalc : Bool} {engine : Engine}
    (built : build ⟨none, useCalc⟩ = .ok engine) {params : List Char}
    (sign : '<' ∈ params ∨ '>' ∈ params) :
    ∃ doubles singles : List Report,
      doubles.map Report.found = engine.grammar.double.matchesIn params ∧
        singles.map Report.found = engine.grammar.single.matchesIn params ∧
        (engine.rewriteParams params).log = (doubles ++ singles).map Report.record ∧
        (engine.rewriteParams params).value.rewrites =
          (doubles ++ singles).filterMap Report.rewrite? ∧
        (∀ r ∈ doubles ++ singles, r.IsFaithful) ∧
        (doubles.map Report.found).Pairwise Match.Precedes ∧
        (singles.map Report.found).Pairwise Match.Precedes ∧
        ∀ d ∈ doubles, ∀ s ∈ singles, d.found.Precedes s.found ∨ s.found.Precedes d.found := by
  obtain rfl := eq_plainEngine built
  have counted : signCount params ≠ 0 := by
    rw [Ne, signCount_eq_zero_iff]
    rintro ⟨noLess, noGreater⟩
    exact sign.elim noLess noGreater
  have double := judges_double (plainEngine useCalc)
  have single := judges_single (plainEngine useCalc)
  -- The second pass sees a text that the first one has changed, but it judges the same matches.
  have later {β : Type} {g : Judged → Option β} (plain : ∀ c, g (.plain c) = none) :
      ((plainEngine useCalc).singlePass params).filterMap g =
        (judge (plainEngine useCalc).grammar.single (plainEngine useCalc).judgeSingle
          params).filterMap g :=
    filterMap_judge_judge (isPass_double _) (isApart_double useCalc) double single params plain
  refine ⟨Report.allIn (plainEngine useCalc).grammar.double (plainEngine useCalc).judgeDouble params,
    Report.allIn (plainEngine useCalc).grammar.single (plainEngine useCalc).judgeSingle params,
    Report.map_found_allIn .., Report.map_found_allIn .., ?log, ?rewrites, ?faithful, ?_, ?_, ?apart⟩
  case log =>
    rw [rewriteParams_passes counted, List.map_append, ← Report.records_judge,
      ← Report.records_judge, ← later fun _ => rfl]
    exact List.filterMap_append
  case rewrites =>
    rw [rewrites_rewriteParams rfl recognizes_none, List.filterMap_append, ← Report.rewrites_judge,
      ← Report.rewrites_judge, ← later fun _ => rfl]
    rfl
  case faithful =>
    intro r hr
    rcases List.mem_append.mp hr with hr | hr
    · exact Report.isFaithful_of_mem (namesUnknown_double _) hr
    · exact Report.isFaithful_of_mem (namesUnknown_single _) hr
  case apart =>
    intro d hd s hs
    refine double.occursBetween_apart single (fun inside v h => ?_)
      (occursBetween_of_mem (Report.found_mem_of_mem hd))
      (occursBetween_of_mem (Report.found_mem_of_mem hs))
    obtain ⟨f, hf, -⟩ := Option.map_eq_some_iff.mp h
    exact readSingle_of_double hf
  · rw [Report.map_found_allIn]
    exact Pattern.pairwise_matchesIn ..
  · rw [Report.map_found_allIn]
    exact Pattern.pairwise_matchesIn ..

/-- A range that is rewritten, and a misspelt one that stands before it. -/
theorem log_rewriteParams_misspelt :
    let params := "(widht > 2px), (1px < width < 9px)".toList
    build ⟨none, false⟩ = .ok (plainEngine false) ∧ ('<' ∈ params ∨ '>' ∈ params) ∧
      ∃ doubles singles : List Report,
        doubles.map (·.found.text) = ["(1px < width < 9px)".toList] ∧
          singles.map (·.found.text) = ["(widht > 2px)".toList] ∧
          ((plainEngine false).rewriteParams params).log = (doubles ++ singles).map Report.record ∧
          (doubles ++ singles).map (·.record.level) = [.trace, .warn] ∧
          ∀ r ∈ doubles ++ singles, r.IsFaithful := by
  intro params
  have sign : '<' ∈ params ∨ '>' ∈ params := by decide +kernel
  obtain ⟨doubles, singles, firsts, seconds, log, -, faithful, -⟩ :=
    log_rewriteParams (build_plain false) sign
  have levels : ((plainEngine false).rewriteParams params).log.map (·.level) = [.trace, .warn] := by
    decide +kernel
  have firstTexts : ((plainEngine false).grammar.double.matchesIn params).map (·.text) =
      ["(1px < width < 9px)".toList] := by decide +kernel
  have secondTexts : ((plainEngine false).grammar.single.matchesIn params).map (·.text) =
      ["(widht > 2px)".toList] := by decide +kernel
  rw [← firsts, List.map_map] at firstTexts
  rw [← seconds, List.map_map] at secondTexts
  rw [log, List.map_map] at levels
  exact ⟨build_plain false, sign, doubles, singles, firstTexts, secondTexts, log, levels, faithful⟩

end Engine

end MediaRange
