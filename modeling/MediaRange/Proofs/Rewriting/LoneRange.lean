import MediaRange.Proofs.Grammar.Widening
import MediaRange.Proofs.Rewriting.Groups
import MediaRange.Proofs.Rewriting.Shrinking

/-!
# A range on its own

Parameters that are one standard range have one verdict, with or without custom values:
`rewriteParams_single` and `rewriteParams_double`.
-/

namespace MediaRange

open Pattern Grammar

/-! ### Matches of a whole text -/

namespace Pattern

variable {p q : Pattern} {text : List Char}

theorem segments_whole {trail : Trail} (ne_nil : text ≠ [])
    (h : p.matchAt (.start text) = some ⟨text.length, trail⟩) :
    p.segments text = [.found ⟨0, text, trail⟩] := by
  cases text with
  | nil => exact absurd rfl ne_nil
  | cons c rest =>
    obtain ⟨b, skipped⟩ := segmentsFrom_skip p rest [] 1 (some c)
    have hit : p.matchAt ⟨0, none, c :: rest⟩ = some ⟨(c :: rest).length, trail⟩ := h
    have longer : 0 < (c :: rest).length := Nat.succ_pos _
    have taken : (c :: rest).take ((c :: rest).length - 0) = c :: rest := List.take_length
    have left : (c :: rest).length - 0 - 1 = rest.length := rfl
    rw [List.append_nil] at skipped
    rw [segments, segmentsFrom, hit]
    dsimp only
    rw [if_pos longer, taken, left, skipped]
    rfl

theorem segments_of_matchesIn (h : p.matchesIn text = []) : p.segments text = text.map .plain := by
  have whole := segments_text p text
  unfold matchesIn at h
  generalize p.segments text = segments at h whole
  subst whole
  induction segments with
  | nil => rfl
  | cons s segments ih =>
    cases s with
    | plain c => exact congrArg (Segment.plain c :: ·) (ih h)
    | found m => cases h

theorem segmentsFrom_character {c : Char} (h : ∀ d ∈ text, d ≠ c) (position : Nat)
    (before : Option Char) :
    (seq (one (.single c)) q).segmentsFrom 0 position before text = text.map .plain := by
  induction text generalizing position before with
  | nil => rfl
  | cons d rest ih =>
    obtain ⟨other, later⟩ := List.forall_mem_cons.mp h
    have missed : (seq (one (.single c)) q).matchAt ⟨position, before, d :: rest⟩ = none :=
      matchAt_character_eq_none (by simpa using other)
    rw [segmentsFrom, missed]
    exact congrArg (Segment.plain d :: ·) (ih later _ _)

/-- What starts with an opening parenthesis is found in a group at its start or not at all. -/
theorem segments_group {inside : List Char} (free : IsParenFree inside)
    (h : (seq (one (.single '(')) q).matchAt (.start (Fragment.group inside).text) = none) :
    (seq (one (.single '(')) q).segments (Fragment.group inside).text =
      (Fragment.group inside).text.map .plain := by
  have missed : (seq (one (.single '(')) q).matchAt ⟨0, none, '(' :: (inside ++ [')'])⟩ = none := h
  have other : ∀ d ∈ inside ++ [')'], d ≠ '(' := by
    intro d hd
    rcases List.mem_append.mp hd with hd | hd
    · exact (free d hd).1
    · rw [List.mem_singleton.mp hd]
      decide
  rw [Fragment.text, segments, segmentsFrom, missed]
  exact congrArg (Segment.plain '(' :: ·) (segmentsFrom_character other _ _)

theorem signCount_le_of_mem {m : Match} (hm : m ∈ p.matchesIn text) :
    signCount m.text ≤ signCount text := by
  obtain ⟨s, hs, found⟩ := List.mem_filterMap.mp hm
  cases s with
  | plain c => cases found
  | found m' =>
    cases found
    obtain ⟨front, back, split⟩ := List.append_of_mem hs
    rw [← segments_text p text, split, List.flatMap_append, List.flatMap_cons, signCount_append,
      signCount_append]
    exact Nat.le_trans (Nat.le_add_right _ _) (Nat.le_add_left _ _)

end Pattern

/-- A text with fewer signs than any match in it would have is left as it is. -/
theorem judge_of_signCount {p : Pattern} {text : List Char}
    (few : ∀ m ∈ p.matchesIn text, signCount text < signCount m.text) (verdict : Match → Verdict) :
    Engine.judge p verdict text = text.map .plain := by
  have noMatch : p.matchesIn text = [] := by
    refine List.eq_nil_iff_forall_not_mem.mpr fun m hm => ?_
    exact Nat.not_lt.mpr (signCount_le_of_mem hm) (few m hm)
  rw [Engine.judge_eq, segments_of_matchesIn noMatch, List.map_map]
  rfl

/-! ### The outcome of one verdict -/

/-- What becomes of parameters that are one range with a verdict. -/
def Verdict.outcome (original : List Char) : Verdict → Outcome
  | rewritten replacement => .rewritten replacement [⟨original, replacement⟩]
  | _ => .unchanged

theorem Verdict.paramsOr_outcome (original : List Char) (v : Verdict) :
    (v.outcome original).paramsOr original = v.text original := by
  cases v <;> rfl

theorem flatMap_text_range (original : List Char) (v : Verdict) :
    [Judged.range original v].flatMap Judged.text = v.text original :=
  List.append_nil _

theorem filterMap_record?_plain (text : List Char) :
    (text.map Judged.plain).filterMap Judged.record? = [] :=
  filterMap_plain (fun _ => rfl) text

namespace Engine

variable {engine : Engine} {params : List Char} {v : Verdict}

theorem rewriteParams_passes (sign : signCount params ≠ 0) :
    engine.rewriteParams params =
      ⟨if (engine.doubleRewrites params ++ engine.singleRewrites params).isEmpty then .unchanged
        else .rewritten ((engine.singlePass params).flatMap Judged.text)
          (engine.doubleRewrites params ++ engine.singleRewrites params),
        (engine.doublePass params ++ engine.singlePass params).filterMap Judged.record?⟩ := by
  have signs : ¬(!params.contains '<' && !params.contains '>') = true := by
    intro none
    refine sign (signCount_eq_zero fun c hc => ?_)
    simp only [Bool.and_eq_true, Bool.not_eq_true', List.contains_eq_mem, decide_eq_false_iff_not]
      at none
    have notLess : c ≠ '<' := fun same => none.1 (same ▸ hc)
    have notGreater : c ≠ '>' := fun same => none.2 (same ▸ hc)
    simp [isSign, notLess, notGreater]
  rw [rewriteParams, if_neg signs, doubleRewrites, singleRewrites, ← List.filterMap_append]
  rfl

theorem rewriteParams_of_singlePass (sign : signCount params ≠ 0)
    (doubles : engine.doublePass params = params.map .plain)
    (singles : engine.singlePass params = [.range params v]) :
    engine.rewriteParams params = ⟨v.outcome params, [v.record params]⟩ := by
  rw [rewriteParams_passes sign, doubleRewrites, singleRewrites, singles, doubles,
    List.filterMap_append, filterMap_rewrite?_plain, filterMap_record?_plain, flatMap_text_range]
  cases v <;> rfl

theorem rewriteParams_of_doublePass (sign : signCount params ≠ 0)
    (doubles : engine.doublePass params = [.range params v])
    (singles : engine.singlePass params = (v.text params).map .plain) :
    engine.rewriteParams params = ⟨v.outcome params, [v.record params]⟩ := by
  rw [rewriteParams_passes sign, doubleRewrites, singleRewrites, singles, doubles,
    List.filterMap_append, filterMap_rewrite?_plain, filterMap_record?_plain, flatMap_text_plain]
  cases v <;> rfl

end Engine

/-! ### Standard ranges -/

theorem signCount_signText (s : Comparison) (inclusive : Bool) :
    signCount (signText s inclusive) = 1 := by
  cases s <;> cases inclusive <;> decide

theorem signCount_group (inside : List Char) :
    signCount (Fragment.group inside).text = signCount inside := by
  rw [Fragment.text, signCount_cons (by decide), signCount_append, signCount_closing, Nat.add_zero]

theorem SignCut.signCount_text (cut : SignCut) :
    signCount cut.text = signCount cut.before + 1 + signCount cut.after := by
  rw [text, signCount_append, signCount_append, signCount_signText, Nat.add_assoc]

theorem SignCut.IsSingle.signCount {cut : SignCut} (h : cut.IsSingle) : signCount cut.text = 1 := by
  rw [cut.signCount_text, signCount_eq_zero h.isFirst.before,
    signCount_eq_zero (isSign_of_trim h.value.isSpellingChar)]

theorem SignCut.IsDouble.signCount {first second : SignCut} (h : first.IsDouble second) :
    signCount first.text = 2 := by
  rw [first.signCount_text, signCount_eq_zero h.isFirst.before, h.after, h.isSingle.signCount]

namespace Engine

variable {engine : Engine} {body : Option Pattern} (grammar : engine.grammar = ofBody body)
include grammar

theorem singlePass_of_single {cut : SignCut} (h : cut.IsSingle) :
    judge engine.grammar.single engine.judgeSingle (Fragment.group cut.text).text =
      [.range (Fragment.group cut.text).text
        ((SingleForm.ofCut cut).verdict engine.settings)] := by
  have hit : (singleOf (value none)).matchAt (.start (Fragment.group cut.text).text) =
      some ⟨(Fragment.group cut.text).text.length,
        cutTrail "feature" "op" "eq" "value" (0 + 1) cut []⟩ := by
    refine matchAt_single_iff.mpr ⟨cut, [], rfl, h, ?_⟩
    simp [Fragment.text, Cursor.start]
  have found := segments_whole (by simp [Fragment.text]) ((keepsFirst_single body).matchAt hit)
  rw [judge_eq, grammar, ofBody, found, ← judgeSingle_eq engine 0 cut]
  rfl

theorem doublePass_of_double {first second : SignCut} (h : first.IsDouble second) :
    engine.doublePass (Fragment.group first.text).text =
      [.range (Fragment.group first.text).text
        ((DoubleForm.ofCuts first second).verdict engine.settings)] := by
  have hit : (doubleOf (value none)).matchAt (.start (Fragment.group first.text).text) =
      some ⟨(Fragment.group first.text).text.length, doubleTrail 0 first second⟩ := by
    refine matchAt_double_iff.mpr ⟨first, second, [], rfl, h, ?_⟩
    simp [Fragment.text, Cursor.start]
  have found := segments_whole (by simp [Fragment.text]) ((keepsFirst_double body).matchAt hit)
  rw [doublePass, judge_eq, grammar, ofBody, found, ← judgeDouble_eq engine 0 h.after]
  rfl

/-- The wider single pattern does not take a double range that was left as it is. -/
theorem singlePass_of_double {first second : SignCut} (h : first.IsDouble second) :
    judge engine.grammar.single engine.judgeSingle (Fragment.group first.text).text =
      (Fragment.group first.text).text.map .plain := by
  have missed : (singleOf (value body)).matchAt (.start (Fragment.group first.text).text) = none :=
    matchAt_single_of_double body h (r := []) rfl
  rw [judge_eq, grammar, ofBody, singleOf, segments_group (isParenFree_double h) missed,
    List.map_map]
  rfl

variable (hbody : Recognizes body fun _ => True)
include hbody

theorem judgeDouble_of_signCount {text : List Char} (few : signCount text < 2) :
    engine.doublePass text = text.map .plain := by
  refine judge_of_signCount (fun m hm => ?_) _
  rw [grammar] at hm
  rw [(double_captures hbody hm).2]
  exact Nat.lt_of_lt_of_le few (Nat.le_add_left _ _)

theorem judgeSingle_of_signCount {text : List Char} (few : signCount text < 1) :
    judge engine.grammar.single engine.judgeSingle text = text.map .plain := by
  refine judge_of_signCount (fun m hm => ?_) _
  rw [grammar] at hm
  rw [(single_captures hbody hm).2]
  exact Nat.lt_of_lt_of_le few (Nat.le_add_left _ _)

/-- A single range is judged in the second pass. -/
theorem rewriteParams_single {cut : SignCut} (h : cut.IsSingle) :
    engine.rewriteParams (Fragment.group cut.text).text =
      let v := (SingleForm.ofCut cut).verdict engine.settings
      ⟨v.outcome (Fragment.group cut.text).text, [v.record (Fragment.group cut.text).text]⟩ := by
  have signs : signCount (Fragment.group cut.text).text = 1 := (signCount_group _).trans h.signCount
  have doubles : engine.doublePass (Fragment.group cut.text).text =
      (Fragment.group cut.text).text.map .plain := judgeDouble_of_signCount grammar hbody (by omega)
  refine rewriteParams_of_singlePass (by omega) doubles ?_
  rw [singlePass, doubles, flatMap_text_plain]
  exact singlePass_of_single grammar h

/-- A double range is judged in the first pass, and the second one finds nothing in its place. -/
theorem rewriteParams_double {first second : SignCut} (h : first.IsDouble second) :
    engine.rewriteParams (Fragment.group first.text).text =
      let v := (DoubleForm.ofCuts first second).verdict engine.settings
      ⟨v.outcome (Fragment.group first.text).text, [v.record (Fragment.group first.text).text]⟩ := by
  have signs : signCount (Fragment.group first.text).text = 2 :=
    (signCount_group _).trans h.signCount
  have doubles := doublePass_of_double grammar h
  have balance := signCount_doublePass grammar hbody (Fragment.group first.text).text
  refine rewriteParams_of_doublePass (by omega) doubles ?_
  rw [doubleRewrites, doubles, flatMap_text_range] at balance
  rw [singlePass, doubles, flatMap_text_range]
  cases hv : (DoubleForm.ofCuts first second).verdict engine.settings with
  | rewritten replacement =>
    rw [hv] at balance
    have one : ([Judged.range (Fragment.group first.text).text
      (.rewritten replacement)].filterMap Judged.rewrite?).length = 1 := rfl
    have few : signCount (Verdict.text (Fragment.group first.text).text (.rewritten replacement)) <
        1 := by omega
    exact judgeSingle_of_signCount grammar hbody few
  | unknownFeature | mixedDirections | missingValue => exact singlePass_of_double grammar h

end Engine

end MediaRange
