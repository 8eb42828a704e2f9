import Mathlib.Logic.Function.Iterate
import MediaRange.Config.Basic
import MediaRange.Proofs.Rewriting.CustomValues

/-!
# Rewriting uses up comparison signs

Every rewrite takes the signs of its comparisons out of the text and leaves all others, so the
number of signs goes down by what `signCount_rewriteParams` says. Nothing is ever rewritten to
itself, and by `exists_last_pass` rewriting again and again comes to an end.
-/

namespace MediaRange

open Grammar

/-! ### One pass -/

/-- A pass whose rewrites take `n` signs each. -/
theorem signCount_judge {p : Pattern} {verdict : Match → Verdict} {text : List Char} {n : Nat}
    (h : ∀ m ∈ p.matchesIn text, ∀ replacement, verdict m = .rewritten replacement →
      signCount m.text = signCount replacement + n) :
    signCount text = signCount ((Engine.judge p verdict text).flatMap Judged.text) +
      n * ((Engine.judge p verdict text).filterMap Judged.rewrite?).length := by
  have found : ∀ m, .found m ∈ p.segments text → m ∈ p.matchesIn text := fun m hm =>
    List.mem_filterMap.mpr ⟨_, hm, rfl⟩
  -- The segments cover the text, so the signs can be counted segment by segment.
  rw [Engine.judge_eq]
  conv_lhs => rw [← Pattern.segments_text p text]
  generalize p.segments text = segments at found
  induction segments with
  | nil => rfl
  | cons s segments ih =>
    have ih := ih fun m hm => found m (List.mem_cons_of_mem _ hm)
    rw [List.flatMap_cons, signCount_append, ih, List.map_cons, List.flatMap_cons, signCount_append]
    cases s with
    | plain c =>
      have none : (Engine.judgeSegment verdict (.plain c)).rewrite? = none := rfl
      rw [List.filterMap_cons_none none]
      exact (Nat.add_assoc _ _ _).symm
    | found m =>
      have taken := h m (found m List.mem_cons_self)
      cases hv : verdict m with
      | rewritten replacement =>
        have some : (Engine.judgeSegment verdict (.found m)).rewrite? =
            some ⟨m.text, replacement⟩ := by
          simp only [Engine.judgeSegment, hv]; rfl
        have text : (Engine.judgeSegment verdict (.found m)).text = replacement := by
          simp only [Engine.judgeSegment, hv]; rfl
        rw [List.filterMap_cons_some some, text, Segment.text, taken _ hv, List.length_cons,
          Nat.mul_succ]
        omega
      | unknownFeature | mixedDirections | missingValue =>
        have none : (Engine.judgeSegment verdict (.found m)).rewrite? = none := by
          simp only [Engine.judgeSegment, hv]; rfl
        have text : (Engine.judgeSegment verdict (.found m)).text = m.text := by
          simp only [Engine.judgeSegment, hv]; rfl
        rw [List.filterMap_cons_none none, text]
        exact (Nat.add_assoc _ _ _).symm

/-! ### Both passes -/

theorem settings_bind_build_var :
    (Config.settings ⟨some "/var\\(--[a-z-]+\\)/", false⟩).bind Engine.build = .ok varEngine := by
  have settings : Config.settings ⟨some "/var\\(--[a-z-]+\\)/", false⟩ =
      .ok { customValue := some varValue } := by
    unfold Config.settings
    exact map_eq_ok_iff.mpr ⟨varValue, read?_varValue, rfl⟩
  exact bind_eq_ok_iff.mpr ⟨_, settings, build_varEngine⟩

namespace Engine

section

variable (engine : Engine) (params : List Char)

def doublePass : List Judged := judge engine.grammar.double engine.judgeDouble params

def singlePass : List Judged :=
  judge engine.grammar.single engine.judgeSingle ((engine.doublePass params).flatMap Judged.text)

def doubleRewrites : List Rewrite := (engine.doublePass params).filterMap Judged.rewrite?

def singleRewrites : List Rewrite := (engine.singlePass params).filterMap Judged.rewrite?

def rewrittenParams : List Char := (engine.rewriteParams params).value.paramsOr params

end

variable {engine : Engine} {params after : List Char} {rewrites : List Rewrite}

/-- Parameters are rewritten by both passes, and at least one of them has a rewrite. -/
theorem passes_of_rewritten (h : (engine.rewriteParams params).value = .rewritten after rewrites) :
    after = (engine.singlePass params).flatMap Judged.text ∧
      rewrites = engine.doubleRewrites params ++ engine.singleRewrites params ∧ rewrites ≠ [] := by
  rw [rewriteParams] at h
  split at h
  · cases h
  · dsimp only at h
    split at h
    · cases h
    · rename_i some
      cases h
      refine ⟨rfl, List.filterMap_append, ?_⟩
      simpa using some

/-- The grammar of an engine, whatever its custom values are. -/
theorem exists_body {config : Config} (built : config.settings.bind build = .ok engine) :
    ∃ body, engine.grammar = ofBody body ∧ Recognizes body fun _ => True := by
  obtain ⟨settings, hsettings, built⟩ := bind_eq_ok_iff.mp built
  obtain ⟨grammar, hgrammar, h⟩ := bind_eq_ok_iff.mp built
  cases h
  rw [Config.settings] at hsettings
  split at hsettings
  · cases hsettings
    obtain rfl := Except.ok.inj (hgrammar.symm.trans build_none)
    exact ⟨none, rfl, recognizes_none⟩
  · obtain ⟨custom, hcustom, h⟩ := map_eq_ok_iff.mp hsettings
    cases h
    exact CustomValue.exists_body hcustom hgrammar

section

variable {body : Option Pattern} {recognized : List Char → Prop}
  (grammar : engine.grammar = ofBody body) (hbody : Recognizes body recognized)
include grammar hbody

theorem signCount_doublePass (params : List Char) :
    signCount params = signCount ((engine.doublePass params).flatMap Judged.text) +
      2 * (engine.doubleRewrites params).length := by
  refine signCount_judge fun m hm replacement hv => ?_
  rw [grammar] at hm
  rw [(double_captures hbody hm).2, signCount_judgeDouble hv]

theorem signCount_singlePass (params : List Char) :
    signCount ((engine.doublePass params).flatMap Judged.text) =
      signCount ((engine.singlePass params).flatMap Judged.text) +
        1 * (engine.singleRewrites params).length := by
  refine signCount_judge fun m hm replacement hv => ?_
  rw [grammar] at hm
  rw [(single_captures hbody hm).2, signCount_judgeSingle hv]

/-- A double rewrite takes two signs, a single one takes one. -/
theorem signCount_rewriteParams
    (h : (engine.rewriteParams params).value = .rewritten after rewrites) :
    signCount after + (2 * (engine.doubleRewrites params).length +
      (engine.singleRewrites params).length) = signCount params := by
  obtain ⟨rfl, -, -⟩ := passes_of_rewritten h
  have doubles := signCount_doublePass grammar hbody params
  have singles := signCount_singlePass grammar hbody params
  omega

theorem signCount_rewriteParams_lt
    (h : (engine.rewriteParams params).value = .rewritten after rewrites) :
    signCount after < signCount params := by
  have count := signCount_rewriteParams grammar hbody h
  obtain ⟨-, rfl, some⟩ := passes_of_rewritten h
  have pos : 0 < (engine.doubleRewrites params ++ engine.singleRewrites params).length :=
    List.length_pos_of_ne_nil some
  rw [List.length_append] at pos
  omega

end

/-- Every rewrite of the engine takes signs out of the text. -/
def Shrinks (engine : Engine) : Prop :=
  ∀ params after rewrites, (engine.rewriteParams params).value = .rewritten after rewrites →
    signCount after < signCount params

theorem shrinks_of_built {config : Config} (built : config.settings.bind build = .ok engine) :
    engine.Shrinks := by
  obtain ⟨body, grammar, hbody⟩ := exists_body built
  intro params after rewrites h
  exact signCount_rewriteParams_lt grammar hbody h

/-! ### Pass after pass -/

def Rewrites (engine : Engine) (params : List Char) : Prop :=
  ∃ after rewrites, (engine.rewriteParams params).value = .rewritten after rewrites

theorem rewrittenParams_of_not_rewrites (h : ¬engine.Rewrites params) :
    engine.rewrittenParams params = params := by
  rw [rewrittenParams]
  cases hvalue : (engine.rewriteParams params).value with
  | skipped | unchanged => rfl
  | rewritten after rewrites => exact absurd ⟨after, rewrites, hvalue⟩ h

theorem iterate_rewrittenParams (h : ¬engine.Rewrites params) (i : Nat) :
    engine.rewrittenParams^[i] params = params :=
  Function.iterate_fixed (rewrittenParams_of_not_rewrites h) i

/-- There is a last pass, after at most as many as there are signs. -/
theorem exists_last_pass (shrinks : engine.Shrinks) (params : List Char) :
    ∃ n ≤ signCount params, (∀ i < n, engine.Rewrites (engine.rewrittenParams^[i] params)) ∧
      ∀ i, ¬engine.Rewrites (engine.rewrittenParams^[n + i] params) ∧
        engine.rewrittenParams^[n + i] params = engine.rewrittenParams^[n] params := by
  -- A pass that rewrites leaves fewer signs, and a pass that does not is the last one for good.
  induction hcount : signCount params using Nat.strongRecOn generalizing params with
  | _ count ih =>
    by_cases h : engine.Rewrites params
    · obtain ⟨after, rewrites, hvalue⟩ := h
      have step : engine.rewrittenParams params = after := by rw [rewrittenParams, hvalue]; rfl
      have fewer : signCount after < count := hcount ▸ shrinks params after rewrites hvalue
      obtain ⟨n, hn, before, later⟩ := ih (signCount after) fewer after rfl
      refine ⟨n + 1, by omega, fun i hi => ?_, fun i => ?_⟩
      · cases i with
        | zero => exact ⟨after, rewrites, hvalue⟩
        | succ i =>
          rw [Function.iterate_succ_apply, step]
          exact before i (by omega)
      · rw [Nat.add_right_comm, Function.iterate_succ_apply, Function.iterate_succ_apply, step]
        exact later i
    · refine ⟨0, Nat.zero_le _, fun i hi => absurd hi (Nat.not_lt_zero i), fun i => ?_⟩
      rw [Nat.zero_add, iterate_rewrittenParams h]
      exact ⟨h, rfl⟩

end Engine

end MediaRange
