import MediaRange.Proofs.Rewriting.Verdicts

/-!
# The two passes as one

Double comparisons are rewritten first, and the queries put in their place hold no range for the
second pass. `rewriteParams_eq` describes both passes group by group.
-/

namespace MediaRange

open Pattern Grammar

/-! ### Replacements -/

def Verdict.replacement? : Verdict → Option (List Char)
  | rewritten replacement => some replacement
  | _ => none

theorem Verdict.text_eq (original : List Char) (v : Verdict) :
    v.text original = v.replacement?.getD original := by
  cases v <;> rfl

theorem Verdict.rewrite?_eq (original : List Char) (v : Verdict) :
    v.rewrite? original = v.replacement?.map (⟨original, ·⟩) := by
  cases v <;> rfl

theorem SingleForm.replacement?_verdict (settings : Settings) (f : SingleForm) :
    (f.verdict settings).replacement? = f.range?.map (·.query settings) := by
  rw [verdict, range?]
  cases Feature.named? f.name with
  | none => rfl
  | some feature =>
    dsimp only [Option.bind_some]
    split <;> rfl

theorem DoubleForm.replacement?_verdict (settings : Settings) (f : DoubleForm) :
    (f.verdict settings).replacement? = f.range?.map (·.query settings) := by
  rw [verdict, range?]
  cases Feature.named? f.name with
  | none => rfl
  | some feature =>
    dsimp only [Option.bind_some]
    split
    · rfl
    · split <;> rfl

theorem flatMap_text_plain (text : List Char) :
    (text.map Judged.plain).flatMap Judged.text = text := by
  simp [List.flatMap_map, Judged.text]

theorem filterMap_plain {β : Type} {g : Judged → Option β} (plain : ∀ c, g (.plain c) = none)
    (text : List Char) : (text.map Judged.plain).filterMap g = [] := by
  rw [List.filterMap_map]
  exact List.filterMap_eq_nil_iff.mpr fun c _ => plain c

theorem filterMap_rewrite?_plain (text : List Char) :
    (text.map Judged.plain).filterMap Judged.rewrite? = [] :=
  filterMap_plain (fun _ => rfl) text

theorem flatMap_text_judgeFragment (read : List Char → Option Verdict) (inside : List Char) :
    (judgeFragment read (.group inside)).flatMap Judged.text =
      ((read inside).bind Verdict.replacement?).getD (Fragment.group inside).text := by
  rw [judgeFragment]
  cases read inside with
  | none => exact flatMap_text_plain _
  | some v => simp [Judged.text, Verdict.text_eq]

theorem filterMap_rewrite?_judgeFragment (read : List Char → Option Verdict) (inside : List Char) :
    (judgeFragment read (.group inside)).filterMap Judged.rewrite? =
      (((read inside).bind Verdict.replacement?).map
        (Rewrite.mk (Fragment.group inside).text)).toList := by
  rw [judgeFragment]
  cases read inside with
  | none => exact filterMap_rewrite?_plain _
  | some v =>
    simp only [List.filterMap_cons, Judged.rewrite?, Verdict.rewrite?_eq, List.filterMap_nil,
      Option.bind_some]
    cases v.replacement? <;> rfl

theorem replacement?_readSingle (settings : Settings) (inside : List Char) :
    (readSingle settings inside).bind Verdict.replacement? =
      (singleRange? inside).map (·.query settings) := by
  rw [readSingle, singleRange?]
  cases SingleForm.read? inside with
  | none => rfl
  | some f => exact f.replacement?_verdict settings

theorem replacement?_readDouble (settings : Settings) (inside : List Char) :
    (readDouble settings inside).bind Verdict.replacement? =
      (doubleRange? inside).map (·.query settings) := by
  rw [readDouble, doubleRange?]
  cases DoubleForm.read? inside with
  | none => rfl
  | some f => exact f.replacement?_verdict settings

/-! ### New fragments -/

/-- The queries of a reading as fragments. -/
def Reading.fragments (settings : Settings) : Reading → List Fragment
  | single e => [.group (e.queryInside settings)]
  | double d =>
    .group (d.lower.queryInside settings) ::
      (" and ".toList.map .plain ++ [.group (d.upper.queryInside settings)])

theorem Reading.text_fragments (settings : Settings) (r : Reading) :
    (r.fragments settings).flatMap Fragment.text = r.query settings := by
  cases r with
  | single e => simp [fragments, query, query_eq]
  | double d => simp [fragments, query, DoubleRange.query, query_eq, Fragment.text]

/-- The fragments with the queries of all readings in their place. -/
def replaceGroup (read : List Char → Option Reading) (settings : Settings) :
    Fragment → List Fragment
  | .plain c => [.plain c]
  | .group inside =>
    match read inside with
    | some r => r.fragments settings
    | none => [.group inside]

/-- The values of a reading are tokens. -/
def Reading.HasTokens : Reading → Prop
  | single e => IsValueToken e.value
  | double d => IsValueToken d.lower.value ∧ IsValueToken d.upper.value

theorem Spells.hasTokens {inside : List Char} {r : Reading} (h : Spells inside r) :
    r.HasTokens := by
  cases h with
  | single _ _ token => exact token
  | @double _ _ _ d _ leftToken _ _ rightToken =>
    obtain ⟨feature, comparison, leftInclusive, left, rightInclusive, right⟩ := d
    cases comparison
    · exact ⟨rightToken, leftToken⟩
    · exact ⟨leftToken, rightToken⟩

theorem Reading.settled_fragments {useCalc : Bool} {r : Reading} (h : r.HasTokens)
    {ps : List Fragment} (hps : Settled ps) : Settled (r.fragments ⟨none, useCalc⟩ ++ ps) := by
  cases r with
  | single e => exact .group (isParenFree_queryInside h) hps
  | double d =>
    have upper : Settled (.group (d.upper.queryInside ⟨none, useCalc⟩) :: ps) :=
      .group (isParenFree_queryInside h.2) hps
    have connected := settled_plain (show ∀ c ∈ " and ".toList, c ≠ '(' by simp) upper
    exact .group (isParenFree_queryInside h.1) (by simpa using connected)

theorem replacement_replaceGroup {read : List Char → Option Reading} {useCalc : Bool}
    (h : ∀ inside r, read inside = some r → r.HasTokens) :
    Replacement (replaceGroup read ⟨none, useCalc⟩) where
  plain _ := rfl
  first inside := by
    rw [replaceGroup]
    cases read inside with
    | none => exact ⟨_, _, rfl⟩
    | some r => cases r <;> exact ⟨_, _, rfl⟩
  settled inside ps hfree hps := by
    rw [replaceGroup]
    cases hr : read inside with
    | none => exact .group hfree hps
    | some r => exact Reading.settled_fragments (h inside r hr) hps

/-! ### One pass -/

/-- The rewrite of a group by a pass that reads it. -/
def rangeRewrite? (read : List Char → Option Reading) (settings : Settings) :
    Fragment → Option Rewrite
  | .plain _ => none
  | .group inside =>
    (read inside).map fun r => ⟨(Fragment.group inside).text, r.query settings⟩

/-- A pass judges groups by what they spell: it rewrites those that it can read. -/
structure IsPass (settings : Settings) (judge : List Char → Option Verdict)
    (read : List Char → Option Reading) : Prop where
  replacement : ∀ inside,
    (judge inside).bind Verdict.replacement? = (read inside).map (·.query settings)
  hasTokens : ∀ inside r, read inside = some r → r.HasTokens

def readDoubleRange (inside : List Char) : Option Reading := (doubleRange? inside).map .double

def readSingleRange (inside : List Char) : Option Reading := (singleRange? inside).map .single

theorem isPass_double (settings : Settings) :
    IsPass settings (readDouble settings) readDoubleRange where
  replacement inside := by
    rw [replacement?_readDouble, readDoubleRange, Option.map_map]
    rfl
  hasTokens inside r h := by
    obtain ⟨d, hd, rfl⟩ := Option.map_eq_some_iff.mp h
    exact (doubleRange?_eq_some_iff.mp hd).hasTokens

theorem isPass_single (settings : Settings) :
    IsPass settings (readSingle settings) readSingleRange where
  replacement inside := by
    rw [replacement?_readSingle, readSingleRange, Option.map_map]
    rfl
  hasTokens inside r h := by
    obtain ⟨e, he, rfl⟩ := Option.map_eq_some_iff.mp h
    exact (singleRange?_eq_some_iff.mp he).hasTokens

theorem filterMap_eq_flatMap {α β : Type} (f : α → Option β) (l : List α) :
    l.filterMap f = l.flatMap fun a => (f a).toList := by
  induction l with
  | nil => rfl
  | cons a l ih =>
    rw [List.flatMap_cons, ← ih]
    cases h : f a <;> simp [h]

section

variable {settings : Settings} {judge : List Char → Option Verdict}
  {read : List Char → Option Reading}

theorem IsPass.flatMap_text (h : IsPass settings judge read) (f : Fragment) :
    (judgeFragment judge f).flatMap Judged.text =
      (replaceGroup read settings f).flatMap Fragment.text := by
  cases f with
  | plain c => rfl
  | group inside =>
    rw [flatMap_text_judgeFragment, h.replacement, replaceGroup]
    cases read inside with
    | none => simp
    | some r => exact (Reading.text_fragments settings r).symm

theorem IsPass.filterMap_rewrite? (h : IsPass settings judge read) (f : Fragment) :
    (judgeFragment judge f).filterMap Judged.rewrite? = (rangeRewrite? read settings f).toList := by
  cases f with
  | plain c => rfl
  | group inside =>
    rw [filterMap_rewrite?_judgeFragment, h.replacement, Option.map_map]
    rfl

theorem IsPass.rewrites_judge (h : IsPass settings judge read) {p : Pattern}
    {verdict : Match → Verdict} (judges : Judges p verdict judge) (text : List Char) :
    (Engine.judge p verdict text).filterMap Judged.rewrite? =
      (fragments text).filterMap (rangeRewrite? read settings) := by
  rw [judges.judge_eq text, List.filterMap_flatMap, filterMap_eq_flatMap]
  exact congrArg (List.flatMap · _) (funext h.filterMap_rewrite?)

end

/-- Fragments without a match stay as they are. -/
theorem flatMap_judgeFragment_none {read : List Char → Option Verdict} {fs : List Fragment}
    (h : ∀ inside, .group inside ∈ fs → read inside = none) :
    fs.flatMap (judgeFragment read) = (fs.flatMap Fragment.text).map .plain := by
  rw [List.map_flatMap, List.flatMap_def, List.flatMap_def]
  refine congrArg List.flatten (List.map_congr_left fun f hf => ?_)
  cases f with
  | plain c => rfl
  | group inside => rw [judgeFragment, h inside hf]

/-- The queries of a reading hold no range. -/
theorem Reading.read?_fragments {useCalc : Bool} {r : Reading} (h : r.HasTokens)
    {inside : List Char} (hinside : .group inside ∈ r.fragments ⟨none, useCalc⟩) :
    SingleForm.read? inside = none ∧ DoubleForm.read? inside = none := by
  cases r with
  | single e =>
    obtain rfl := Fragment.group.inj (List.mem_singleton.mp hinside)
    exact ⟨SingleForm.read?_queryInside h, DoubleForm.read?_queryInside h⟩
  | double d =>
    simp only [fragments, List.mem_cons, List.mem_append, List.mem_map, Fragment.group.injEq,
      reduceCtorEq, and_false, exists_false, List.not_mem_nil, or_false, false_or] at hinside
    rcases hinside with rfl | rfl
    · exact ⟨SingleForm.read?_queryInside h.1, DoubleForm.read?_queryInside h.1⟩
    · exact ⟨SingleForm.read?_queryInside h.2, DoubleForm.read?_queryInside h.2⟩

/-! ### One pass after another -/

/-- The second of two passes judges no group that the first one reads, and no query. -/
structure IsApart (useCalc : Bool) (read : List Char → Option Reading)
    (judge : List Char → Option Verdict) : Prop where
  taken : ∀ inside r, read inside = some r → judge inside = none
  query : ∀ inside r i, read inside = some r → .group i ∈ r.fragments ⟨none, useCalc⟩ →
    judge i = none

section

variable {useCalc : Bool} {judge judge' : List Char → Option Verdict}
  {read read' : List Char → Option Reading} (first : IsPass ⟨none, useCalc⟩ judge read)
  (second : IsPass ⟨none, useCalc⟩ judge' read') (apart : IsApart useCalc read judge')

include apart

theorem judgeLater_taken {inside : List Char} {r : Reading} (h : read inside = some r) :
    (replaceGroup read ⟨none, useCalc⟩ (.group inside)).flatMap (judgeFragment judge') =
      (r.query ⟨none, useCalc⟩).map .plain := by
  simp only [replaceGroup, h]
  rw [flatMap_judgeFragment_none fun i hi => apart.query inside r i h hi, Reading.text_fragments]

omit apart in
theorem judgeLater_left {settings : Settings} {inside : List Char} (h : read inside = none) :
    (replaceGroup read settings (.group inside)).flatMap (judgeFragment judge') =
      judgeFragment judge' (.group inside) := by
  simp [replaceGroup, h]

/-- Of what the second pass would judge in the first place, nothing is lost, and nothing is new. -/
theorem filterMap_later {β : Type} {g : Judged → Option β} (plain : ∀ c, g (.plain c) = none)
    (f : Fragment) :
    ((replaceGroup read ⟨none, useCalc⟩ f).flatMap (judgeFragment judge')).filterMap g =
      (judgeFragment judge' f).filterMap g := by
  cases f with
  | plain c => rfl
  | group inside =>
    cases hr : read inside with
    | some r =>
      rw [judgeLater_taken apart hr, judgeFragment, apart.taken inside r hr, filterMap_plain plain,
        filterMap_plain plain]
    | none => rw [judgeLater_left hr]

section

include second

theorem flatMap_text_later (f : Fragment) :
    ((replaceGroup read ⟨none, useCalc⟩ f).flatMap (judgeFragment judge')).flatMap Judged.text =
      (replaceGroup (fun inside => (read inside).or (read' inside)) ⟨none, useCalc⟩ f).flatMap
        Fragment.text := by
  cases f with
  | plain c => rfl
  | group inside =>
    cases hr : read inside with
    | some r =>
      rw [judgeLater_taken apart hr, flatMap_text_plain, replaceGroup, hr]
      exact (Reading.text_fragments _ r).symm
    | none =>
      rw [judgeLater_left hr, second.flatMap_text, replaceGroup, replaceGroup, hr, Option.none_or]

end

variable {p q : Pattern} {verdict verdict' : Match → Verdict} (judges : Judges p verdict judge)
  (judges' : Judges q verdict' judge') (text : List Char)
include first judges

omit apart in
theorem text_judge : (Engine.judge p verdict text).flatMap Judged.text =
    (fragments text).flatMap fun f => (replaceGroup read ⟨none, useCalc⟩ f).flatMap Fragment.text := by
  rw [judges.judge_eq, List.flatMap_assoc]
  exact congrArg (List.flatMap · _) (funext first.flatMap_text)

include judges'

omit apart in
/-- The second pass judges the fragments that the first one leaves or puts in. -/
theorem judge_text_judge :
    Engine.judge q verdict' ((Engine.judge p verdict text).flatMap Judged.text) =
      (fragments text).flatMap fun f =>
        (replaceGroup read ⟨none, useCalc⟩ f).flatMap (judgeFragment judge') := by
  rw [judges'.judge_eq, text_judge first judges,
    fragments_replaced (replacement_replaceGroup first.hasTokens), List.flatMap_assoc]

/-- The second pass judges the ranges that it would have judged in the text that was there at first. -/
theorem filterMap_judge_judge {β : Type} {g : Judged → Option β} (plain : ∀ c, g (.plain c) = none) :
    (Engine.judge q verdict' ((Engine.judge p verdict text).flatMap Judged.text)).filterMap g =
      (Engine.judge q verdict' text).filterMap g := by
  rw [judge_text_judge first judges judges', judges'.judge_eq, List.filterMap_flatMap,
    List.filterMap_flatMap]
  exact congrArg (List.flatMap · _) (funext (filterMap_later apart plain))

include second

/-- Two passes that keep apart: each rewrites what it reads in the groups of the text that was there
at first, and together they replace all that one of them reads. -/
theorem passes_eq :
    let before := Engine.judge p verdict text
    let after := Engine.judge q verdict' (before.flatMap Judged.text)
    before.filterMap Judged.rewrite? =
        (fragments text).filterMap (rangeRewrite? read ⟨none, useCalc⟩) ∧
      after.filterMap Judged.rewrite? =
        (fragments text).filterMap (rangeRewrite? read' ⟨none, useCalc⟩) ∧
      after.flatMap Judged.text = (fragments text).flatMap fun f =>
        (replaceGroup (fun inside => (read inside).or (read' inside)) ⟨none, useCalc⟩ f).flatMap
          Fragment.text := by
  intro before after
  refine ⟨first.rewrites_judge judges text, ?_, ?_⟩
  · rw [← second.rewrites_judge judges' text]
    exact filterMap_judge_judge first apart judges judges' text fun _ => rfl
  · have after_eq : after = _ := judge_text_judge first judges judges' text
    rw [after_eq, List.flatMap_assoc]
    exact congrArg (List.flatMap · _) (funext (flatMap_text_later second apart))

end

/-! ### Double comparisons first -/

theorem readSingle_of_double {settings : Settings} {inside : List Char} {f : DoubleForm}
    (h : DoubleForm.read? inside = some f) : readSingle settings inside = none := by
  rw [readSingle, SingleForm.read?_of_double h]
  rfl

theorem isApart_double (useCalc : Bool) :
    IsApart useCalc readDoubleRange (readSingle ⟨none, useCalc⟩) where
  taken inside r h := by
    obtain ⟨d, hd, -⟩ := Option.map_eq_some_iff.mp h
    obtain ⟨f, hf, -⟩ := Option.bind_eq_some_iff.mp hd
    exact readSingle_of_double hf
  query inside r i h hi := by
    have tokens := (isPass_double ⟨none, useCalc⟩).hasTokens inside r h
    rw [readSingle, (Reading.read?_fragments tokens hi).1]
    rfl

def doubleRewrite? (settings : Settings) : Fragment → Option Rewrite
  | .plain _ => none
  | .group inside =>
    (doubleRange? inside).map fun d => ⟨(Fragment.group inside).text, d.query settings⟩

def singleRewrite? (settings : Settings) : Fragment → Option Rewrite
  | .plain _ => none
  | .group inside =>
    (singleRange? inside).map fun e => ⟨(Fragment.group inside).text, e.query settings⟩

theorem rangeRewrite?_double (settings : Settings) :
    rangeRewrite? readDoubleRange settings = doubleRewrite? settings := by
  funext f
  cases f with
  | plain c => rfl
  | group inside =>
    rw [rangeRewrite?, readDoubleRange, Option.map_map]
    rfl

theorem rangeRewrite?_single (settings : Settings) :
    rangeRewrite? readSingleRange settings = singleRewrite? settings := by
  funext f
  cases f with
  | plain c => rfl
  | group inside =>
    rw [rangeRewrite?, readSingleRange, Option.map_map]
    rfl

def groupRewrites (settings : Settings) (fs : List Fragment) : List Rewrite :=
  fs.filterMap (doubleRewrite? settings) ++ fs.filterMap (singleRewrite? settings)

def plainEngine (useCalc : Bool) : Engine := ⟨ofBody none, ⟨none, useCalc⟩⟩

theorem build_plain (useCalc : Bool) : Engine.build ⟨none, useCalc⟩ = .ok (plainEngine useCalc) := by
  simp only [Engine.build, build_none]
  rfl

section

variable (useCalc : Bool) (params : List Char)

def firstPass : List Judged :=
  Engine.judge (plainEngine useCalc).grammar.double (plainEngine useCalc).judgeDouble params

def secondPass : List Judged :=
  Engine.judge (plainEngine useCalc).grammar.single (plainEngine useCalc).judgeSingle
    ((firstPass useCalc params).flatMap Judged.text)

/-- What both passes do, group by group. -/
theorem firstPass_secondPass :
    (firstPass useCalc params).filterMap Judged.rewrite? =
        (fragments params).filterMap (doubleRewrite? ⟨none, useCalc⟩) ∧
      (secondPass useCalc params).filterMap Judged.rewrite? =
        (fragments params).filterMap (singleRewrite? ⟨none, useCalc⟩) ∧
      (secondPass useCalc params).flatMap Judged.text = (fragments params).flatMap fun f =>
        (replaceGroup reading? ⟨none, useCalc⟩ f).flatMap Fragment.text := by
  have both := passes_eq (isPass_double _) (isPass_single _) (isApart_double useCalc)
    (judges_double (plainEngine useCalc)) (judges_single (plainEngine useCalc)) params
  rwa [rangeRewrite?_double, rangeRewrite?_single] at both

end

/-- Rewriting replaces every group that spells a reading. -/
theorem rewriteParams_eq (useCalc : Bool) {params : List Char}
    (h : '<' ∈ params ∨ '>' ∈ params) :
    ((plainEngine useCalc).rewriteParams params).value =
      if (groupRewrites ⟨none, useCalc⟩ (fragments params)).isEmpty then .unchanged
      else .rewritten ((fragments params).flatMap fun f =>
        (replaceGroup reading? ⟨none, useCalc⟩ f).flatMap Fragment.text)
        (groupRewrites ⟨none, useCalc⟩ (fragments params)) := by
  have signs : ¬(!params.contains '<' && !params.contains '>') = true := by
    simpa [Decidable.or_iff_not_imp_left] using h
  obtain ⟨doubles, singles, text⟩ := firstPass_secondPass useCalc params
  rw [Engine.rewriteParams, if_neg signs, groupRewrites, ← doubles, ← singles, ← text,
    ← List.filterMap_append]
  rfl

end MediaRange
