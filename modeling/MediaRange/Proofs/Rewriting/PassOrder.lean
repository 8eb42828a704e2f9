import MediaRange.Proofs.Rewriting.Skipping

/-!
# The order of the passes

Without custom values the matches of both grammars are groups, and no group is a match of both. So
the passes do not get in each other's way: `passes_in_either_order` shows that single comparisons may
just as well be rewritten first.
-/

namespace MediaRange

open Pattern

/-! ### Matches of both grammars -/

/-- A match that starts at some place of a text, whether or not a search from the left comes there. -/
def Pattern.OccursBetween (p : Pattern) (text : List Char) (first last : Nat) : Prop :=
  ∃ u k hit, (Cursor.start text).Leads u k ∧ p.matchAt k = some hit ∧ first = k.position ∧
    last = hit.stop

theorem occursBetween_of_mem {p : Pattern} {text : List Char} {m : Match}
    (hm : m ∈ p.matchesIn text) : p.OccursBetween text m.start (m.start + m.text.length) := by
  obtain ⟨u, k, w, path, hw, rfl⟩ := mem_matchesIn hm
  obtain ⟨v, hv⟩ := ways_leads (List.mem_of_mem_head? hw)
  refine ⟨u, k, w.hit, path, ?_, rfl, ?_⟩
  · rw [matchAt_eq_head, hw]
    rfl
  · rw [text_of_leads hv]
    exact hv.position.symm

section

variable {p q : Pattern} {verdict verdict' : Match → Verdict}
  {read read' : List Char → Option Verdict} {text : List Char} {i j : Nat}

theorem Judges.occursBetween (h : Judges p verdict read) (occurs : p.OccursBetween text i j) :
    ∃ u inside r v, text = u ++ ((Fragment.group inside).text ++ r) ∧ i = u.length ∧
      j = u.length + (Fragment.group inside).text.length ∧ read inside = some v := by
  obtain ⟨u, k, hit, path, found, rfl, rfl⟩ := occurs
  obtain ⟨inside, r, rest, stop, hread⟩ := h.sound found
  have position : k.position = u.length := by
    rw [path.position]
    exact Nat.zero_add _
  refine ⟨u, inside, r, _, ?_, position, ?_, hread⟩
  · rw [← rest]
    exact path.rest
  · rw [stop, position]
    simp only [Fragment.text, List.length_cons, List.length_append, List.length_nil]
    omega

/-- Matches of patterns that judge different groups do not overlap. -/
theorem Judges.occursBetween_apart (h : Judges p verdict read) (h' : Judges q verdict' read')
    (exclusive : ∀ inside v, read inside = some v → read' inside = none) {k l : Nat}
    (hp : p.OccursBetween text i j) (hq : q.OccursBetween text k l) : j ≤ k ∨ l ≤ i := by
  obtain ⟨u, x, r, v, hu, rfl, rfl, hx⟩ := h.occursBetween hp
  obtain ⟨u', y, s, v', hu', rfl, rfl, hy⟩ := h'.occursBetween hq
  rcases groups_apart (h.free hx) (h'.free hy) hu hu' with ⟨-, rfl⟩ | apart
  · rw [exclusive x v hx] at hy
    cases hy
  · exact apart

end

/-! ### Single comparisons first -/

theorem readDouble_of_single {settings : Settings} {inside : List Char} {f : SingleForm}
    (h : SingleForm.read? inside = some f) : readDouble settings inside = none := by
  rw [readDouble, DoubleForm.read?_of_single h]
  rfl

theorem isApart_single (useCalc : Bool) :
    IsApart useCalc readSingleRange (readDouble ⟨none, useCalc⟩) where
  taken inside r h := by
    obtain ⟨e, he, -⟩ := Option.map_eq_some_iff.mp h
    obtain ⟨f, hf, -⟩ := Option.bind_eq_some_iff.mp he
    exact readDouble_of_single hf
  query inside r i h hi := by
    have tokens := (isPass_single ⟨none, useCalc⟩).hasTokens inside r h
    rw [readDouble, (Reading.read?_fragments tokens hi).2]
    rfl

/-- It makes no difference which of the two readings of a group is tried first. -/
theorem readSingleRange_or (inside : List Char) :
    (readSingleRange inside).or (readDoubleRange inside) = reading? inside := by
  unfold reading? readSingleRange readDoubleRange
  cases hd : doubleRange? inside with
  | none => simp
  | some d =>
    obtain ⟨f, hf, -⟩ := Option.bind_eq_some_iff.mp hd
    rw [singleRange?_of_double hf]
    rfl

namespace Engine

section

variable (engine : Engine) (params : List Char)

/-- The single comparisons of parameters, rewritten before the double ones. -/
def singlesFirst : List Judged := judge engine.grammar.single engine.judgeSingle params

/-- The double comparisons of parameters, rewritten after the single ones. -/
def doublesLast : List Judged :=
  judge engine.grammar.double engine.judgeDouble ((engine.singlesFirst params).flatMap Judged.text)

end

/-- Without custom values no match of the single grammar overlaps one of the double grammar, and
rewriting all single comparisons before the double ones gives the same text and the same rewrites. -/
theorem passes_in_either_order {useCalc : Bool} {engine : Engine}
    (built : build ⟨none, useCalc⟩ = .ok engine) (params : List Char) :
    (∀ i j k l, engine.grammar.single.OccursBetween params i j →
        engine.grammar.double.OccursBetween params k l → j ≤ k ∨ l ≤ i) ∧
      (∀ m ∈ engine.grammar.single.matchesIn params, ∀ n ∈ engine.grammar.double.matchesIn params,
        m.start + m.text.length ≤ n.start ∨ n.start + n.text.length ≤ m.start) ∧
      (engine.doublesLast params).flatMap Judged.text = engine.rewrittenParams params ∧
      (engine.doublesLast params).filterMap Judged.rewrite? = engine.doubleRewrites params ∧
      (engine.singlesFirst params).filterMap Judged.rewrite? = engine.singleRewrites params ∧
      (engine.rewriteParams params).value.rewrites =
        engine.doubleRewrites params ++ engine.singleRewrites params := by
  obtain rfl := eq_plainEngine built
  have singles := judges_single (plainEngine useCalc)
  have doubles := judges_double (plainEngine useCalc)
  have apart : ∀ i j k l, (plainEngine useCalc).grammar.single.OccursBetween params i j →
      (plainEngine useCalc).grammar.double.OccursBetween params k l → j ≤ k ∨ l ≤ i := by
    intro i j k l single double
    refine singles.occursBetween_apart doubles (fun inside v h => ?_) single double
    obtain ⟨f, hf, -⟩ := Option.map_eq_some_iff.mp h
    exact readDouble_of_single hf
  obtain ⟨first, second, text⟩ := firstPass_secondPass useCalc params
  obtain ⟨first', second', text'⟩ := passes_eq (isPass_single _) (isPass_double _)
    (isApart_single useCalc) singles doubles params
  rw [rangeRewrite?_single, ← second] at first'
  rw [rangeRewrite?_double, ← first] at second'
  simp only [readSingleRange_or] at text'
  refine ⟨apart, ?_, ?_, second', first', ?_⟩
  · intro m hm n hn
    exact apart _ _ _ _ (occursBetween_of_mem hm) (occursBetween_of_mem hn)
  · rw [rewrittenParams_eq rfl recognizes_none]
    exact text'.trans text.symm
  · exact rewrites_rewriteParams rfl recognizes_none params

/-- A double comparison and a single one, and a second single one that is not closed. -/
theorem passes_in_either_order_mixed :
    build ⟨none, false⟩ = .ok (plainEngine false) ∧
      ((plainEngine false).doublesLast
          "(1px < width < 9px) and (color > 2), (height > 3px".toList).flatMap Judged.text =
        (plainEngine false).rewrittenParams
          "(1px < width < 9px) and (color > 2), (height > 3px".toList := by
  obtain ⟨-, -, text, -⟩ := passes_in_either_order (build_plain false)
    "(1px < width < 9px) and (color > 2), (height > 3px".toList
  exact ⟨build_plain false, text⟩

end Engine

end MediaRange
