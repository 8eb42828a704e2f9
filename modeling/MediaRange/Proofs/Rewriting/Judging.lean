import MediaRange.Engine
import MediaRange.Proofs.Grammar.Matching
import MediaRange.Proofs.Rewriting.Fragments

/-!
# Judging groups

The engine finds its matches from left to right, but whether a group is a match depends on its
inside only. `judge_single` and `judge_double` judge a text group by group.
-/

namespace MediaRange

open Unicode Pattern

/-- The fragments of a text judged by what stands in their groups. -/
def judgeFragment (read : List Char → Option Verdict) : Fragment → List Judged
  | .plain c => [.plain c]
  | .group inside =>
    match read inside with
    | some verdict => [.range (Fragment.group inside).text verdict]
    | none => (Fragment.group inside).text.map .plain

/-- The pattern matches exactly the groups with a readable inside, and the match has the verdict
that belongs to the inside. -/
structure Judges (p : Pattern) (verdict : Match → Verdict) (read : List Char → Option Verdict) :
    Prop where
  free : ∀ {inside v}, read inside = some v → IsParenFree inside
  sound : ∀ {k hit}, p.matchAt k = some hit → ∃ inside r,
    k.rest = (Fragment.group inside).text ++ r ∧ hit.stop = k.position + inside.length + 2 ∧
      read inside = some (verdict ⟨k.position, (Fragment.group inside).text, hit.trail⟩)
  complete : ∀ {k inside r v}, k.rest = (Fragment.group inside).text ++ r → read inside = some v →
    p.matchAt k ≠ none

namespace Engine

def judgeSegment (verdict : Match → Verdict) : Segment → Judged
  | .plain c => .plain c
  | .found m => .range m.text (verdict m)

theorem judge_eq (p : Pattern) (verdict : Match → Verdict) (text : List Char) :
    judge p verdict text = (p.segments text).map (judgeSegment verdict) := by
  refine congrArg (List.map · _) (funext fun s => ?_)
  cases s <;> rfl

end Engine

section

variable {p : Pattern} {verdict : Match → Verdict} {read : List Char → Option Verdict}

theorem segmentsFrom_skip (p : Pattern) (u r : List Char) (position : Nat) (before : Option Char) :
    ∃ b, p.segmentsFrom u.length position before (u ++ r) =
      p.segmentsFrom 0 (position + u.length) b r := by
  induction u generalizing position before with
  | nil => exact ⟨before, rfl⟩
  | cons c u ih =>
    obtain ⟨b, hb⟩ := ih (position + 1) (some c)
    refine ⟨b, ?_⟩
    rw [List.length_cons, List.cons_append, segmentsFrom, hb]
    congr 1
    omega

/-- A match starts at an opening parenthesis. -/
theorem Judges.matchAt_eq_none (h : Judges p verdict read) {position : Nat} {before : Option Char}
    {c : Char} {rest : List Char} (hc : c ≠ '(') : p.matchAt ⟨position, before, c :: rest⟩ = none := by
  cases hm : p.matchAt ⟨position, before, c :: rest⟩ with
  | none => rfl
  | some hit =>
    obtain ⟨inside, r, same, -⟩ := h.sound hm
    exact absurd (List.cons.inj same).1 hc

theorem Judges.segmentsFrom_plain (h : Judges p verdict read) (u r : List Char)
    (hu : ∀ c ∈ u, c ≠ '(') (position : Nat) (before : Option Char) :
    ∃ b, p.segmentsFrom 0 position before (u ++ r) =
      u.map Segment.plain ++ p.segmentsFrom 0 (position + u.length) b r := by
  induction u generalizing position before with
  | nil => exact ⟨before, rfl⟩
  | cons c u ih =>
    obtain ⟨hc, hu⟩ := List.forall_mem_cons.mp hu
    obtain ⟨b, hb⟩ := ih hu (position + 1) (some c)
    refine ⟨b, ?_⟩
    rw [List.cons_append, segmentsFrom, h.matchAt_eq_none hc, hb]
    simp [Nat.add_assoc, Nat.add_comm 1]

theorem group_unique {i j r s : List Char} (hi : IsParenFree i) (hj : IsParenFree j)
    (h : (Fragment.group i).text ++ r = (Fragment.group j).text ++ s) : i = j ∧ r = s := by
  rw [group_text_append, group_text_append] at h
  have same : i = j := cut_unique (· == ')') (List.cons.inj h).2
    (fun c hc => beq_false_of_ne (hi c hc).2) (fun c hc => beq_false_of_ne (hj c hc).2)
    (by simp) (by simp)
  subst same
  exact ⟨rfl, by simpa using h⟩

/-- A group that starts at or after another one is the same or starts after its end. -/
theorem length_le_of_group {x y r s t : List Char} (hx : IsParenFree x) (hy : IsParenFree y)
    (h : (Fragment.group x).text ++ r = t ++ ((Fragment.group y).text ++ s)) :
    (t = [] ∧ x = y) ∨ (Fragment.group x).text.length ≤ t.length := by
  cases t with
  | nil => exact .inl ⟨rfl, (group_unique hx hy h).1⟩
  | cons c t =>
    apply Or.inr
    rw [group_text_append, group_text_append] at h
    have rest := (List.cons.inj h).2
    rw [List.append_cons] at rest
    rcases List.append_eq_append_iff.mp rest with ⟨u, rfl, -⟩ | ⟨u, within, opening⟩
    · simp [Fragment.text]
    · cases u with
      | nil =>
        rw [List.append_nil] at within
        simp [Fragment.text, ← within]
      | cons d u =>
        -- The parenthesis that opens the other group would stand inside this one.
        obtain rfl := (List.cons.inj opening).1
        have inGroup : '(' ∈ x ++ [')'] := by simp [within]
        rcases List.mem_append.mp inGroup with inside | closing
        · exact absurd rfl (hx _ inside).1
        · exact absurd (List.mem_singleton.mp closing) (by decide)

/-- Two groups of a text are the same or do not overlap. -/
theorem groups_apart {text u v x y r s : List Char} (hx : IsParenFree x) (hy : IsParenFree y)
    (hu : text = u ++ ((Fragment.group x).text ++ r))
    (hv : text = v ++ ((Fragment.group y).text ++ s)) :
    (u = v ∧ x = y) ∨ u.length + (Fragment.group x).text.length ≤ v.length ∨
      v.length + (Fragment.group y).text.length ≤ u.length := by
  rcases List.append_eq_append_iff.mp (hu.symm.trans hv) with ⟨t, rfl, ht⟩ | ⟨t, rfl, ht⟩
  · rcases length_le_of_group hx hy ht with ⟨rfl, same⟩ | before
    · exact .inl ⟨(List.append_nil u).symm, same⟩
    · rw [List.length_append]
      omega
  · rcases length_le_of_group hy hx ht with ⟨rfl, same⟩ | before
    · exact .inl ⟨List.append_nil v, same.symm⟩
    · rw [List.length_append]
      omega

theorem Judges.segmentsFrom_fragments (h : Judges p verdict read) {ps : List Fragment} (hps : Settled ps)
    (position : Nat) (before : Option Char) :
    (p.segmentsFrom 0 position before (ps.flatMap Fragment.text)).map (Engine.judgeSegment verdict) =
      ps.flatMap (judgeFragment read) := by
  induction hps generalizing position before with
  | nil => rfl
  | @plain c ps hopen hps ih =>
    have none : p.matchAt ⟨position, before, c :: ps.flatMap Fragment.text⟩ = none := by
      by_cases hc : c = '('
      · subst hc
        cases hm : p.matchAt ⟨position, before, '(' :: ps.flatMap Fragment.text⟩ with
        | none => rfl
        | some hit =>
          obtain ⟨inside, r, same, -, hread⟩ := h.sound hm
          rw [group_text_append] at same
          exact absurd (List.cons.inj same).2
            (hps.text_ne_of_closeGroup? (hopen rfl) (h.free hread) r)
      · exact h.matchAt_eq_none hc
    rw [List.flatMap_cons, Fragment.text, List.singleton_append, segmentsFrom, none]
    simp only [List.map_cons, ih]
    rfl
  | @group inside ps hfree hps ih =>
    rw [List.flatMap_cons, List.flatMap_cons]
    generalize ps.flatMap Fragment.text = tail at ih ⊢
    have text : (Fragment.group inside).text ++ tail = '(' :: ((inside ++ [')']) ++ tail) := by
      simp [Fragment.text]
    cases hm : p.matchAt ⟨position, before, (Fragment.group inside).text ++ tail⟩ with
    | some hit =>
      obtain ⟨i, r, same, hstop, hread⟩ := h.sound hm
      obtain ⟨rfl, rfl⟩ := group_unique hfree (h.free hread) same
      obtain ⟨b, hskip⟩ := segmentsFrom_skip p (inside ++ [')']) tail (position + 1) (some '(')
      dsimp only at hstop hread
      rw [text] at hm ⊢
      have taken : ('(' :: ((inside ++ [')']) ++ tail)).take (hit.stop - position) =
          (Fragment.group inside).text := by
        rw [← text, hstop, List.take_append_of_le_length (by simp [Fragment.text]; omega)]
        exact List.take_of_length_le (by simp [Fragment.text]; omega)
      have left : hit.stop - position - 1 = (inside ++ [')']).length := by
        rw [hstop, List.length_append]; simp; omega
      rw [segmentsFrom, hm]
      simp only [if_pos (show position < hit.stop by omega), taken, left, hskip, List.map_cons, ih]
      rw [judgeFragment, hread]
      rfl
    | none =>
      have hread : read inside = none := by
        cases hr : read inside with
        | none => rfl
        | some v => exact absurd hm (h.complete rfl hr)
      obtain ⟨b, hplain⟩ := h.segmentsFrom_plain (inside ++ [')']) tail
        (by simpa [or_imp, forall_and] using fun c hc => (hfree c hc).1) (position + 1) (some '(')
      rw [text] at hm ⊢
      rw [segmentsFrom, hm]
      simp only [List.map_cons, hplain, List.map_append, ih, judgeFragment, hread]
      simp [Fragment.text, Engine.judgeSegment]

/-- Judging a text is judging its fragments. -/
theorem Judges.judge_eq (h : Judges p verdict read) (text : List Char) :
    Engine.judge p verdict text = (fragments text).flatMap (judgeFragment read) := by
  have cut := h.segmentsFrom_fragments (settled_fragments text) 0 none
  rwa [flatMap_text_fragments, ← segments, ← Engine.judge_eq] at cut

end

end MediaRange
