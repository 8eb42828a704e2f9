import MediaRange.Proofs.Rewriting.Judging
import MediaRange.Proofs.Rewriting.Queries

/-!
# The verdict on a form

A match captures the parts of its form. `judges_single` and `judges_double` show that the engine
reads forms in groups, and that its verdict depends on the form alone.
-/

namespace MediaRange

open Unicode Pattern Grammar

/-! ### Captured texts -/

theorem group_eq {m : Match} {name : String} {front x back : List Char} {first last : Nat}
    (text : m.text = front ++ (x ++ back))
    (hopen : m.trail.find? (·.1 = .opening name) = some (.opening name, first))
    (hclose : m.trail.find? (·.1 = .closing name) = some (.closing name, last))
    (hfirst : first = m.start + front.length) (hlast : last = first + x.length) :
    m.group name = x := by
  subst hfirst hlast
  simp [Match.group, Match.span?, hopen, hclose, text]

/-- No mark belongs to the group. -/
def IsFresh (name : String) (marks : Trail) : Prop :=
  ∀ e ∈ marks, e.1 ≠ .opening name ∧ e.1 ≠ .closing name

theorem IsFresh.append {name : String} {marks others : Trail} (h : IsFresh name marks)
    (ho : IsFresh name others) : IsFresh name (marks ++ others) :=
  fun e he => (List.mem_append.mp he).elim (h e) (ho e)

theorem find?_fresh {name : String} {marks trail : Trail} (h : IsFresh name marks) {mark : Mark}
    (hmark : mark = .opening name ∨ mark = .closing name) :
    (marks ++ trail).find? (·.1 = mark) = trail.find? (·.1 = mark) := by
  rw [List.find?_append, List.find?_eq_none.mpr, Option.none_or]
  intro e he
  rcases hmark with rfl | rfl
  · simpa using (h e he).1
  · simpa using (h e he).2

section

variable {m : Match} {position : Nat} {trail : Trail} (marks : Trail) (front : List Char)

theorem group_slot {name : String} {u back : List Char} (text : m.text = front ++ (u ++ back))
    (htrail : m.trail = marks ++ slotTrail name position u trail)
    (hposition : position = m.start + front.length) (fresh : IsFresh name marks) :
    m.group name = trim u := by
  have parts : m.text = (front ++ leadingBlanks u) ++
      (trim u ++ (trailingBlanks (trimLeft u) ++ back)) := by
    conv => lhs; rw [text, ← leading_append_trim_append_trailing u]
    simp only [List.append_assoc]
  refine group_eq parts
    (by rw [htrail, find?_fresh fresh (.inl rfl)]; simp [slotTrail]; rfl)
    (by rw [htrail, find?_fresh fresh (.inr rfl)]; simp [slotTrail]) ?_ rfl
  rw [hposition, List.length_append, Nat.add_assoc]

theorem group_sign {op eq : String} {s : Comparison} {inclusive : Bool} {back : List Char}
    (text : m.text = front ++ (signText s inclusive ++ back))
    (htrail : m.trail = marks ++ signTrail op eq position inclusive trail)
    (hposition : position = m.start + front.length) (freshOp : IsFresh op marks)
    (freshEq : IsFresh eq marks) (distinct : op ≠ eq) :
    m.group op = [s.symbol] ∧ m.group eq = if inclusive then ['='] else [] := by
  have signParts : m.text =
      front ++ ([s.symbol] ++ ((if inclusive then ['='] else []) ++ back)) := by
    rw [text]; rfl
  have eqParts : m.text =
      (front ++ [s.symbol]) ++ ((if inclusive then ['='] else []) ++ back) := by
    rw [signParts, List.append_assoc]
  constructor
  · exact group_eq signParts
      (by rw [htrail, find?_fresh freshOp (.inl rfl)]; simp [signTrail, distinct.symm])
      (by rw [htrail, find?_fresh freshOp (.inr rfl)]; simp [signTrail, distinct.symm])
      hposition rfl
  · exact group_eq eqParts
      (by rw [htrail, find?_fresh freshEq (.inl rfl)]; simp [signTrail]; rfl)
      (by rw [htrail, find?_fresh freshEq (.inr rfl)]; simp [signTrail]; rfl)
      (by rw [hposition, List.length_append]; rfl) (by cases inclusive <;> rfl)

theorem group_cut {name op eq value : String} {cut : SignCut} {back : List Char}
    (text : m.text = front ++ (cut.text ++ back))
    (htrail : m.trail = cutTrail name op eq value position cut trail)
    (hposition : position = m.start + front.length) (distinct : [name, op, eq, value].Nodup) :
    m.group name = trim cut.before ∧ m.group op = [cut.comparison.symbol] ∧
      (m.group eq = if cut.inclusive then ['='] else []) ∧ m.group value = trim cut.after := by
  obtain ⟨u, s, inclusive, v⟩ := cut
  simp only [List.nodup_cons, List.mem_cons, List.not_mem_nil, not_or, or_false] at distinct
  obtain ⟨⟨nameOp, nameEq, nameValue⟩, ⟨opEq, opValue⟩, eqValue, -⟩ := distinct
  simp only [SignCut.text] at text
  have valueMarks {group : String} (h : group ≠ value) (position : Nat) :
      IsFresh group (slotTrail value position v []) := by
    simp [IsFresh, slotTrail, h.symm]
  have signMarks (position : Nat) : IsFresh name (signTrail op eq position inclusive []) := by
    simp [IsFresh, signTrail, Ne.symm nameOp, Ne.symm nameEq]
  have sign := group_sign (slotTrail value _ v []) (front ++ u)
    (show m.text = (front ++ u) ++ (signText s inclusive ++ (v ++ back)) by simpa using text) htrail
    (by rw [hposition, List.length_append, Nat.add_assoc])
    (valueMarks opValue _) (valueMarks eqValue _) opEq
  refine ⟨?_, sign.1, sign.2, ?_⟩
  · exact group_slot (slotTrail value _ v [] ++ signTrail op eq _ inclusive []) front
      (by simpa using text) htrail hposition
      ((valueMarks nameValue _).append (signMarks _))
  · exact group_slot [] (front ++ u ++ signText s inclusive) (by simpa using text) htrail
      (by simp [hposition, Nat.add_assoc]) (by simp [IsFresh])

end

/-! ### Verdicts -/

def SingleForm.verdict (settings : Settings) (f : SingleForm) : Verdict :=
  match Feature.named? f.name with
  | none => .unknownFeature f.name (Feature.suggested? f.name)
  | some feature =>
    if f.value.isEmpty then .missingValue
    else .rewritten (RangeExpression.query settings ⟨feature, f.comparison, f.inclusive, f.value⟩)

def DoubleForm.verdict (settings : Settings) (f : DoubleForm) : Verdict :=
  match Feature.named? f.name with
  | none => .unknownFeature f.name (Feature.suggested? f.name)
  | some feature =>
    if f.leftComparison ≠ f.rightComparison then .mixedDirections
    else if f.left.isEmpty || f.right.isEmpty then .missingValue
    else .rewritten (DoubleRange.query settings
      ⟨feature, f.leftComparison, f.leftInclusive, f.left, f.rightInclusive, f.right⟩)

theorem isEmpty_flag (inclusive : Bool) :
    (!(if inclusive then ['='] else []).isEmpty) = inclusive := by
  cases inclusive <;> rfl

theorem judgeSingle_eq (engine : Engine) (start : Nat) (cut : SignCut) :
    engine.judgeSingle ⟨start, (Fragment.group cut.text).text,
      cutTrail "feature" "op" "eq" "value" (start + 1) cut []⟩ =
        (SingleForm.ofCut cut).verdict engine.settings := by
  generalize hm : Match.mk start (Fragment.group cut.text).text _ = m
  obtain ⟨feature, op, eq, value⟩ := group_cut (m := m) ['('] (by rw [← hm]; rfl)
    (by rw [← hm]) (by rw [← hm]; rfl) (by decide)
  simp only [Engine.judgeSingle, feature, op, eq, value, isEmpty_flag, Comparison.ofText?_symbol,
    trim_of_isTrimmed (isTrimmed_trim _)]
  rfl

theorem judgeDouble_eq (engine : Engine) (start : Nat) {first second : SignCut}
    (h : first.after = second.text) :
    engine.judgeDouble ⟨start, (Fragment.group first.text).text, doubleTrail start first second⟩ =
      (DoubleForm.ofCuts first second).verdict engine.settings := by
  obtain ⟨u, s, inclusive, _⟩ := first
  obtain rfl := h
  generalize hm : Match.mk start _ _ = m
  have text : m.text = ['('] ++ (u ++ (signText s inclusive ++ (second.text ++ [')']))) := by
    rw [← hm]; simp [Fragment.text, SignCut.text]
  have hstart : m.start = start := by rw [← hm]
  let marks := cutTrail "feature" "right_op" "right_eq" "right"
    (start + 1 + u.length + (signText s inclusive).length) second []
  have fresh {group : String} (h : group = "left" ∨ group = "left_op" ∨ group = "left_eq") :
      IsFresh group marks := by
    rcases h with rfl | rfl | rfl <;> simp [IsFresh, marks, cutTrail, slotTrail, signTrail]
  have signs : m.trail = marks ++ signTrail "left_op" "left_eq" (start + 1 + u.length) inclusive
      (slotTrail "left" (start + 1) u []) := by
    rw [← hm]; rfl
  obtain ⟨feature, rightOp, rightEq, right⟩ := group_cut ('(' :: (u ++ signText s inclusive))
    (by simpa using text) signs (by simp [hstart]; omega) (by decide)
  obtain ⟨leftOp, leftEq⟩ := group_sign marks ('(' :: u) (by simpa using text) signs
    (by simp [hstart]; omega) (fresh (by simp)) (fresh (by simp)) (by decide)
  have left : m.group "left" = trim u :=
    group_slot (marks ++ signTrail "left_op" "left_eq" (start + 1 + u.length) inclusive []) ['(']
      text signs (by rw [hstart]; rfl)
      ((fresh (.inl rfl)).append (by simp [IsFresh, signTrail]))
  simp only [Engine.judgeDouble, feature, left, leftOp, leftEq, right, rightOp, rightEq,
    isEmpty_flag, Comparison.ofText?_symbol, trim_of_isTrimmed (isTrimmed_trim _)]
  simp only [DoubleForm.verdict, DoubleForm.ofCuts]
  cases Feature.named? (trim second.before) with
  | none => rfl
  | some f => cases s <;> rfl

/-! ### Groups with a form -/

theorem isParenFree_signText (s : Comparison) (inclusive : Bool) :
    IsParenFree (signText s inclusive) := by
  cases s <;> cases inclusive <;> simp [signText, IsParenFree, Comparison.symbol]

theorem isParenFree_single {cut : SignCut} (h : cut.IsSingle) : IsParenFree cut.text :=
  isParenFree_append (isParenFree_of_isSpellingChar (isSpellingChar_of_trim h.name.isSpellingChar))
    (isParenFree_append (isParenFree_signText _ _)
      (isParenFree_of_isSpellingChar (isSpellingChar_of_trim h.value.isSpellingChar)))

theorem isParenFree_double {first second : SignCut} (h : first.IsDouble second) :
    IsParenFree first.text :=
  isParenFree_append (isParenFree_of_isSpellingChar (isSpellingChar_of_trim h.left.isSpellingChar))
    (isParenFree_append (isParenFree_signText _ _) (h.after ▸ isParenFree_single h.isSingle))

def readSingle (settings : Settings) (inside : List Char) : Option Verdict :=
  (SingleForm.read? inside).map (SingleForm.verdict settings)

def readDouble (settings : Settings) (inside : List Char) : Option Verdict :=
  (DoubleForm.read? inside).map (DoubleForm.verdict settings)

theorem judges_single (engine : Engine) :
    Judges (singleOf (value none)) engine.judgeSingle (readSingle engine.settings) where
  free h := by
    obtain ⟨f, hf, -⟩ := Option.map_eq_some_iff.mp h
    obtain ⟨cut, rfl, hcut, -⟩ := SingleForm.read?_eq_some_iff.mp hf
    exact isParenFree_single hcut
  sound h := by
    obtain ⟨cut, r, hk, hcut, rfl⟩ := matchAt_single_iff.mp h
    refine ⟨cut.text, r, by rw [hk, group_text_append], rfl, ?_⟩
    rw [readSingle, SingleForm.read?_eq_some_iff.mpr ⟨cut, rfl, hcut, rfl⟩, judgeSingle_eq]
    rfl
  complete hk h hnone := by
    obtain ⟨f, hf, -⟩ := Option.map_eq_some_iff.mp h
    obtain ⟨cut, rfl, hcut, -⟩ := SingleForm.read?_eq_some_iff.mp hf
    rw [group_text_append] at hk
    have hit := matchAt_single_iff.mpr ⟨cut, _, hk, hcut, rfl⟩
    simp [hnone] at hit

theorem judges_double (engine : Engine) :
    Judges (doubleOf (value none)) engine.judgeDouble (readDouble engine.settings) where
  free h := by
    obtain ⟨f, hf, -⟩ := Option.map_eq_some_iff.mp h
    obtain ⟨first, second, rfl, hcut, -⟩ := DoubleForm.read?_eq_some_iff.mp hf
    exact isParenFree_double hcut
  sound h := by
    obtain ⟨first, second, r, hk, hcut, rfl⟩ := matchAt_double_iff.mp h
    refine ⟨first.text, r, by rw [hk, group_text_append], rfl, ?_⟩
    rw [readDouble, DoubleForm.read?_eq_some_iff.mpr ⟨first, second, rfl, hcut, rfl⟩,
      judgeDouble_eq _ _ hcut.after]
    rfl
  complete hk h hnone := by
    obtain ⟨f, hf, -⟩ := Option.map_eq_some_iff.mp h
    obtain ⟨first, second, rfl, hcut, -⟩ := DoubleForm.read?_eq_some_iff.mp hf
    rw [group_text_append] at hk
    have hit := matchAt_double_iff.mpr ⟨first, second, _, hk, hcut, rfl⟩
    simp [hnone] at hit

end MediaRange
