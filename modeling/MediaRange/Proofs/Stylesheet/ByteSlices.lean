import MediaRange.Proofs.Rewriting.Shrinking
import MediaRange.Proofs.Stylesheet.ByteScan
import MediaRange.Proofs.Stylesheet.RuleBytes
import MediaRange.Proofs.Stylesheet.Splice

/-!
# Slices between characters

The scan of the bytes slices a stylesheet at names, preludes and what it has copied so far. These end
where characters end, so `rewritePrelude_isAt` has a result, which is that of the piece.
-/

namespace MediaRange.ByteScan

open StyleToken Stylesheet Scanner Unicode

/-! ### Slices between characters -/

theorem cutAt_utf8 (u v : List Char) : cutAt (u ++ v) (utf8 u).length = .ok (u, v) := by
  induction u with
  | nil => cases v <;> rfl
  | cons c u ih =>
    have size : (utf8 (c :: u)).length = c.utf8Size + (utf8 u).length := by
      rw [utf8_cons rfl, List.length_append, String.length_utf8EncodeChar]
    obtain ⟨n, hn⟩ : ∃ n, c.utf8Size + (utf8 u).length = n + 1 :=
      Nat.exists_eq_succ_of_ne_zero (by have := c.utf8Size_pos; omega)
    rw [size, hn, List.cons_append, cutAt, ← hn, if_pos (Nat.le_add_right _ _),
      Nat.add_sub_cancel_left, ih]
    · rfl
    · exact fun h => by cases h

theorem length_utf8_append (u v : List Char) :
    (utf8 (u ++ v)).length = (utf8 u).length + (utf8 v).length := by
  rw [utf8_append, List.length_append]

theorem drop_utf8 {css u v : List Char} (split : css = u ++ v) :
    (utf8 css).drop (utf8 u).length = utf8 v := by
  rw [split, utf8_append, List.drop_left]

section

variable {css u v w : List Char} (split : css = u ++ (v ++ w))
include split

theorem between_le : (utf8 u).length ≤ (utf8 u).length + (utf8 v).length ∧
    (utf8 u).length + (utf8 v).length ≤ (utf8 css).length := by
  rw [split, length_utf8_append, length_utf8_append]
  omega

theorem bytesBetween_utf8 :
    bytesBetween (utf8 css) (utf8 u).length ((utf8 u).length + (utf8 v).length) =
      .ok (utf8 v) := by
  rw [bytesBetween, if_pos (between_le split), split, utf8_append, utf8_append, ← List.append_assoc,
    ← List.length_append, List.take_left, List.drop_left]

theorem textBetween_utf8 :
    textBetween css (utf8 u).length ((utf8 u).length + (utf8 v).length) = .ok v := by
  rw [textBetween, if_pos (between_le split), split, cutAt_utf8, ok_bind]
  show (cutAt (v ++ w) _ >>= _) = _
  rw [Nat.add_sub_cancel_left, cutAt_utf8]
  rfl

end

-- The second byte of a character is no place to cut.
example : textBetween ['é'] 0 1 = .error (.boundary 1) := by rfl

theorem countP_utf8 (text : List Char) :
    (utf8 text).countP (·.toNat = '\n'.toNat) = newlines text := by
  induction text with
  | nil => rfl
  | cons c text ih =>
    rw [utf8_cons rfl, List.countP_append, ih, newlines, newlines, List.count_cons]
    by_cases newline : c = '\n'
    · subst newline
      rw [Nat.add_comm]
      rfl
    · have noByte := toNat_ne_of_mem (n := '\n'.toNat) (by decide) (mt Char.toNat_inj.mp newline)
      rw [List.countP_eq_zero.mpr (by simpa using noByte), if_neg (by simpa using newline),
        Nat.zero_add, Nat.add_zero]

/-! ### Names and starts of rules -/

theorem takeWhile_utf8 (text : List Char) :
    (utf8 text).takeWhile (isNameCode ·.toNat) = utf8 (text.takeWhile isNameCharacter) := by
  refine takeWhile_flatMap ?_ ?_
  · intro c _ isName b hb
    rw [← isNameCode_toNat] at isName
    obtain ⟨b', split, same⟩ := utf8EncodeChar_ascii (lt_of_isNameCode isName)
    rw [split, List.mem_singleton] at hb
    rw [hb, same, isName]
  · intro c _ notName
    obtain ⟨b, bs, split, alike, -⟩ := exists_utf8EncodeChar c
    rw [← isNameCode_toNat] at notName
    exact ⟨b, bs, split, by rw [eq_of_isAlike (fun _ => lt_of_isNameCode) alike, notName]⟩

theorem nameEnd_utf8 {bytes : List UInt8} {start : Nat} {text : List Char}
    (h : bytes.drop start = utf8 text) (inside : start ≤ bytes.length) :
    nameEnd bytes start =
      .ok (start + (utf8 (text.takeWhile isNameCharacter)).length) := by
  rw [nameEnd, bytesFrom_of_le inside, h, ← takeWhile_utf8]
  rfl

theorem startsRule_append (u v : List UInt8) :
    startsRule (u ++ v) u.length = .ok (u.getLast?.all (opensRuleCode ∘ UInt8.toNat)) := by
  rcases List.eq_nil_or_concat u with rfl | ⟨u, b, rfl⟩
  · rfl
  · have last : (u ++ [b] ++ v).drop u.length = b :: v := by
      rw [List.append_assoc, List.drop_left]
      rfl
    rw [List.concat_eq_append, List.length_append, List.length_singleton, startsRule,
      byteAt_of_drop last, List.getLast?_concat]
    rfl

theorem startsRule_utf8 (front : List Char) (v : List UInt8) :
    startsRule (utf8 front ++ v) (utf8 front).length = .ok (opensRule front.getLast?) := by
  rw [startsRule_append, opensRuleCode_utf8, opensRuleCode_toNat]

/-! ### Preludes -/

/-- The stylesheet is copied but for what is kept at the end of its front, and lines were counted up
to somewhere in the front. -/
structure Run.IsAt (run : Run) (front kept : List Char) : Prop where
  copied : ∃ done, front = done ++ kept ∧ run.copied = (utf8 done).length
  lines : ∃ seen later, front = seen ++ later ∧ run.lines = ⟨(utf8 seen).length, newlines seen⟩

section

variable {run : Run} {front kept : List Char}

theorem Run.IsAt.append (h : run.IsAt front kept) (u : List Char) :
    run.IsAt (front ++ u) (kept ++ u) := by
  obtain ⟨⟨done, split, copied⟩, seen, later, counted, lines⟩ := h
  exact ⟨⟨done, by rw [split, List.append_assoc], copied⟩,
    ⟨seen, later ++ u, by rw [counted, List.append_assoc], lines⟩⟩

theorem lineAt_of_isAt (h : run.IsAt front kept) (rest : List Char) :
    run.lines.lineAt (utf8 (front ++ rest)) (utf8 front).length =
      .ok (newlines front + 1, ⟨(utf8 front).length, newlines front⟩) := by
  obtain ⟨-, seen, later, split, lines⟩ := h
  have parts : front ++ rest = seen ++ (later ++ rest) := by rw [split, List.append_assoc]
  have passed := bytesBetween_utf8 parts
  rw [← length_utf8_append, ← split] at passed
  rw [lines, LineCounter.lineAt, passed, ok_bind, countP_utf8, ← newlines_append, ← split]
  rfl

/-- What is kept and what comes after it can be copied at once. -/
theorem textBetween_of_isAt (h : run.IsAt front kept) (u rest : List Char) :
    textBetween (front ++ (u ++ rest)) run.copied ((utf8 front).length + (utf8 u).length) =
      .ok (kept ++ u) := by
  obtain ⟨⟨done, split, copied⟩, -⟩ := h
  have parts : front ++ (u ++ rest) = done ++ ((kept ++ u) ++ rest) := by simp [split]
  have slice := textBetween_utf8 parts
  rwa [length_utf8_append, ← Nat.add_assoc, ← length_utf8_append, ← split, ← copied] at slice

theorem difference_trimLeft (raw : List Char) :
    difference (utf8 raw).length (utf8 (trimLeft raw)).length =
      .ok (utf8 (leadingBlanks raw)).length := by
  have whole : (utf8 raw).length =
      (utf8 (leadingBlanks raw)).length + (utf8 (trimLeft raw)).length := by
    rw [← length_utf8_append, leadingBlanks_append_trimLeft]
  rw [difference, whole, if_pos (Nat.le_add_left _ _), Nat.add_sub_cancel]

theorem rewrites_ne_nil {engine : Engine} {rule : Rule} {after : List Char}
    {rewrites : List Rewrite} (h : (engine.rewriteRule rule).value = .rewritten after rewrites) :
    rewrites ≠ [] := by
  rw [Engine.rewriteRule] at h
  split at h
  · exact (Engine.passes_of_rewritten h).2.2
  · cases h

/-- A rewritten prelude is put after all that is kept and the blanks before it. -/
theorem rewritePrelude_rewritten {engine : Engine} (h : run.IsAt front kept) {name raw : List Char}
    (notBlank : ¬(trim raw).isEmpty = true) {after : List Char} {rewrites : List Rewrite}
    (outcome : (engine.rewriteRule ⟨name, trim raw⟩).value = .rewritten after rewrites)
    (rest : List Char) :
    let lead := front ++ '@' :: name
    rewritePrelude engine (lead ++ (raw ++ rest)) (utf8 front).length (utf8 lead).length
        ((utf8 lead).length + (utf8 raw).length) name run =
      .ok ⟨run.out ++ (kept ++ '@' :: name ++ leadingBlanks raw) ++ after,
        run.changes ++ [⟨newlines front + 1, name, trim raw, after, rewrites⟩],
        (utf8 lead).length + (utf8 (leadingBlanks raw)).length + (utf8 (trim raw)).length,
        ⟨(utf8 front).length, newlines front⟩⟩ := by
  intro lead
  have text : textBetween (lead ++ (raw ++ rest)) (utf8 lead).length
      ((utf8 lead).length + (utf8 raw).length) = .ok raw := textBetween_utf8 rfl
  have nonempty : ¬(Outcome.rewritten after rewrites).rewrites.isEmpty = true := by
    simpa [Outcome.rewrites] using rewrites_ne_nil outcome
  have slice := textBetween_of_isAt (h.append ('@' :: name)) (leadingBlanks raw)
    (trim raw ++ (trailingBlanks (trimLeft raw) ++ rest))
  have whole : front ++ '@' :: name ++ (leadingBlanks raw ++
      (trim raw ++ (trailingBlanks (trimLeft raw) ++ rest))) = lead ++ (raw ++ rest) := by
    rw [← List.append_assoc (trim raw), ← List.append_assoc (leadingBlanks raw),
      leading_append_trim_append_trailing]
  have line := lineAt_of_isAt h ('@' :: name ++ (raw ++ rest))
  rw [← List.append_assoc] at line
  rw [whole] at slice
  rw [rewritePrelude, text, ok_bind]
  dsimp only
  rw [if_neg notBlank, difference_trimLeft, ok_bind, outcome, if_neg nonempty, slice, ok_bind, line,
    ok_bind]
  rfl

/-- Any other prelude is left to be copied. -/
theorem rewritePrelude_left {engine : Engine} {css name raw : List Char} {start first last : Nat}
    (text : textBetween css first last = .ok raw)
    (nothing : (trim raw).isEmpty = true ∨
      (engine.rewriteRule ⟨name, trim raw⟩).value.rewrites.isEmpty = true) :
    rewritePrelude engine css start first last name run = .ok run := by
  rw [rewritePrelude, text, ok_bind]
  dsimp only
  rw [difference_trimLeft, ok_bind]
  rcases nothing with blank | noRewrites
  · exact if_pos blank
  · rw [if_pos noRewrites, ite_self]
    rfl

/-- A prelude is rewritten in place, and it leaves the blanks at its end to be copied. -/
theorem rewritePrelude_isAt (engine : Engine) (h : run.IsAt front kept) (name raw rest : List Char) :
    let lead := front ++ '@' :: name
    let here := (processPiece engine (newlines front + 1) (.prelude name raw)).value
    ∃ run' kept', rewritePrelude engine (lead ++ (raw ++ rest)) (utf8 front).length
        (utf8 lead).length ((utf8 lead).length + (utf8 raw).length) name run = .ok run' ∧
      run'.IsAt (lead ++ raw) kept' ∧
      run'.out ++ kept' = run.out ++ (kept ++ ('@' :: name ++ here.css)) ∧
      run'.changes = run.changes ++ here.changes := by
  intro lead here
  have text : textBetween (lead ++ (raw ++ rest)) (utf8 lead).length
      ((utf8 lead).length + (utf8 raw).length) = .ok raw := textBetween_utf8 rfl
  have same (nothing : here = ⟨raw, []⟩) :
      run.IsAt (lead ++ raw) (kept ++ ('@' :: name ++ raw)) ∧
        run.out ++ (kept ++ ('@' :: name ++ raw)) =
          run.out ++ (kept ++ ('@' :: name ++ here.css)) ∧
        run.changes = run.changes ++ here.changes := by
    have later := h.append ('@' :: name ++ raw)
    rw [← List.append_assoc front] at later
    rw [nothing]
    exact ⟨later, rfl, (List.append_nil _).symm⟩
  by_cases blank : (trim raw).isEmpty = true
  · have nothing : here = ⟨raw, []⟩ := by simp only [here, processPiece, if_pos blank]
    exact ⟨run, _, rewritePrelude_left text (.inl blank), same nothing⟩
  cases outcome : (engine.rewriteRule ⟨name, trim raw⟩).value with
  | skipped | unchanged =>
    have nothing : here = ⟨raw, []⟩ := by
      simp only [here, processPiece, if_neg blank, outcome]
    have noRewrites : (engine.rewriteRule ⟨name, trim raw⟩).value.rewrites.isEmpty = true := by
      rw [outcome]
      rfl
    exact ⟨run, _, rewritePrelude_left text (.inr noRewrites), same nothing⟩
  | rewritten after rewrites =>
    have changed : here = ⟨leadingBlanks raw ++ after ++ trailingBlanks (trimLeft raw),
        [⟨newlines front + 1, name, trim raw, after, rewrites⟩]⟩ := by
      simp only [here, processPiece, if_neg blank, outcome]
    have parts := leading_append_trim_append_trailing raw
    refine ⟨_, trailingBlanks (trimLeft raw), rewritePrelude_rewritten h blank outcome rest,
      ⟨⟨lead ++ (leadingBlanks raw ++ trim raw), ?_, ?_⟩, front, '@' :: name ++ raw, ?_, rfl⟩, ?_, ?_⟩
    · rw [List.append_assoc lead, List.append_assoc (leadingBlanks raw), parts]
    · rw [length_utf8_append lead, length_utf8_append (leadingBlanks raw), ← Nat.add_assoc]
    · exact List.append_assoc _ _ _
    · simp [changed]
    · rw [changed]

end

end MediaRange.ByteScan
