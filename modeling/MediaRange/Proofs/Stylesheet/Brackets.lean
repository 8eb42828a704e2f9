import MediaRange.Proofs.Rewriting.Groups
import MediaRange.Proofs.Stylesheet.Scanning

/-!
# Ranges under the scanner

A range and its queries are texts in parentheses without any character that could start or end a
comment, a string or a prelude. `run_brackets` tells where the scanner is after such a text: only the
end of a line in it matters, and only inside a string.
-/

namespace MediaRange

/-- A character that neither starts nor ends a comment, a string, an escape or a prelude. -/
def isCalm (c : Char) : Bool := !(['"', '\'', '\\', '*', '{', ';', '}'].contains c)

theorem ne_of_isCalm {c d : Char} (hc : isCalm c = true) (hd : isCalm d = false) : c ≠ d := by
  rintro rfl
  rw [hc] at hd
  cases hd

theorem endsPrelude_of_isCalm {c : Char} (h : isCalm c = true) : Scanner.endsPrelude c = false := by
  simp [Scanner.endsPrelude, ne_of_isCalm h (d := '{') (by decide),
    ne_of_isCalm h (d := ';') (by decide), ne_of_isCalm h (d := '}') (by decide)]

theorem isCalm_append {u v : List Char} (hu : ∀ c ∈ u, isCalm c = true)
    (hv : ∀ c ∈ v, isCalm c = true) : ∀ c ∈ u ++ v, isCalm c = true :=
  fun c hc => (List.mem_append.mp hc).elim (hu c) (hv c)

/-! ### The scanner on calm texts -/

namespace Lexing

/-- Outside of comments, strings and escapes. -/
def IsIdle (lexing : Lexing) : Prop := lexing = plain ∨ lexing = slash

/-- A string starts with a quotation mark. -/
def IsRegular : Lexing → Prop
  | quoted quote | quotedEscape quote => quote = '"' ∨ quote = '\''
  | _ => True

theorem isRegular_fresh (c : Char) : (fresh c).IsRegular := by
  unfold fresh
  split
  · trivial
  · split
    · rename_i isQuote
      show c = '"' ∨ c = '\''
      simpa using isQuote
    · split
      · trivial
      · trivial

theorem isRegular_next {lexing : Lexing} (h : lexing.IsRegular) (c : Char) :
    (lexing.next c).IsRegular := by
  cases lexing with
  | plain => exact isRegular_fresh c
  | slash =>
    show (if c = '*' then comment false else fresh c).IsRegular
    split
    · trivial
    · exact isRegular_fresh c
  | comment starred =>
    show (if starred && c = '/' then plain else comment (c = '*')).IsRegular
    split
    · trivial
    · trivial
  | quoted quote =>
    show (if c = '\\' then quotedEscape quote
      else if c = quote || c = '\n' then plain else quoted quote).IsRegular
    split
    · exact h
    · split
      · trivial
      · exact h
  | quotedEscape quote => exact h
  | escape => trivial

theorem isRegular_run {lexing : Lexing} (h : lexing.IsRegular) (text : List Char) :
    (lexing.run text).IsRegular := by
  induction text generalizing lexing with
  | nil => exact h
  | cons c text ih => exact ih (isRegular_next h c)

theorem isIdle_fresh {c : Char} (h : isCalm c = true) : (fresh c).IsIdle := by
  unfold fresh
  split
  · exact .inr rfl
  · simp [ne_of_isCalm h (d := '"') (by decide), ne_of_isCalm h (d := '\'') (by decide),
      ne_of_isCalm h (d := '\\') (by decide), IsIdle]

theorem IsIdle.next {lexing : Lexing} (hl : lexing.IsIdle) {c : Char} (h : isCalm c = true) :
    (lexing.next c).IsIdle := by
  rcases hl with rfl | rfl
  · exact isIdle_fresh h
  · have notStar : c ≠ '*' := ne_of_isCalm h (by decide)
    show (if c = '*' then comment false else fresh c).IsIdle
    rw [if_neg notStar]
    exact isIdle_fresh h

theorem IsIdle.run {lexing : Lexing} (hl : lexing.IsIdle) {u : List Char}
    (hu : ∀ c ∈ u, isCalm c = true) : (lexing.run u).IsIdle := by
  induction u generalizing lexing with
  | nil => exact hl
  | cons c u ih =>
    obtain ⟨hc, hu⟩ := List.forall_mem_cons.mp hu
    exact ih (hl.next hc) hu

theorem IsIdle.next_close {lexing : Lexing} (hl : lexing.IsIdle) : lexing.next ')' = plain := by
  rcases hl with rfl | rfl <;> decide

theorem run_comment {u : List Char} (hu : ∀ c ∈ u, isCalm c = true) :
    (comment false).run u = comment false := by
  induction u with
  | nil => rfl
  | cons c u ih =>
    obtain ⟨hc, hu⟩ := List.forall_mem_cons.mp hu
    have notStar : c ≠ '*' := ne_of_isCalm hc (by decide)
    have stays : (comment false).next c = comment false := by simp [next, notStar]
    show ((comment false).next c).run u = _
    rw [stays, ih hu]

/-- A calm text leaves a string at the end of a line only. -/
theorem run_quoted {quote : Char} (hquote : (quoted quote).IsRegular) {u : List Char}
    (hu : ∀ c ∈ u, isCalm c = true) :
    if '\n' ∈ u then ((quoted quote).run u).IsIdle else (quoted quote).run u = quoted quote := by
  induction u with
  | nil => rfl
  | cons c u ih =>
    obtain ⟨hc, hrest⟩ := List.forall_mem_cons.mp hu
    have notBackslash : c ≠ '\\' := ne_of_isCalm hc (by decide)
    have notQuote : c ≠ quote := by
      rcases hquote with rfl | rfl
      · exact ne_of_isCalm hc (by decide)
      · exact ne_of_isCalm hc (by decide)
    by_cases newline : c = '\n'
    · subst newline
      have ended : (quoted quote).next '\n' = plain := by simp [next]
      rw [if_pos List.mem_cons_self]
      show (((quoted quote).next '\n').run u).IsIdle
      rw [ended]
      exact IsIdle.run (.inl rfl) hrest
    · have stays : (quoted quote).next c = quoted quote := by
        simp [next, notBackslash, notQuote, newline]
      have later : '\n' ∈ c :: u ↔ '\n' ∈ u := by
        simp [Ne.symm newline]
      show if '\n' ∈ c :: u then (((quoted quote).next c).run u).IsIdle
        else ((quoted quote).next c).run u = quoted quote
      rw [stays]
      simpa only [later] using ih hrest

/-- Where the scanner is after a calm text in parentheses. -/
def afterBrackets (lineEnd : Bool) : Lexing → Lexing
  | plain | slash | escape => plain
  | comment _ => comment false
  | quoted quote | quotedEscape quote => if lineEnd then plain else quoted quote

theorem run_brackets {lexing : Lexing} (h : lexing.IsRegular) {u : List Char}
    (hu : ∀ c ∈ u, isCalm c = true) :
    lexing.run ('(' :: (u ++ [')'])) = lexing.afterBrackets (decide ('\n' ∈ u)) := by
  have split : lexing.run ('(' :: (u ++ [')'])) = ((lexing.next '(').run u).next ')' := by
    show (lexing.next '(').run (u ++ [')']) = _
    rw [run_append]
    rfl
  have idle (opened : lexing.next '(' = plain) : ((lexing.next '(').run u).next ')' = plain := by
    rw [opened]
    exact (IsIdle.run (.inl rfl) hu).next_close
  have inString {quote : Char} (hquote : (quoted quote).IsRegular)
      (opened : lexing.next '(' = quoted quote) :
      ((lexing.next '(').run u).next ')' = if '\n' ∈ u then plain else quoted quote := by
    have inside := run_quoted hquote hu
    rw [opened]
    by_cases newline : '\n' ∈ u
    · rw [if_pos newline] at inside ⊢
      exact inside.next_close
    · rw [if_neg newline] at inside ⊢
      rw [inside]
      rcases hquote with rfl | rfl <;> decide
  rw [split]
  cases lexing with
  | plain => exact idle (by decide)
  | slash => exact idle (by decide)
  | escape => exact idle rfl
  | comment starred =>
    have opened : (comment starred).next '(' = comment false := by simp [next]
    rw [opened, run_comment hu]
    rfl
  | quoted quote =>
    have opened : (quoted quote).next '(' = quoted quote := by
      rcases h with rfl | rfl <;> decide
    simpa [afterBrackets] using inString h opened
  | quotedEscape quote => simpa [afterBrackets] using inString h rfl

theorem cutPrelude_calm (lexing : Lexing) {u : List Char} (hu : ∀ c ∈ u, isCalm c = true) :
    lexing.cutPrelude u = (u, []) := by
  induction u generalizing lexing with
  | nil => rfl
  | cons c u ih =>
    obtain ⟨hc, hu⟩ := List.forall_mem_cons.mp hu
    have goesOn : ¬(lexing.isBare c && Scanner.endsPrelude c) = true := by
      simp [endsPrelude_of_isCalm hc]
    rw [cutPrelude_goesOn u goesOn, ih _ hu]

end Lexing

theorem isCalm_brackets {u : List Char} (hu : ∀ c ∈ u, isCalm c = true) :
    ∀ c ∈ '(' :: (u ++ [')']), isCalm c = true :=
  List.forall_mem_cons.mpr
    ⟨by decide, isCalm_append hu (List.forall_mem_singleton.mpr (by decide))⟩

/-! ### Ranges and queries are calm -/

theorem IsPadded.mem {text token : List Char} (h : IsPadded text token) {c : Char}
    (hc : c ∈ token) : c ∈ text := by
  obtain ⟨blanks, others, -, -, rfl⟩ := h
  exact List.mem_append_right _ (List.mem_append_left _ hc)

theorem isCalm_of_isRangeChar {c : Char} (h : isRangeChar c = true) : isCalm c = true := by
  have ne {d : Char} (hd : isRangeChar d = false) : c ≠ d := ne_of_isRangeChar h hd
  simp [isCalm, ne (d := '"') (by decide), ne (d := '\'') (by decide), ne (d := '\\') (by decide),
    ne (d := '*') (by decide), ne (d := '{') (by decide), ne (d := ';') (by decide),
    ne (d := '}') (by decide)]

theorem isCalm_of_isSpellingChar {c : Char} (h : isSpellingChar c = true) : isCalm c = true :=
  isCalm_of_isRangeChar (by simp [isRangeChar, h])

theorem Spells.isCalm {inside : List Char} {r : Reading} (h : Spells inside r) :
    ∀ c ∈ inside, isCalm c = true :=
  fun c hc => isCalm_of_isRangeChar (h.isRangeChar c hc)

section

variable {useCalc : Bool}

theorem isCalm_queryInside {e : RangeExpression} (h : IsValueToken e.value) :
    ∀ c ∈ e.queryInside ⟨none, useCalc⟩, isCalm c = true := by
  intro c hc
  rcases mem_queryInside h hc with spelling | rfl
  · exact isCalm_of_isSpellingChar spelling
  · decide

/-- A query is a calm text in parentheses. That of a double range starts with one query and ends
with the other. -/
theorem Reading.query_eq_brackets (useCalc : Bool) {r : Reading} (h : r.HasTokens) :
    ∃ u, r.query ⟨none, useCalc⟩ = '(' :: (u ++ [')']) ∧ ∀ c ∈ u, isCalm c = true := by
  cases r with
  | single e => exact ⟨_, query_eq _ e, isCalm_queryInside h⟩
  | double d =>
    refine ⟨d.lower.queryInside ⟨none, useCalc⟩ ++
      (") and (".toList ++ d.upper.queryInside ⟨none, useCalc⟩), ?_, ?_⟩
    · simp [query, DoubleRange.query, query_eq, Fragment.text]
    · exact isCalm_append (isCalm_queryInside h.1) (isCalm_append
        (List.all_eq_true.mp (by decide)) (isCalm_queryInside h.2))

theorem newline_mem_value {e : RangeExpression} (h : '\n' ∈ e.query ⟨none, useCalc⟩) :
    '\n' ∈ e.value := by
  have bound : '\n' ∉ e.comparison.bound.toList := by cases e.comparison <;> decide
  have name : '\n' ∉ e.feature.name.toList := by cases e.feature <;> decide
  have inBound : '\n' ∈ e.numericBound := by
    simpa [RangeExpression.query, RangeExpression.boundValue, bound, name] using h
  rcases mem_numericBound _ inBound with own | value
  · have notOwn : isBoundChar '\n' = false := by decide
    rw [notOwn] at own
    cases own
  · exact value

theorem newline_mem_values {d : DoubleRange} (h : '\n' ∈ d.query ⟨none, useCalc⟩) :
    '\n' ∈ d.left ∨ '\n' ∈ d.right := by
  have either : '\n' ∈ d.lower.value ∨ '\n' ∈ d.upper.value := by
    rcases List.mem_append.mp h with h | upper
    · rcases List.mem_append.mp h with lower | connective
      · exact .inl (newline_mem_value lower)
      · have none : '\n' ∉ " and ".toList := by decide
        exact absurd connective none
    · exact .inr (newline_mem_value upper)
  obtain ⟨feature, comparison, leftInclusive, left, rightInclusive, right⟩ := d
  cases comparison with
  | less => exact either
  | greater => exact either.symm

theorem Spells.newline_mem {inside : List Char} {r : Reading} (h : Spells inside r)
    (hquery : '\n' ∈ r.query ⟨none, useCalc⟩) : '\n' ∈ inside := by
  cases h with
  | single hname hvalue token =>
    have ofValue := hvalue.mem (newline_mem_value hquery)
    exact List.mem_append_right _ (List.mem_append_right _ ofValue)
  | double hleft leftToken hname hright rightToken =>
    rcases newline_mem_values hquery with ofLeft | ofRight
    · exact List.mem_append_left _ (hleft.mem ofLeft)
    · simp [hright.mem ofRight]

end

end MediaRange
