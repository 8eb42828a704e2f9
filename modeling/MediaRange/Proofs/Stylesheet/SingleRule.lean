import MediaRange.Proofs.Stylesheet.Brackets
import MediaRange.Proofs.Stylesheet.Requests
import MediaRange.Proofs.Stylesheet.Splice

/-!
# A stylesheet of one rule

Parameters in a stylesheet are rewritten as they are on their own. `process_ruleText` shows it for a
media rule with an empty block, whatever its parameters are, as long as nothing in them could start
a comment, a string or an escape or end the prelude.
-/

namespace MediaRange

open Unicode Scanner

/-! ### Plain parameters -/

/-- A character that neither starts a string or an escape nor ends a prelude. -/
def isPlain (c : Char) : Bool := !(['{', '}', ';', '"', '\'', '\\'].contains c)

theorem ne_of_isPlain {c d : Char} (hc : isPlain c = true) (hd : isPlain d = false) : c ≠ d := by
  rintro rfl
  rw [hc] at hd
  cases hd

theorem isCalm_of_isPlain {c : Char} (h : isPlain c = true) (notStar : c ≠ '*') :
    isCalm c = true := by
  simp [isCalm, notStar, ne_of_isPlain h (d := '"') (by decide),
    ne_of_isPlain h (d := '\'') (by decide), ne_of_isPlain h (d := '\\') (by decide),
    ne_of_isPlain h (d := '{') (by decide), ne_of_isPlain h (d := ';') (by decide),
    ne_of_isPlain h (d := '}') (by decide)]

theorem endsPrelude_of_isPlain {c : Char} (h : isPlain c = true) : endsPrelude c = false := by
  simp [endsPrelude, ne_of_isPlain h (d := '{') (by decide),
    ne_of_isPlain h (d := ';') (by decide), ne_of_isPlain h (d := '}') (by decide)]

/-- Parameters that are the whole prelude of their rule. -/
structure IsPlainParams (params : List Char) : Prop where
  ne_nil : params ≠ []
  trimmed : IsTrimmed params
  plain : ∀ c ∈ params, isPlain c = true
  uncommented : ¬"/*".toList <:+: params

namespace Lexing

theorem next_of_idle {lexing : Lexing} (idle : lexing.IsIdle) {c : Char} (h : isPlain c = true)
    (uncommented : lexing = slash → c ≠ '*') :
    (lexing.next c).IsIdle ∧ (lexing.next c = slash → c = '/') := by
  by_cases star : c = '*'
  · subst star
    rcases idle with rfl | rfl
    · exact ⟨.inl (by decide), fun opens => absurd opens (by decide)⟩
    · exact absurd rfl (uncommented rfl)
  · refine ⟨idle.next (isCalm_of_isPlain h star), fun opens => ?_⟩
    have ofFresh : lexing.next c = fresh c := by
      rcases idle with rfl | rfl
      · rfl
      · show (if c = '*' then comment false else fresh c) = _
        rw [if_neg star]
    rw [ofFresh, fresh] at opens
    split at opens
    · assumption
    · split at opens
      · cases opens
      · split at opens
        · cases opens
        · cases opens

/-- A plain text without the start of a comment goes on to the end of it. -/
theorem cutPrelude_plain {lexing : Lexing} (idle : lexing.IsIdle) {u : List Char}
    (hu : ∀ c ∈ u, isPlain c = true) (first : lexing = slash → u.head? ≠ some '*')
    (uncommented : ¬"/*".toList <:+: u) :
    (lexing.run u).IsIdle ∧ lexing.cutPrelude u = (u, []) := by
  induction u generalizing lexing with
  | nil => exact ⟨idle, rfl⟩
  | cons c u ih =>
    obtain ⟨hc, hu⟩ := List.forall_mem_cons.mp hu
    have notStar : lexing = slash → c ≠ '*' := fun opens star => first opens (by rw [star]; rfl)
    obtain ⟨idle, ofSlash⟩ := next_of_idle idle hc notStar
    have firstLater : lexing.next c = slash → u.head? ≠ some '*' := by
      rintro opens head
      obtain rfl := ofSlash opens
      obtain ⟨rest, rfl⟩ := List.head?_eq_some_iff.mp head
      exact uncommented ⟨[], rest, rfl⟩
    have later : ¬"/*".toList <:+: u := fun inside =>
      uncommented (inside.trans (List.suffix_cons c u).isInfix)
    obtain ⟨idle, cut⟩ := ih idle hu firstLater later
    have goesOn : ¬(lexing.isBare c && endsPrelude c) = true := by
      simp [endsPrelude_of_isPlain hc]
    exact ⟨idle, by rw [cutPrelude_goesOn u goesOn, cut]⟩

end Lexing

/-! ### The pieces of the rule -/

theorem isNameCharacter_of_isMediaRule {name : List Char} (media : isMediaRule name = true) :
    ∀ c ∈ name, isNameCharacter c = true := by
  intro c hc
  obtain ⟨n, hn, same⟩ := List.any_eq_true.mp media
  have lower : c.toLower ∈ n.toList := by
    rw [← of_decide_eq_true same]
    exact List.mem_map_of_mem hc
  have known : ∀ n ∈ mediaRuleNames, n.toList.all isNameCharacter = true := by decide
  have isName := List.all_eq_true.mp (known n hn) _ lower
  by_cases upper : c.isUpper = true
  · show (c.isUpper || c.isLower || c.isDigit || c = '-' || c = '_') = true
    rw [upper]
    rfl
  · have same : c.toLower = c := dif_neg fun range => upper (decide_eq_true range)
    rwa [same] at isName

/-- A media rule with an empty block. -/
def ruleText (name params : List Char) : List Char :=
  '@' :: (name ++ ' ' :: (params ++ [' ', '{', '}']))

theorem pieces_ruleText {name params : List Char} (media : isMediaRule name = true)
    (h : IsPlainParams params) :
    pieces {} (ruleText name params) = ('@' :: name).map .verbatim ++
      .prelude name (' ' :: (params ++ [' '])) :: ['{', '}'].map .verbatim := by
  have start : Lexing.plain.IsIdle := .inl rfl
  obtain ⟨idle, cut⟩ := Lexing.cutPrelude_plain start h.plain
    (fun opens => absurd opens (by decide)) h.uncommented
  -- After the parameters the scanner is idle, so the blank and the brace are what they seem.
  have blank : (Lexing.plain.run params).cutPrelude [' ', '{', '}'] = ([' '], ['{', '}']) := by
    rcases idle with idle | idle <;> rw [idle] <;> decide
  have whole : Lexing.plain.cutPrelude (' ' :: (params ++ [' ', '{', '}'])) =
      (' ' :: (params ++ [' ']), ['{', '}']) := by
    have goesOn : ¬(Lexing.plain.isBare ' ' && endsPrelude ' ') = true := by decide
    have opened : Lexing.plain.next ' ' = .plain := by decide
    rw [Lexing.cutPrelude_goesOn _ goesOn, opened, Lexing.cutPrelude_append_iff.mpr ⟨cut, blank⟩]
  have closed : Lexing.plain.run (' ' :: (params ++ [' '])) = .plain := by
    have opened : Lexing.plain.run (' ' :: (params ++ [' '])) =
        (Lexing.plain.run params).next ' ' := by
      show Lexing.plain.run (params ++ [' ']) = _
      rw [Lexing.run_append]
      rfl
    rw [opened]
    rcases idle with idle | idle <;> rw [idle] <;> decide
  have bare : Lexing.plain.isBare '@' = true := rfl
  rw [ruleText, pieces_rule bare rfl (isNameCharacter_of_isMediaRule media) media
    (by decide) whole none, closed]
  rfl

namespace Stylesheet

/-- What a rule is changed to, if its parameters are rewritten. -/
def ruleChanges (name params : List Char) : Outcome → List RuleChange
  | .rewritten after rewrites => [⟨1, name, params, after, rewrites⟩]
  | _ => []

theorem processPiece_spaced (engine : Engine) {name params : List Char}
    (media : isMediaRule name = true) (ne_nil : params ≠ []) (trimmed : IsTrimmed params) :
    let outcome := (engine.rewriteParams params).value
    (processPiece engine 1 (.prelude name (' ' :: (params ++ [' '])))).value =
      ⟨' ' :: (outcome.paramsOr params ++ [' ']), ruleChanges name params outcome⟩ := by
  intro outcome
  have blank : IsBlankText [' '] := List.forall_mem_singleton.mpr (by decide)
  have whole : trim (' ' :: (params ++ [' '])) = params := trim_padded blank trimmed blank
  have head : ∀ c ∈ (params ++ [' ']).head?, isBlank c = false := by
    cases params with
    | nil => exact absurd rfl ne_nil
    | cons c params => exact trimmed.first
  have left : trimLeft (' ' :: (params ++ [' '])) = params ++ [' '] := trimLeft_append blank head
  have right : trimRight (params ++ [' ']) = params := trimRight_append blank trimmed.last
  have leading : leadingBlanks (' ' :: (params ++ [' '])) = [' '] := by
    have parts := leadingBlanks_append_trimLeft (' ' :: (params ++ [' ']))
    rw [left] at parts
    exact List.append_cancel_right (show _ = [' '] ++ (params ++ [' ']) from parts)
  have trailing : trailingBlanks (params ++ [' ']) = [' '] := by
    have parts := trimRight_append_trailingBlanks (params ++ [' '])
    rw [right] at parts
    exact List.append_cancel_left parts
  have filled : ¬params.isEmpty = true := by simpa using ne_nil
  simp only [processPiece, whole, if_neg filled, Engine.rewriteRule, media, if_true, left, leading,
    trailing]
  cases result : (engine.rewriteParams params).value <;>
    simp [outcome, result, Outcome.paramsOr, ruleChanges]

/-- A media rule is rewritten as its parameters are on their own, and its change is recorded exactly
if they are. -/
theorem process_ruleText (engine : Engine) {name params : List Char}
    (media : isMediaRule name = true) (h : IsPlainParams params) :
    let outcome := (engine.rewriteParams params).value
    (process engine (ruleText name params)).value =
      ⟨ruleText name (outcome.paramsOr params), ruleChanges name params outcome⟩ := by
  intro outcome
  have oneLine : newlines ('@' :: name) = 0 := by
    refine newlines_eq_zero (List.not_mem_cons_of_ne_of_not_mem (by decide) fun inName => ?_)
    have isName := isNameCharacter_of_isMediaRule media '\n' inName
    revert isName
    decide
  have closing (line : Nat) : (processPieces engine line (['{', '}'].map .verbatim)).value =
      ⟨['{', '}'], []⟩ := processPieces_verbatim engine line ['{', '}'] []
  rw [process, pieces_ruleText media h, processPieces_verbatim, oneLine, processPieces]
  simp only [processPiece_spaced engine media h.ne_nil h.trimmed, closing]
  simp [ruleText, outcome]

/-- Parameters with slashes, stars, the sign of a rule, a line end and blanks of other scripts. -/
theorem process_ruleText_awkward :
    let name := "Custom-MEDIA".toList
    let params := "*/ é@import(width\u00a0>\n1px)/ *".toList
    let after := "*/ é@import(min-width: 2px)/ *".toList
    (isMediaRule name = true ∧ IsPlainParams params) ∧
      (process (plainEngine false) (ruleText name params)).value =
        ⟨ruleText name after, [⟨1, name, params, after,
          [⟨"(width\u00a0>\n1px)".toList, "(min-width: 2px)".toList⟩]⟩]⟩ := by
  intro name params after
  have plain : IsPlainParams params :=
    ⟨by decide, ⟨fun _ head => Option.some.inj head ▸ rfl, fun _ last => Option.some.inj last ▸ rfl⟩,
      List.all_eq_true.mp (by decide), by decide +kernel⟩
  have rewritten : ((plainEngine false).rewriteParams params).value = .rewritten after
      [⟨"(width\u00a0>\n1px)".toList, "(min-width: 2px)".toList⟩] := by
    decide +kernel
  have media : isMediaRule name = true := by decide
  have changed := process_ruleText (plainEngine false) media plain
  rw [rewritten] at changed
  exact ⟨⟨media, plain⟩, changed⟩

end Stylesheet

end MediaRange
