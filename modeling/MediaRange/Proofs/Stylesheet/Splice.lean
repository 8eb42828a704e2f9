import MediaRange.Proofs.Unicode.Trimmed
import MediaRange.Stylesheet.Basic

/-!
# Stylesheets are spliced

`IsSplice` says that a new stylesheet is the old one with the parameters of some rules replaced, and
that each change records where and how. `process_isSplice` shows that this is all `process` does.
-/

namespace MediaRange

open Unicode

/-! ### Rules among the pieces -/

/-- The pieces of a name and the `@` before it. -/
def ruleStart (name : List Char) : List Piece := ('@' :: name).map Piece.verbatim

/-- Every prelude comes after an `@` and the name of its rule. -/
inductive HasRules : List Piece → Prop where
  | nil : HasRules []
  | verbatim {c : Char} {ps : List Piece} (h : HasRules ps) : HasRules (.verbatim c :: ps)
  | rule {name raw : List Char} {ps : List Piece} (hname : '\n' ∉ name) (h : HasRules ps) :
    HasRules (ruleStart name ++ .prelude name raw :: ps)

namespace Scanner

def opened (s : Scanner) : List Piece :=
  match s.zone with
  | .outside => []
  | .name read => ruleStart read.reverse
  | .prelude name _ => ruleStart name

/-- The name of the rule that has been opened is on one line. -/
def OneLine (s : Scanner) : Prop :=
  match s.zone with
  | .outside => True
  | .name read => '\n' ∉ read
  | .prelude name _ => '\n' ∉ name

theorem hasRules_append {u : List Char} {ps : List Piece} (h : HasRules ps) :
    HasRules (u.map Piece.verbatim ++ ps) := by
  induction u with
  | nil => exact h
  | cons c u ih => exact .verbatim ih

theorem hasRules_outsideStep (lexing : Lexing) (before : Option Char) (c : Char)
    {ps : List Piece} (h : HasRules ((outsideStep lexing before c).2.opened ++ ps)) :
    HasRules ((outsideStep lexing before c).1 ++ ps) := by
  rw [outsideStep] at h ⊢
  split
  · rename_i at_
    rw [if_pos at_] at h
    obtain rfl : c = '@' := by simp_all
    exact h
  · rename_i notAt
    rw [if_neg notAt] at h
    exact .verbatim h

theorem oneLine_outsideStep (lexing : Lexing) (before : Option Char) (c : Char) :
    (outsideStep lexing before c).2.OneLine := by
  rw [outsideStep]
  split
  · exact List.not_mem_nil
  · trivial

theorem hasRules_preludeStep {name : List Char} (hname : '\n' ∉ name) (read : List Char)
    (lexing : Lexing) (c : Char) {ps : List Piece}
    (h : HasRules ((preludeStep name read lexing c).2.opened ++ ps)) :
    HasRules (ruleStart name ++ ((preludeStep name read lexing c).1 ++ ps)) := by
  rw [preludeStep] at h ⊢
  split
  · rename_i ends
    rw [if_pos ends] at h
    exact .rule hname (.verbatim h)
  · rename_i goesOn
    rw [if_neg goesOn] at h
    exact h

theorem oneLine_preludeStep {name : List Char} (hname : '\n' ∉ name) (read : List Char)
    (lexing : Lexing) (c : Char) : (preludeStep name read lexing c).2.OneLine := by
  rw [preludeStep]
  split
  · trivial
  · exact hname

theorem oneLine_step {s : Scanner} (h : s.OneLine) (c : Char) : (s.step c).2.OneLine := by
  obtain ⟨zone, lexing, before⟩ := s
  cases zone with
  | outside => exact oneLine_outsideStep lexing before c
  | name read =>
    have hname : '\n' ∉ read := h
    rw [step]
    dsimp only
    split
    · rename_i isName
      have notNewline : '\n' ≠ c := by rintro rfl; revert isName; decide
      exact List.not_mem_cons_of_ne_of_not_mem notNewline hname
    · split
      · exact oneLine_preludeStep (by simpa using hname) [] .plain c
      · exact oneLine_outsideStep .plain before c
  | prelude name read => exact oneLine_preludeStep h read lexing c

/-- The pieces of a step continue the rule that has been opened. -/
theorem hasRules_step {s : Scanner} (h : s.OneLine) (c : Char) {ps : List Piece}
    (hps : HasRules ((s.step c).2.opened ++ ps)) :
    HasRules (s.opened ++ ((s.step c).1 ++ ps)) := by
  obtain ⟨zone, lexing, before⟩ := s
  cases zone with
  | outside => exact hasRules_outsideStep lexing before c hps
  | name read =>
    have hname : '\n' ∉ read := h
    rw [step] at hps ⊢
    dsimp only at hps ⊢
    split
    · rename_i isName
      rw [if_pos isName] at hps
      simpa [opened, ruleStart] using hps
    · rename_i notName
      rw [if_neg notName] at hps
      split
      · rename_i isMedia
        rw [if_pos isMedia] at hps
        exact hasRules_preludeStep (by simpa using hname) [] .plain c hps
      · rename_i notMedia
        rw [if_neg notMedia] at hps
        exact hasRules_append (hasRules_outsideStep .plain before c hps)
  | prelude name read => exact hasRules_preludeStep h read lexing c hps

theorem hasRules_pieces {s : Scanner} (h : s.OneLine) (text : List Char) :
    HasRules (s.opened ++ s.pieces text) := by
  induction text generalizing s with
  | nil =>
    obtain ⟨zone, lexing, before⟩ := s
    cases zone with
    | outside => exact .nil
    | name read => exact hasRules_append .nil
    | prelude name read => exact .rule h .nil
  | cons c text ih => exact hasRules_step h c (ih (oneLine_step h c))

end Scanner

namespace Stylesheet

theorem newlines_append (u v : List Char) : newlines (u ++ v) = newlines u + newlines v :=
  List.count_append

theorem newlines_eq_zero {u : List Char} (h : '\n' ∉ u) : newlines u = 0 :=
  List.count_eq_zero.mpr h

theorem processPieces_verbatim (engine : Engine) (line : Nat) (u : List Char) (ps : List Piece) :
    (processPieces engine line (u.map Piece.verbatim ++ ps)).value =
      ⟨u ++ (processPieces engine (line + newlines u) ps).value.css,
        (processPieces engine (line + newlines u) ps).value.changes⟩ := by
  induction u generalizing line with
  | nil => rfl
  | cons c u ih =>
    have lines : line + newlines (c :: u) = line + newlines [c] + newlines u := by
      rw [Nat.add_assoc, ← newlines_append]; rfl
    rw [List.map_cons, List.cons_append, processPieces, lines]
    simp only [processPiece, Piece.text, ih]
    rfl

/-- A prelude stays as it is, or its trimmed text is replaced. -/
theorem processPiece_prelude (engine : Engine) (line : Nat) (name raw : List Char) :
    (processPiece engine line (.prelude name raw)).value = ⟨raw, []⟩ ∨
      ∃ after rewrites, trim raw ≠ [] ∧
        (engine.rewriteParams (trim raw)).value = .rewritten after rewrites ∧
        (processPiece engine line (.prelude name raw)).value =
          ⟨leadingBlanks raw ++ (after ++ trailingBlanks (trimLeft raw)),
            [⟨line, name, trim raw, after, rewrites⟩]⟩ := by
  by_cases empty : (trim raw).isEmpty = true
  · exact .inl (by simp only [processPiece, if_pos empty])
  · simp only [processPiece, if_neg empty]
    split
    · rename_i after rewrites hrule
      refine .inr ⟨after, rewrites, by simpa using empty, ?_, by simp⟩
      rw [Engine.rewriteRule] at hrule
      split at hrule
      · exact hrule
      · cases hrule
    · exact .inl rfl

end Stylesheet

/-! ### Splices -/

/-- The new text of a stylesheet after a part that has been read. A change replaces trimmed
parameters that come after an `@`, a name and blanks, and it records the line of the `@`. -/
inductive IsSplice (engine : Engine) :
    List Char → List Char → List Char → List RuleChange → Prop where
  | rest {read gap : List Char} : IsSplice engine read gap gap []
  | change {read front blanks css out : List Char} {change : RuleChange}
    {changes : List RuleChange} (hblanks : IsBlankText blanks)
    (line : change.line = 1 + Stylesheet.newlines (read ++ front))
    (ne_nil : change.before ≠ []) (trimmed : IsTrimmed change.before)
    (rewritten : (engine.rewriteParams change.before).value =
      .rewritten change.after change.rewrites)
    (h : IsSplice engine (read ++ ((front ++ '@' :: change.name ++ blanks) ++ change.before)) css out
      changes) :
    IsSplice engine read ((front ++ '@' :: change.name ++ blanks) ++ (change.before ++ css))
      ((front ++ '@' :: change.name ++ blanks) ++ (change.after ++ out)) (change :: changes)

theorem IsSplice.css_eq {engine : Engine} {read css out : List Char}
    (h : IsSplice engine read css out []) : out = css := by
  cases h
  rfl

theorem IsSplice.prepend {engine : Engine} {read u css out : List Char} {changes : List RuleChange}
    (h : IsSplice engine (read ++ u) css out changes) :
    IsSplice engine read (u ++ css) (u ++ out) changes := by
  cases h with
  | rest => exact .rest
  | @change _ front blanks css out change changes hblanks line ne_nil trimmed rewritten h =>
    have step : IsSplice engine read
        (((u ++ front) ++ '@' :: change.name ++ blanks) ++ (change.before ++ css))
        (((u ++ front) ++ '@' :: change.name ++ blanks) ++ (change.after ++ out))
        (change :: changes) :=
      .change hblanks (by rw [line, List.append_assoc]) ne_nil trimmed rewritten (by simpa using h)
    simpa using step

theorem HasRules.isSplice (engine : Engine) {ps : List Piece} (h : HasRules ps) (read : List Char) :
    IsSplice engine read (ps.flatMap Piece.text)
      (Stylesheet.processPieces engine (1 + Stylesheet.newlines read) ps).value.css
      (Stylesheet.processPieces engine (1 + Stylesheet.newlines read) ps).value.changes := by
  induction h generalizing read with
  | nil => exact .rest
  | @verbatim c ps _ ih =>
    have copied := Stylesheet.processPieces_verbatim engine (1 + Stylesheet.newlines read) [c] ps
    rw [Nat.add_assoc, ← Stylesheet.newlines_append] at copied
    rw [List.map_singleton, List.singleton_append] at copied
    rw [copied]
    exact (ih (read ++ [c])).prepend
  | @rule name raw ps hname _ ih =>
    have noLines : Stylesheet.newlines ('@' :: name) = 0 :=
      Stylesheet.newlines_eq_zero (by simpa using hname)
    rw [ruleStart, Stylesheet.processPieces_verbatim, noLines, Nat.add_zero,
      Stylesheet.processPieces]
    have rest := ih (read ++ ('@' :: name ++ raw))
    rw [Stylesheet.newlines_append, Stylesheet.newlines_append, noLines, Nat.zero_add,
      ← Nat.add_assoc] at rest
    rcases Stylesheet.processPiece_prelude engine (1 + Stylesheet.newlines read) name raw with
      same | ⟨after, rewrites, ne_nil, rewritten, changed⟩
    · rw [same]
      simpa [Piece.text, List.flatMap_map] using rest.prepend
    · rw [changed]
      have parts := leading_append_trim_append_trailing raw
      have joined (rest : List Char) : leadingBlanks raw ++
          (trim raw ++ (trailingBlanks (trimLeft raw) ++ rest)) = raw ++ rest := by
        rw [← List.append_assoc (trim raw), ← List.append_assoc, parts]
      have tail : IsSplice engine
          (read ++ (([] ++ '@' :: name ++ leadingBlanks raw) ++ trim raw)) _ _ _ :=
        IsSplice.prepend (u := trailingBlanks (trimLeft raw)) (by simpa [parts] using rest)
      let change : RuleChange := ⟨1 + Stylesheet.newlines read, name, trim raw, after, rewrites⟩
      have line : change.line = 1 + Stylesheet.newlines (read ++ []) := by simp [change]
      have step := IsSplice.change (isBlankText_leadingBlanks raw) line ne_nil
        (isTrimmed_trim raw) rewritten tail
      simpa [Piece.text, List.flatMap_map, joined, change] using step

/-- Processing a stylesheet replaces the parameters of some rules and records each of them. A
stylesheet without changes stays as it is. -/
theorem process_isSplice (engine : Engine) (css : List Char) :
    IsSplice engine [] css (Stylesheet.process engine css).value.css
      (Stylesheet.process engine css).value.changes ∧
      ((Stylesheet.process engine css).value.changes ≠ [] ∨
        (Stylesheet.process engine css).value.css = css) := by
  have splice : IsSplice engine [] css (Stylesheet.process engine css).value.css
      (Stylesheet.process engine css).value.changes := by
    have rules := Scanner.hasRules_pieces (s := {}) trivial css
    have splice := rules.isSplice engine []
    rwa [show Scanner.opened {} = [] from rfl, List.nil_append, Scanner.pieces_text] at splice
  refine ⟨splice, ?_⟩
  by_cases unchanged : (Stylesheet.process engine css).value.changes = []
  · rw [unchanged] at splice
    exact .inr splice.css_eq
  · exact .inl unchanged

end MediaRange
