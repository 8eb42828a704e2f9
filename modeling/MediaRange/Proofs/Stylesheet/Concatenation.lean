import MediaRange.Proofs.Rewriting.Passes
import MediaRange.Proofs.Stylesheet.Requests
import MediaRange.Proofs.Stylesheet.Splice

/-!
# Stylesheets one after another

After a blank, a brace or a semicolon outside of preludes the scanner is as it was at the start, up
to the character before. So `process_append` takes stylesheets that end like this one by one, and
only the lines count on.
-/

namespace MediaRange

open Scanner StyleToken

/-- The last character is a blank, a brace or a semicolon that the scanner takes for itself, and it
is in no prelude. -/
structure EndsPlainly (css : List Char) : Prop where
  last : ∃ c ∈ ['}', '{', ';', ' ', '\t', '\n', '\x0c', '\r'],
    (tokens Char.toNat css).getLast? = some (.single c)
  outside : ∀ r ∈ mediaRules Char.toNat [] (tokens Char.toNat css), r.lead ++ r.prelude ≠ css

/-! ### The scanner after a text -/

namespace Scanner

def after (s : Scanner) (text : List Char) : Scanner := text.foldl (fun s c => (s.step c).2) s

theorem after_append (s : Scanner) (u v : List Char) : s.after (u ++ v) = (s.after u).after v :=
  List.foldl_append

/-- What is complete after a text does not depend on what follows. -/
theorem pieces_append (s : Scanner) (u : List Char) :
    ∃ ps, ∀ v, s.pieces (u ++ v) = ps ++ (s.after u).pieces v := by
  induction u generalizing s with
  | nil => exact ⟨[], fun _ => rfl⟩
  | cons c u ih =>
    obtain ⟨ps, later⟩ := ih (s.step c).2
    refine ⟨(s.step c).1 ++ ps, fun v => ?_⟩
    show (s.step c).1 ++ (s.step c).2.pieces (u ++ v) = _
    rw [later, List.append_assoc]
    rfl

/-- No comment, string or escape is open in a name. -/
def IsPlainInName (s : Scanner) : Prop := ∀ read, s.zone = .name read → s.lexing = .plain

theorem Outside.isPlainInName {s : Scanner} (h : s.Outside) : s.IsPlainInName := by
  obtain ⟨zone, lexing, before⟩ := s
  rintro read rfl
  exact h

theorem lexing_step {s : Scanner} (h : s.IsPlainInName) (c : Char) :
    (s.step c).2.IsPlainInName ∧ (s.step c).2.lexing = s.lexing.next c := by
  have outside (lexing : Lexing) (before : Option Char) :
      (outsideStep lexing before c).2.IsPlainInName ∧
        (outsideStep lexing before c).2.lexing = lexing.next c := by
    obtain ⟨next, step, isOutside, same⟩ := outsideStep_eq lexing before c
    rw [step]
    exact ⟨isOutside.isPlainInName, same⟩
  have inPrelude (name read : List Char) (lexing : Lexing) :
      (preludeStep name read lexing c).2.IsPlainInName ∧
        (preludeStep name read lexing c).2.lexing = lexing.next c := by
    unfold preludeStep
    split <;> exact ⟨nofun, rfl⟩
  obtain ⟨zone, lexing, before⟩ := s
  cases zone with
  | outside => exact outside lexing before
  | prelude name read => exact inPrelude name read lexing
  | name read =>
    obtain rfl : lexing = .plain := h read rfl
    by_cases isName : isNameCharacter c = true
    · rw [step_name isName]
      exact ⟨fun _ _ => rfl, (next_of_isNameCharacter isName).symm⟩
    · unfold step
      dsimp only
      rw [if_neg isName]
      split
      · exact inPrelude read.reverse [] .plain
      · exact outside .plain before

theorem lexing_after {s : Scanner} (h : s.IsPlainInName) (text : List Char) :
    (s.after text).lexing = s.lexing.run text := by
  induction text generalizing s with
  | nil => rfl
  | cons c text ih =>
    obtain ⟨plain, next⟩ := lexing_step h c
    show ((s.step c).2.after text).lexing = (s.lexing.next c).run text
    rw [ih plain, next]

/-- What a state says of the character that has just been read. -/
structure IsAfter (s : Scanner) (c : Char) : Prop where
  before : s.before = some c
  name : ∀ read, s.zone = .name read → c = '@' ∨ isNameCharacter c = true
  prelude : ∀ name read, s.zone = .prelude name read → read ≠ []

theorem isAfter_step (s : Scanner) (c : Char) : (s.step c).2.IsAfter c := by
  have outside (lexing : Lexing) (before : Option Char) :
      (outsideStep lexing before c).2.IsAfter c := by
    unfold outsideStep
    split
    · rename_i opens
      simp only [Bool.and_eq_true, decide_eq_true_eq] at opens
      exact ⟨rfl, fun _ _ => .inl opens.1.2, nofun⟩
    · exact ⟨rfl, nofun, nofun⟩
  have inPrelude (name read : List Char) (lexing : Lexing) :
      (preludeStep name read lexing c).2.IsAfter c := by
    unfold preludeStep
    split
    · exact ⟨rfl, nofun, nofun⟩
    · refine ⟨rfl, nofun, fun _ _ zone => ?_⟩
      cases zone
      exact List.cons_ne_nil _ _
  obtain ⟨zone, lexing, before⟩ := s
  cases zone with
  | outside => exact outside lexing before
  | prelude name read => exact inPrelude name read lexing
  | name read =>
    unfold step
    dsimp only
    split
    · rename_i isName
      exact ⟨rfl, fun _ _ => .inr isName, nofun⟩
    · split
      · exact inPrelude read.reverse [] .plain
      · exact outside .plain before

/-- Of the character before the text only counts whether it opens a rule. -/
theorem pieces_congr_before {before other : Option Char} (h : opensRule before = opensRule other)
    (lexing : Lexing) (text : List Char) :
    pieces ⟨.outside, lexing, before⟩ text = pieces ⟨.outside, lexing, other⟩ text := by
  cases text with
  | nil => rfl
  | cons c text =>
    have same : step ⟨.outside, lexing, before⟩ c = step ⟨.outside, lexing, other⟩ c := by
      show outsideStep lexing before c = outsideStep lexing other c
      rw [outsideStep, outsideStep, h]
    rw [pieces, pieces, same]

end Scanner

/-! ### After a plain end -/

theorem rulesAfter_append (front : List Char) (ps qs : List Piece) :
    rulesAfter front (ps ++ qs) =
      rulesAfter front ps ++ rulesAfter (front ++ ps.flatMap Piece.text) qs := by
  induction ps generalizing front with
  | nil => rw [List.flatMap_nil, List.append_nil]; rfl
  | cons p ps ih =>
    cases p with
    | verbatim c =>
      rw [List.cons_append, rulesAfter, ih, rulesAfter, List.flatMap_cons, List.append_assoc]
      rfl
    | prelude name raw =>
      rw [List.cons_append, rulesAfter, ih, rulesAfter, List.flatMap_cons, List.append_assoc]
      rfl

/-- A prelude that is open at the end of the text belongs to a media rule that reaches to it. -/
theorem exists_rule_of_prelude {css name read : List Char}
    (zone : (Scanner.after {} css).zone = .prelude name read) (ne_nil : read ≠ []) :
    ∃ r ∈ mediaRules Char.toNat [] (tokens Char.toNat css), r.lead ++ r.prelude = css := by
  obtain ⟨ps, hps⟩ := pieces_append {} css
  have finished : (Scanner.after {} css).pieces [] = [.prelude name read.reverse] := by
    rw [pieces, finish, zone]
  have whole : pieces {} css = ps ++ [.prelude name read.reverse] := by
    rw [← finished, ← hps, List.append_nil]
  have text : ps.flatMap Piece.text ++ read.reverse = css := by
    have all := pieces_text {} css
    rw [whole, List.flatMap_append, List.flatMap_singleton] at all
    exact all
  -- Rules with an empty prelude are not compared: some of them end with the text.
  let f (r : MediaRule Char) := if r.prelude.isEmpty then none else some r
  have found : (⟨ps.flatMap Piece.text, name, read.reverse⟩ : MediaRule Char) ∈
      (rulesAfter [] (pieces {} css)).filterMap f := by
    refine List.mem_filterMap.mpr ⟨_, ?_, if_neg (by simpa using ne_nil)⟩
    rw [whole, rulesAfter_append, List.nil_append]
    exact List.mem_append_right _ List.mem_cons_self
  rw [Stylesheet.filterMap_rules_pieces fun _ _ => rfl] at found
  obtain ⟨r, hr, same⟩ := List.mem_filterMap.mp found
  dsimp only [f] at same
  split at same
  · cases same
  · obtain rfl := Option.some.inj same
    exact ⟨_, hr, text⟩

/-- The characters of a plain end: they open no token and no name, and a rule may follow them. -/
theorem plain_ends : ∀ c ∈ ['}', '{', ';', ' ', '\t', '\n', '\x0c', '\r'],
    Lexing.fresh c = .plain ∧ ¬(c = '@' ∨ isNameCharacter c = true) ∧ opensRule (some c) = true := by
  intro c hc
  simp only [List.mem_cons, List.not_mem_nil, or_false] at hc
  rcases hc with rfl | rfl | rfl | rfl | rfl | rfl | rfl | rfl <;> decide

theorem Lexing.next_of_starts {lexing : Lexing} {c : Char} (plain : fresh c = .plain)
    (h : lexing.starts c = true) : lexing.next c = .plain := by
  cases lexing with
  | plain => exact plain
  | slash =>
    have notStar : c ≠ '*' := by simpa [starts] using h
    rw [next, if_neg notStar, plain]
  | quoted quote =>
    obtain rfl : c = '\n' := by simpa [starts] using h
    simp [next]
  | comment | quotedEscape | escape => cases h

theorem EndsPlainly.after {css : List Char} (h : EndsPlainly css) :
    ∃ c, opensRule (some c) = true ∧ Scanner.after {} css = ⟨.outside, .plain, some c⟩ := by
  obtain ⟨c, hc, last⟩ := h.last
  obtain ⟨fresh, notName, opens⟩ := plain_ends c hc
  obtain ⟨ts, split⟩ := List.getLast?_eq_some_iff.mp last
  have text : ts.flatMap StyleToken.text ++ [c] = css := by
    rw [← tokens_text Char.toNat css, split, List.flatMap_append, List.flatMap_singleton]
    rfl
  have follows := Lexing.follows_tokens css
  rw [split] at follows
  have first : [(c, (Lexing.plain.run (ts.flatMap StyleToken.text)).starts c)] = [(c, true)] :=
    follows.append.2
  have lexing : (Scanner.after {} css).lexing = .plain := by
    rw [lexing_after (fun _ _ => rfl), ← text, Lexing.run_append]
    exact Lexing.next_of_starts fresh (by simpa using first)
  have isAfter : (Scanner.after {} css).IsAfter c := by
    rw [← text, after_append]
    exact isAfter_step _ c
  refine ⟨c, opens, ?_⟩
  cases zone : (Scanner.after {} css).zone with
  | outside =>
    calc Scanner.after {} css
        = ⟨(Scanner.after {} css).zone, (Scanner.after {} css).lexing,
            (Scanner.after {} css).before⟩ := rfl
      _ = _ := by rw [zone, lexing, isAfter.before]
  | name read => exact absurd (isAfter.name read zone) notName
  | prelude name read =>
    obtain ⟨r, hr, whole⟩ := exists_rule_of_prelude zone (isAfter.prelude name read zone)
    exact absurd whole (h.outside r hr)

theorem EndsPlainly.pieces {a : List Char} (h : EndsPlainly a) (b : List Char) :
    pieces {} (a ++ b) = pieces {} a ++ pieces {} b := by
  obtain ⟨c, opens, after⟩ := h.after
  obtain ⟨ps, hps⟩ := pieces_append {} a
  have alone := hps []
  rw [after, List.append_nil] at alone
  have alike : opensRule (some c) = opensRule none := opens
  rw [hps, after, pieces_congr_before alike, alone, List.append_assoc]
  rfl

/-! ### Pieces one after another -/

def RuleChange.movedBy (lines : Nat) (change : RuleChange) : RuleChange :=
  { change with line := change.line + lines }

namespace Stylesheet

theorem processPieces_append (engine : Engine) (line : Nat) (ps qs : List Piece) :
    processPieces engine line (ps ++ qs) =
      let first := processPieces engine line ps
      let rest := processPieces engine (line + newlines (ps.flatMap Piece.text)) qs
      ⟨⟨first.value.css ++ rest.value.css, first.value.changes ++ rest.value.changes⟩,
        first.log ++ rest.log⟩ := by
  induction ps generalizing line with
  | nil => rfl
  | cons p ps ih =>
    rw [List.cons_append, processPieces, ih, processPieces, List.flatMap_cons, newlines_append,
      Nat.add_assoc]
    simp only [List.append_assoc]

theorem processPiece_movedBy (engine : Engine) (line lines : Nat) (p : Piece) :
    processPiece engine (line + lines) p =
      let here := processPiece engine line p
      ⟨⟨here.value.css, here.value.changes.map (·.movedBy lines)⟩, here.log⟩ := by
  cases p with
  | verbatim c => rfl
  | prelude name raw =>
    simp only [processPiece]
    split
    · rfl
    · cases (engine.rewriteRule ⟨name, Unicode.trim raw⟩).value <;> rfl

theorem processPieces_movedBy (engine : Engine) (line lines : Nat) (ps : List Piece) :
    processPieces engine (line + lines) ps =
      let here := processPieces engine line ps
      ⟨⟨here.value.css, here.value.changes.map (·.movedBy lines)⟩, here.log⟩ := by
  induction ps generalizing line with
  | nil => rfl
  | cons p ps ih =>
    rw [processPieces, processPiece_movedBy, Nat.add_right_comm, ih, processPieces]
    simp only [List.map_append]

end Stylesheet

open Stylesheet

/-- Stylesheets are processed one after another if the first one ends plainly: its text, its changes
and its log come first, and the lines of the second one count on. -/
theorem process_append (engine : Engine) {a : List Char} (ends : EndsPlainly a) (b : List Char) :
    process engine (a ++ b) =
      let first := process engine a
      let rest := process engine b
      ⟨⟨first.value.css ++ rest.value.css,
        first.value.changes ++ rest.value.changes.map (·.movedBy (newlines a))⟩,
        first.log ++ rest.log⟩ := by
  have text : (pieces {} a).flatMap Piece.text = a := pieces_text {} a
  rw [process, ends.pieces, processPieces_append, text, processPieces_movedBy]
  rfl

/-- The line feed after a string that is not closed ends it, so nothing is open after it. -/
theorem process_append_string :
    let a := "@media (width > 1px) \x7b\n\x7d 'open\n".toList
    let b := "@media (width > 2px) \x7b\x7d".toList
    let first := (process (plainEngine false) a).value
    let rest := (process (plainEngine false) b).value
    EndsPlainly a ∧ (process (plainEngine false) (a ++ b)).value =
      ⟨first.css ++ rest.css, first.changes ++ rest.changes.map (·.movedBy 2)⟩ := by
  intro a b first rest
  have ends : EndsPlainly a := ⟨⟨'\n', by decide, by decide +kernel⟩, by decide +kernel⟩
  have lines : newlines a = 2 := by decide
  refine ⟨ends, ?_⟩
  rw [process_append (plainEngine false) ends b, lines]

end MediaRange
