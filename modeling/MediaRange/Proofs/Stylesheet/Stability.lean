import MediaRange.Proofs.Stylesheet.Preludes

/-!
# Rewriting a stylesheet twice

A line end closes a string, so a range that stands in a string and holds a line end moves the end of
the string if its query is on one line. `process_stable` shows that nothing else keeps a rewritten
stylesheet from staying as it is, and `process_unstable` that this does.
-/

namespace MediaRange

open Stylesheet

/-- In the strings of a prelude, a range with a line end has a query with a line end. -/
def KeepsLineEnds (settings : Settings) (raw : List Char) : Prop :=
  ∀ front inside rest r quote, raw = front ++ ((Fragment.group inside).text ++ rest) →
    Spells inside r → Lexing.plain.run (front ++ ['(']) = .quoted quote →
      '\n' ∈ inside → '\n' ∈ r.query settings

theorem KeepsLineEnds.keepsLexing {useCalc : Bool} {raw : List Char}
    (h : KeepsLineEnds ⟨none, useCalc⟩ raw) : KeepsLexing ⟨none, useCalc⟩ .plain raw := by
  intro front inside rest r split hspells
  obtain ⟨u, same, hu⟩ := Reading.query_eq_brackets useCalc hspells.hasTokens
  have start : Lexing.plain.IsRegular := trivial
  have regular := Lexing.isRegular_run start front
  have opened : Lexing.plain.run (front ++ ['(']) = (Lexing.plain.run front).next '(' :=
    Lexing.run_append .plain front ['(']
  have lineEnds {quote : Char} (inString : (Lexing.plain.run front).next '(' = .quoted quote) :
      decide ('\n' ∈ u) = decide ('\n' ∈ inside) := by
    have inQuery : '\n' ∈ r.query ⟨none, useCalc⟩ ↔ '\n' ∈ u := by simp [same]
    rw [decide_eq_decide, ← inQuery]
    constructor
    · exact hspells.newline_mem
    · exact h front inside rest r quote split hspells (opened.trans inString)
  rw [Fragment.text, same, Lexing.run_brackets regular hu, Lexing.run_brackets regular hspells.isCalm]
  generalize Lexing.plain.run front = lexing at regular lineEnds ⊢
  cases lexing with
  | plain => rfl
  | slash => rfl
  | escape => rfl
  | comment starred => rfl
  | quoted quote =>
    have inString : (Lexing.quoted quote).next '(' = .quoted quote := by
      rcases regular with rfl | rfl <;> decide
    rw [lineEnds inString]
  | quotedEscape quote => rw [lineEnds rfl]

/-- Without custom values, a rewritten stylesheet stays as it is if no string in a prelude loses a
line end. -/
theorem process_stable {useCalc : Bool} {engine : Engine}
    (built : Engine.build ⟨none, useCalc⟩ = .ok engine) {css : List Char}
    (keeps : ∀ name raw, Piece.prelude name raw ∈ Scanner.pieces {} css →
      KeepsLineEnds engine.settings raw) :
    let out := (process engine css).value.css
    (process engine out).value = ⟨out, []⟩ := by
  obtain rfl := eq_plainEngine built
  intro out
  have scanned : Scanner.Scans {} css (Scanner.pieces {} css) := Scanner.scans_iff.mpr rfl
  have keeps : ∀ name raw, .prelude name raw ∈ Scanner.pieces {} css →
      KeepsLexing ⟨none, useCalc⟩ .plain raw :=
    fun name raw h => KeepsLineEnds.keepsLexing (keeps name raw h)
  have again := scanned.rewritten keeps
  have same : out = rewrittenText ⟨none, useCalc⟩ (Scanner.pieces {} css) := css_process useCalc css
  rw [← same] at again
  rw [process, again.pieces_eq, processPieces_rewritten, same]

theorem process_stable_lines :
    let css := "@media 'a' and (width >\n1px) { }".toList
    Engine.build ⟨none, false⟩ = .ok (plainEngine false) ∧
      (∀ name raw, Piece.prelude name raw ∈ Scanner.pieces {} css →
        KeepsLineEnds ⟨none, false⟩ raw) ∧
      (process (plainEngine false) (process (plainEngine false) css).value.css).value.changes = [] := by
  intro css
  have keeps : ∀ name raw, Piece.prelude name raw ∈ Scanner.pieces {} css →
      KeepsLineEnds ⟨none, false⟩ raw := by
    intro name raw hmem front inside rest r quote split _ inString
    have found : Scanner.pieces {} css = "@media".toList.map .verbatim ++
        .prelude "media".toList " 'a' and (width >\n1px) ".toList ::
          "{ }".toList.map .verbatim := by decide +kernel
    rw [found] at hmem
    have known : raw = " 'a' and (width >\n1px) ".toList := by
      simp only [List.mem_append, List.mem_cons, List.mem_map, Piece.prelude.injEq, reduceCtorEq,
        and_false, exists_false, false_or, or_false] at hmem
      exact hmem.2
    -- The only parenthesis that opens is not in the string.
    have opens : ∀ n < 30, (" 'a' and (width >\n1px) ".toList.take n).getLast? = some '(' →
        Lexing.plain.run (" 'a' and (width >\n1px) ".toList.take n) = .plain := by decide +kernel
    have here : raw = (front ++ ['(']) ++ (inside ++ ')' :: rest) := by
      rw [split, group_text_append]
      simp
    have short : (front ++ ['(']).length < 30 := by
      have whole := congrArg List.length here
      rw [known, List.length_append] at whole
      have size : " 'a' and (width >\n1px) ".toList.length < 30 := by decide
      omega
    have idle := opens _ short
    rw [← known, here, List.take_left] at idle
    rw [idle (by simp)] at inString
    cases inString
  refine ⟨build_plain false, keeps, ?_⟩
  rw [process_stable (build_plain false) keeps]

/-- A range in a string that spans lines: its query puts the rest of the text into the string. -/
theorem process_unstable :
    let css := "@media \"(width >\n1px) { } @supports (width > 1px) { }".toList
    let out := (process (plainEngine false) css).value.css
    Engine.build ⟨none, false⟩ = .ok (plainEngine false) ∧
      (process (plainEngine false) out).value.css ≠ out := by
  intro css out
  refine ⟨build_plain false, ?_⟩
  have first : out = "@media \"(min-width: 2px) { } @supports (width > 1px) { }".toList := by
    rw [show out = _ from css_process false css]
    decide +kernel
  rw [css_process, first]
  decide +kernel

end MediaRange
