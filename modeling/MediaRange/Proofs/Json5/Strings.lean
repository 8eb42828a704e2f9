import MediaRange.Json5.Literal
import MediaRange.Proofs.Json.RoundTrip

/-!
# JSON strings in JSON5 texts

A string that JSON has written means the same in JSON5, but for two characters: the line separator
and the paragraph separator are written as they are, and the reader takes them for line ends.
`run_escaped` follows the lexer through such a string and `partsValue_written` reads its parts.
-/

namespace MediaRange.Json5

open Json (escapedChar)

/-! ### Reading a part of a text -/

namespace Lexer

/-- The tokens that a part of a text completes, and where the lexer is after it. -/
def run (lexer : Lexer) : List Char → Option (List Token × Lexer)
  | [] => some ([], lexer)
  | c :: rest =>
    match lexer.step c with
    | none => none
    | some (done, next) => (next.run rest).map fun (tokens, last) => (done ++ tokens, last)

theorem run_append (lexer : Lexer) (u v : List Char) :
    lexer.run (u ++ v) = (lexer.run u).bind fun (done, next) =>
      (next.run v).map fun (tokens, last) => (done ++ tokens, last) := by
  induction u generalizing lexer with
  | nil => simp [run]
  | cons c u ih =>
    rw [List.cons_append, run, run]
    cases lexer.step c with
    | none => rfl
    | some stepped =>
      obtain ⟨done, next⟩ := stepped
      simp only [ih]
      cases next.run u <;> simp [Function.comp_def]

theorem run_append_of {lexer next : Lexer} {u : List Char} {done : List Token}
    (h : lexer.run u = some (done, next)) (v : List Char) :
    lexer.run (u ++ v) = (next.run v).map fun (tokens, last) => (done ++ tokens, last) := by
  rw [run_append, h, Option.bind_some]

theorem tokens?_eq_run (lexer : Lexer) (text : List Char) :
    lexer.tokens? text = (lexer.run text).bind fun (done, last) => last.finish.map (done ++ ·) := by
  induction text generalizing lexer with
  | nil => simp [run, tokens?]
  | cons c rest ih =>
    rw [run, tokens?]
    cases lexer.step c with
    | none => rfl
    | some stepped =>
      obtain ⟨done, next⟩ := stepped
      simp only [ih]
      cases next.run rest <;> simp [Function.comp_def]

theorem run_blanks {blanks : List Char} (h : ∀ c ∈ blanks, isSpace c = true) :
    between.run blanks = some ([], between) := by
  induction blanks with
  | nil => rfl
  | cons c blanks ih =>
    obtain ⟨hc, later⟩ := List.forall_mem_cons.mp h
    have stays : between.step c = some ([], between) := by simp [step, start, hc]
    rw [run, stays]
    simp only [ih later]
    rfl

end Lexer

/-! ### Strings -/

/-- A character that ends a line, but is no control. -/
def isSeparator (c : Char) : Bool := c = '\u2028' || c = '\u2029'

/-- The part that a character of a JSON string is. -/
def writtenPart (c : Char) : StringPart :=
  match escapedChar c with
  | ['\\', letter] => .escaped letter
  | '\\' :: 'u' :: digits => .code digits
  | _ => .literal c

/-- The letters after a backslash in a JSON string, but for that of a code. -/
def escapeLetters : List Char := ['"', '\\', 'b', 'f', 'n', 'r', 't']

/-- A character is written with a letter, with the digits of its code, or as it is. -/
theorem written_cases (c : Char) :
    (∃ letter ∈ escapeLetters, unescaped letter = c ∧ escapedChar c = ['\\', letter] ∧
        writtenPart c = .escaped letter) ∨
      (∃ digits, c.toNat < 0x20 ∧
        digits = ['0', '0', Nat.digitChar (c.toNat / 16), Nat.digitChar (c.toNat % 16)] ∧
        escapedChar c = '\\' :: 'u' :: digits ∧ writtenPart c = .code digits) ∨
      (¬c.toNat < 0x20 ∧ c ≠ '"' ∧ c ≠ '\\' ∧ escapedChar c = [c] ∧ writtenPart c = .literal c) := by
  unfold writtenPart
  generalize written : escapedChar c = text
  unfold escapedChar at written
  split at written
  any_goals
    subst written
    exact .inl ⟨_, by decide, rfl, rfl, rfl⟩
  rename_i notQuote notBackslash _ _ _ _ _
  dsimp only at written
  split at written
  · rename_i control
    rw [List.cons_append, List.cons_append, (Json.control_digits c.toNat control).1] at written
    subst written
    exact .inr (.inl ⟨_, control, rfl, rfl, rfl⟩)
  · rename_i plain
    subst written
    refine .inr (.inr ⟨plain, notQuote, notBackslash, rfl, ?_⟩)
    split
    · rename_i same
      cases (List.cons.inj same).2
    · rename_i same
      cases (List.cons.inj same).2
    · rfl

namespace Lexer

variable (parts : List StringPart)

theorem run_code {a b c d : Char} (hex : [a, b, c, d].all isHexDigit = true) :
    (string '"' parts).run ['\\', 'u', a, b, c, d] =
      some ([], string '"' (.code [a, b, c, d] :: parts)) := by
  simp only [List.all_cons, List.all_nil, Bool.and_true, Bool.and_eq_true] at hex
  obtain ⟨ha, hb, hc, hd⟩ := hex
  have digit {e : Char} {digits : List Char} (he : isHexDigit e = true) (short : digits.length < 3) :
      (code '"' parts digits).step e = some ([], code '"' parts (e :: digits)) := by
    simp [step, he, Nat.ne_of_lt short]
  have last : (code '"' parts [c, b, a]).step d =
      some ([], string '"' (.code [a, b, c, d] :: parts)) := by
    simp [step, hd]
  have opened : (string '"' parts).step '\\' = some ([], escape '"' parts) := rfl
  have coded : (escape '"' parts).step 'u' = some ([], code '"' parts []) := rfl
  simp only [run, opened, coded, digit ha (show [].length < 3 by decide),
    digit hb (show [a].length < 3 by simp), digit hc (show [b, a].length < 3 by simp), last]
  rfl

theorem run_letter {letter : Char} (h : letter ∈ escapeLetters) :
    (string '"' parts).run ['\\', letter] =
      some ([], string '"' (.escaped letter :: parts)) := by
  simp only [escapeLetters, List.mem_cons, List.not_mem_nil, or_false] at h
  rcases h with rfl | rfl | rfl | rfl | rfl | rfl | rfl
  all_goals rfl

/-- A separator is not escaped, so it ends the line and with it all hope for the string. -/
theorem run_escapedChar (c : Char) :
    (string '"' parts).run (escapedChar c) =
      if isSeparator c then none else some ([], string '"' (writtenPart c :: parts)) := by
  rcases written_cases c with ⟨letter, hletter, rfl, written, part⟩ |
    ⟨_, control, rfl, written, part⟩ | ⟨plain, notQuote, notBackslash, written, part⟩
  · have noSeparator : ∀ letter ∈ escapeLetters, (!isSeparator (unescaped letter)) = true :=
      List.all_eq_true.mp (by decide)
    rw [show isSeparator (unescaped letter) = false by simpa using noSeparator letter hletter,
      written, part]
    exact run_letter parts hletter
  · have noSeparator : isSeparator c = false := by
      have ne {d : Char} (large : ¬d.toNat < 0x20) : c ≠ d := by
        rintro rfl
        exact large control
      simp [isSeparator, ne (d := '\u2028') (by decide), ne (d := '\u2029') (by decide)]
    rw [noSeparator, written, part]
    exact run_code parts (Json.control_digits c.toNat control).2.1
  · have ne {d : Char} (control : d.toNat < 0x20) : c ≠ d := by
      rintro rfl
      exact plain control
    have inside : (string '"' parts).step c =
        if isSeparator c then none else some ([], string '"' (.literal c :: parts)) := by
      show inString '"' parts c = _
      simp [inString, isLineTerminator, isSeparator, notQuote, notBackslash,
        ne (d := '\n') (by decide), ne (d := '\r') (by decide)]
    rw [written, part, run, inside]
    cases isSeparator c <;> rfl

theorem run_escaped (text : List Char) :
    (string '"' parts).run (text.flatMap escapedChar) =
      if text.any isSeparator then none
      else some ([], string '"' ((text.map writtenPart).reverse ++ parts)) := by
  induction text generalizing parts with
  | nil => rfl
  | cons c text ih =>
    rw [List.flatMap_cons, run_append, run_escapedChar, List.any_cons]
    cases isSeparator c with
    | true => rfl
    | false =>
      simp only [Bool.false_eq_true, if_false, Option.bind_some, ih, Bool.false_or]
      cases text.any isSeparator <;> simp

end Lexer

/-! ### What the parts mean -/

theorem partsValue_writtenPart (c : Char) (parts : List StringPart) :
    partsValue (writtenPart c :: parts) = (partsValue parts).map (c :: ·) := by
  rcases written_cases c with ⟨letter, -, rfl, -, part⟩ | ⟨_, control, rfl, -, part⟩ |
    ⟨-, -, -, -, part⟩
  · rw [part, partsValue]
  · obtain ⟨-, -, value⟩ := Json.control_digits c.toNat control
    have noTrail : isTrailSurrogate c.toNat = false := by
      simp only [isTrailSurrogate, Bool.and_eq_false_iff, decide_eq_false_iff_not]
      omega
    have noLead : isLeadSurrogate c.toNat = false := by
      simp only [isLeadSurrogate, Bool.and_eq_false_iff, decide_eq_false_iff_not]
      omega
    rw [part, partsValue.eq_def]
    dsimp only
    rw [value, noTrail, noLead, Char.ofNat_toNat]
    rfl
  · rw [part, partsValue]

theorem partsValue_written (text : List Char) : partsValue (text.map writtenPart) = .ok text := by
  induction text with
  | nil => rfl
  | cons c text ih =>
    rw [List.map_cons, partsValue_writtenPart, ih]
    rfl

theorem stringValue_written (s : String) : stringValue (s.toList.map writtenPart) = .ok s := by
  rw [stringValue, partsValue_written, Except.map, String.ofList_toList]

end MediaRange.Json5
