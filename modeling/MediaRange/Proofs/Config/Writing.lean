import MediaRange.Config.Reading
import MediaRange.Proofs.Json5.Strings
import MediaRange.Proofs.Results

/-!
# Written configurations

A configuration is written as JSON and read as JSON5. `read_text` shows that it is read back as it
was, unless there is a line or paragraph separator in its pattern: then the text cannot be read.
-/

namespace MediaRange.Config

open Json5 Json5.Lexer

/-! ### The text -/

/-- The text after the pattern, or after the opening brace if there is none. -/
def flagLine (flag : Bool) : List Char :=
  "\n  \"useCalc\": ".toList ++
    ((if flag then "true".toList else "false".toList) ++ "\n\x7d".toList)

theorem toList_text_none (flag : Bool) :
    (text ⟨none, flag⟩).toList = '\x7b' :: flagLine flag := by
  cases flag <;> decide +kernel

theorem exists_text_parts (flag : Bool) :
    ∃ front back : String, (∀ pattern, text ⟨some pattern, flag⟩ =
        front ++ (Json.quoted pattern ++ back)) ∧
      front.toList = "\x7b\n  \"customValueRegExp\": ".toList ∧
      back.toList = ',' :: flagLine flag := by
  refine ⟨"\x7b" ++ ("" ++ Json.newline 1 ++ Json.quoted "customValueRegExp" ++ ": "),
    ("," ++ Json.newline 1 ++ Json.quoted "useCalc" ++ ": " ++
      (if flag then "true" else "false") ++ "") ++ Json.newline 0 ++ "\x7d", ?_, ?_, ?_⟩
  · intro pattern
    have whole : text ⟨some pattern, flag⟩ =
        "\x7b" ++ ("" ++ Json.newline 1 ++ Json.quoted "customValueRegExp" ++ ": " ++
          Json.quoted pattern ++ ("," ++ Json.newline 1 ++ Json.quoted "useCalc" ++ ": " ++
            (if flag then "true" else "false") ++ "")) ++ Json.newline 0 ++ "\x7d" := by
      rfl
    rw [whole]
    simp only [String.append_assoc]
  · decide +kernel
  · cases flag <;> decide +kernel

theorem toList_text_some (pattern : String) (flag : Bool) :
    (text ⟨some pattern, flag⟩).toList = "\x7b\n  \"customValueRegExp\": \"".toList ++
      (pattern.toList.flatMap Json.escapedChar ++ ("\",".toList ++ flagLine flag)) := by
  obtain ⟨front, back, parts, hfront, hback⟩ := exists_text_parts flag
  rw [parts, String.toList_append, String.toList_append, hfront, hback, Json.toList_quoted]
  simp

/-! ### The tokens -/

def keyToken (field : ConfigField) : Token := .string (field.key.toList.map .literal)

def flagTokens (flag : Bool) : List Token :=
  [keyToken .useCalc, .colon, .word (if flag then "true".toList else "false".toList), .closeBrace]

theorem run_flagLine (flag : Bool) :
    between.run (flagLine flag) = some (flagTokens flag, between) := by
  cases flag <;> rfl

theorem tokens?_text_none (flag : Bool) {blanks : List Char}
    (hblanks : ∀ c ∈ blanks, isSpace c = true) :
    Json5.tokens? ((text ⟨none, flag⟩).toList ++ blanks) = some (.openBrace :: flagTokens flag) := by
  have start : between.run ('\x7b' :: flagLine flag) =
      some (.openBrace :: flagTokens flag, between) := by
    rw [← List.singleton_append, run_append_of (show between.run ['\x7b'] =
      some ([.openBrace], between) from rfl), run_flagLine]
    rfl
  rw [toList_text_none, Json5.tokens?, tokens?_eq_run, run_append_of start, run_blanks hblanks]
  simp [finish]

theorem tokens?_text_some (pattern : String) (flag : Bool) {blanks : List Char}
    (hblanks : ∀ c ∈ blanks, isSpace c = true) :
    Json5.tokens? ((text ⟨some pattern, flag⟩).toList ++ blanks) =
      if pattern.toList.any isSeparator then none
      else some (.openBrace :: keyToken .customValue :: .colon ::
        .string (pattern.toList.map writtenPart) :: .comma :: flagTokens flag) := by
  have opening : between.run "\x7b\n  \"customValueRegExp\": \"".toList =
      some ([.openBrace, keyToken .customValue, .colon], string '"' []) := rfl
  have closing (parts : List StringPart) : (string '"' parts).run "\",".toList =
      some ([.string parts.reverse, .comma], between) := rfl
  rw [toList_text_some, Json5.tokens?, tokens?_eq_run]
  simp only [List.append_assoc]
  rw [run_append_of opening, run_append, run_escaped]
  split
  · rfl
  · simp only [Option.bind_some, run_append_of (closing _), run_append_of (run_flagLine flag),
      run_blanks hblanks]
    simp [finish]

/-! ### Reading it back -/

/-- The members of a written configuration. -/
def flagMember (flag : Bool) : Key × Document :=
  (ConfigField.useCalc.key.toList.map .literal, .bool flag)

def patternMember (pattern : String) : Key × Document :=
  (ConfigField.customValue.key.toList.map .literal, .string (pattern.toList.map writtenPart))

theorem read_of_tokens {written : List Char} {tokens : List Token} {document : Document}
    (htokens : Json5.tokens? written = some tokens)
    (hdocument : Document.ofTokens? tokens = some document) : read written = ofDocument document := by
  rw [read, Document.read, htokens, Option.bind_some, hdocument]
  rfl

theorem ofDocument_flag (flag : Bool) :
    ofDocument (.object [flagMember flag]) = .ok ⟨none, flag⟩ := rfl

theorem ofDocument_pattern (pattern : String) (flag : Bool) :
    ofDocument (.object [patternMember pattern, flagMember flag]) = .ok ⟨some pattern, flag⟩ := by
  have value : valueOf (.string (pattern.toList.map writtenPart)) = .ok (.string pattern) := by
    rw [valueOf, Document.value, stringValue_written]
    rfl
  have first : readMembers {} [patternMember pattern, flagMember flag] =
      valueOf (.string (pattern.toList.map writtenPart)) >>= fun found =>
        ConfigDraft.set {} .customValue found >>= fun draft =>
          readMembers draft [flagMember flag] := rfl
  rw [ofDocument, first, value]
  rfl

/-- A written configuration is read back as it was, whatever line ends follow, unless its pattern
has a separator in it, which is not escaped and ends the line in the middle of the string. -/
theorem read_text (config : Config) (lineEnds : Nat) :
    read (config.text.toList ++ List.replicate lineEnds '\n') =
      if config.customValue.any (·.toList.any isSeparator) then .error (.value .notJson5)
      else .ok config := by
  have blanks : ∀ c ∈ List.replicate lineEnds '\n', isSpace c = true := by
    intro c hc
    rw [List.eq_of_mem_replicate hc]
    decide
  obtain ⟨_ | pattern, flag⟩ := config
  · have document : Document.ofTokens? (.openBrace :: flagTokens flag) =
        some (.object [flagMember flag]) := by
      cases flag <;> rfl
    rw [read_of_tokens (tokens?_text_none flag blanks) document, ofDocument_flag]
    rfl
  · have tokens := tokens?_text_some pattern flag blanks
    show _ = if pattern.toList.any isSeparator then _ else _
    split
    · rename_i separated
      rw [if_pos separated] at tokens
      rw [read, Document.read, tokens]
      rfl
    · rename_i plain
      rw [if_neg plain] at tokens
      have document : Document.ofTokens? (.openBrace :: keyToken .customValue :: .colon ::
          .string (pattern.toList.map writtenPart) :: .comma :: flagTokens flag) =
            some (.object [patternMember pattern, flagMember flag]) := by
        cases flag <;> rfl
      rw [read_of_tokens tokens document, ofDocument_pattern]

/-- A line separator is written into the text as it is. -/
theorem read_text_separator :
    read (text ⟨some "\u2028", false⟩).toList = .error (.value .notJson5) := by
  rfl

end MediaRange.Config
