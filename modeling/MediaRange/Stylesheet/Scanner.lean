import MediaRange.Engine

/-!
# Finding rules in a stylesheet

`Scanner.pieces` cuts a stylesheet into the preludes of media rules and the characters between
them. It reads one character at a time and knows no more of the language than comments, strings
and escapes. `pieces_text` shows that the pieces are the text.
-/

namespace MediaRange

/-- What a character of a stylesheet is part of. After a slash a comment may start. -/
inductive Lexing where
  | plain
  | slash
  | comment (starred : Bool)
  | quoted (quote : Char)
  | quotedEscape (quote : Char)
  | escape
  deriving DecidableEq, Repr

namespace Lexing

/-- What follows a character that does not continue a token. -/
def fresh (c : Char) : Lexing :=
  if c = '/' then slash
  else if c = '"' || c = '\'' then quoted c
  else if c = '\\' then escape
  else plain

/-- What follows the next character. A string ends at its quote or before the end of the line, and
a backslash hides the character after it. -/
def next : Lexing → Char → Lexing
  | plain, c => fresh c
  | slash, c => if c = '*' then comment false else fresh c
  | comment starred, c => if starred && c = '/' then plain else comment (c = '*')
  | quoted quote, c =>
    if c = '\\' then quotedEscape quote
    else if c = quote || c = '\n' then plain
    else quoted quote
  | quotedEscape quote, _ => quoted quote
  | escape, _ => plain

/-- Whether the next character stands for itself, outside of comments, strings and escapes. -/
def isBare : Lexing → Char → Bool
  | plain, _ => true
  | slash, c => c ≠ '*'
  | _, _ => false

end Lexing

/-- A piece of a stylesheet: a character that stays, or the prelude of a media rule, which is the
text between the name of the rule and its block. -/
inductive Piece where
  | verbatim (c : Char)
  | prelude (name raw : List Char)
  deriving DecidableEq, Repr

def Piece.text : Piece → List Char
  | verbatim c => [c]
  | prelude _ raw => raw

/-- Where the scanner is. The text of a name or a prelude is kept last character first. -/
inductive Zone where
  | outside
  | name (read : List Char)
  | prelude (name read : List Char)
  deriving DecidableEq, Repr

structure Scanner where
  zone : Zone := .outside
  lexing : Lexing := .plain
  before : Option Char := none
  deriving DecidableEq, Repr

namespace Scanner

/-- A rule starts at the start of the text and after a blank, a brace, a semicolon or a slash;
only ASCII counts here. -/
def opensRule (before : Option Char) : Bool :=
  before.all fun c => [' ', '\t', '\n', '\x0c', '\r', '{', '}', ';', '/'].contains c

def isNameCharacter (c : Char) : Bool := c.isAlphanum || c = '-' || c = '_'

/-- A block, the end of the rule or the end of the block around it ends a prelude. -/
def endsPrelude (c : Char) : Bool := c = '{' || c = ';' || c = '}'

/-- A character outside of media rules. -/
def outsideStep (lexing : Lexing) (before : Option Char) (c : Char) : List Piece × Scanner :=
  if lexing.isBare c && c = '@' && opensRule before then
    ([.verbatim c], ⟨.name [], .plain, some c⟩)
  else ([.verbatim c], ⟨.outside, lexing.next c, some c⟩)

/-- A character in the prelude of a media rule. -/
def preludeStep (name read : List Char) (lexing : Lexing) (c : Char) : List Piece × Scanner :=
  if lexing.isBare c && endsPrelude c then
    ([.prelude name read.reverse, .verbatim c], ⟨.outside, lexing.next c, some c⟩)
  else ([], ⟨.prelude name (c :: read), lexing.next c, some c⟩)

/-- Reads one character: the pieces that it completes, and what comes after it. -/
def step (s : Scanner) (c : Char) : List Piece × Scanner :=
  match s.zone with
  | .outside => outsideStep s.lexing s.before c
  | .name read =>
    if isNameCharacter c then ([.verbatim c], ⟨.name (c :: read), .plain, some c⟩)
    else if isMediaRule read.reverse then preludeStep read.reverse [] .plain c
    else outsideStep .plain s.before c
  | .prelude name read => preludeStep name read s.lexing c

/-- The piece that the end of the text completes. -/
def finish (s : Scanner) : List Piece :=
  match s.zone with
  | .prelude name read => [.prelude name read.reverse]
  | _ => []

/-- The pieces of a text from a scanner on. -/
def pieces (s : Scanner) : List Char → List Piece
  | [] => s.finish
  | c :: rest =>
    let (done, s) := s.step c
    done ++ s.pieces rest

/-- The characters that have been read but belong to no piece yet. -/
def pending (s : Scanner) : List Char :=
  match s.zone with
  | .prelude _ read => read.reverse
  | _ => []

theorem outsideStep_text (lexing : Lexing) (before : Option Char) (c : Char) :
    (outsideStep lexing before c).1.flatMap Piece.text ++ (outsideStep lexing before c).2.pending =
      [c] := by
  unfold outsideStep; split <;> rfl

theorem preludeStep_text (name read : List Char) (lexing : Lexing) (c : Char) :
    (preludeStep name read lexing c).1.flatMap Piece.text ++
      (preludeStep name read lexing c).2.pending = read.reverse ++ [c] := by
  unfold preludeStep; split <;> simp [Piece.text, pending]

theorem step_text (s : Scanner) (c : Char) :
    (s.step c).1.flatMap Piece.text ++ (s.step c).2.pending = s.pending ++ [c] := by
  obtain ⟨zone, lexing, before⟩ := s
  cases zone with
  | outside => exact outsideStep_text lexing before c
  | name read =>
    simp only [step]
    split
    · rfl
    · split
      · exact preludeStep_text read.reverse [] .plain c
      · exact outsideStep_text .plain before c
  | prelude name read => exact preludeStep_text name read lexing c

/-- The pieces of a text are what was pending and the text. -/
theorem pieces_text (s : Scanner) (text : List Char) :
    (s.pieces text).flatMap Piece.text = s.pending ++ text := by
  induction text generalizing s with
  | nil => obtain ⟨zone, _, _⟩ := s; cases zone <;> simp [pieces, finish, pending, Piece.text]
  | cons c rest ih =>
    simp only [pieces, List.flatMap_append, ih]
    rw [← List.append_assoc, step_text, List.append_assoc, List.singleton_append]

end Scanner

end MediaRange
