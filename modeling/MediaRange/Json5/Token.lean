import MediaRange.Number.Numeral
import MediaRange.Unicode.Word

/-!
# JSON5 tokens

`Json5.tokens?` cuts a text into tokens. Words are kept as they are written: whether one is a key,
a number or a name such as `true` depends on where it stands. Strings keep the parts that they are
written with, because not every part means a character.
-/

namespace MediaRange.Json5

/-- A part of a string: a character, a character after a backslash, or a character code. -/
inductive StringPart where
  | literal (c : Char)
  | escaped (c : Char)
  | nul
  | hex (digits : List Char)
  | code (digits : List Char)
  deriving DecidableEq, Repr

inductive Token where
  | openBrace
  | closeBrace
  | openBracket
  | closeBracket
  | colon
  | comma
  | word (text : List Char)
  | string (parts : List StringPart)
  deriving DecidableEq, Repr

def isLineTerminator (c : Char) : Bool :=
  c = '\n' || c = '\r' || c = '\u2028' || c = '\u2029'

/-- The blanks between tokens: line terminators, tabs, the byte order mark and spaces. -/
def isSpace (c : Char) : Bool :=
  isLineTerminator c || c = '\t' || c = '\x0b' || c = '\x0c' || c = ' ' || c = '\u00a0' ||
    c = '\ufeff' || c = '\u1680' || ('\u2000' ≤ c && c ≤ '\u200a') || c = '\u202f' ||
    c = '\u205f' || c = '\u3000'

def isHexDigit (c : Char) : Bool := c.isDigit || ('a' ≤ c && c ≤ 'f') || ('A' ≤ c && c ≤ 'F')

def punctuation? : Char → Option Token
  | '{' => some .openBrace
  | '}' => some .closeBrace
  | '[' => some .openBracket
  | ']' => some .closeBracket
  | ':' => some .colon
  | ',' => some .comma
  | _ => none

/-- Where the lexer is. Texts and parts are kept last first. -/
inductive Lexer where
  | between
  | slash
  | lineComment
  | blockComment (starred : Bool)
  | word (text : List Char)
  | string (quote : Char) (parts : List StringPart)
  | escape (quote : Char) (parts : List StringPart)
  | hex (quote : Char) (parts : List StringPart) (digits : List Char)
  | code (quote : Char) (parts : List StringPart) (digits : List Char)
  | carriage (quote : Char) (parts : List StringPart)
  deriving DecidableEq, Repr

namespace Lexer

def start (c : Char) : List Token × Lexer :=
  if isSpace c then ([], between)
  else if c = '/' then ([], slash)
  else if c = '"' || c = '\'' then ([], string c [])
  else
    match punctuation? c with
    | some token => ([token], between)
    | none => ([], word [c])

def endsWord (c : Char) : Bool :=
  isSpace c || c = '/' || c = '"' || c = '\'' || (punctuation? c).isSome

/-- A character inside a string; line terminators have no place there. -/
def inString (quote : Char) (parts : List StringPart) (c : Char) : Option (List Token × Lexer) :=
  if c = quote then some ([.string parts.reverse], between)
  else if c = '\\' then some ([], escape quote parts)
  else if isLineTerminator c then none
  else some ([], string quote (.literal c :: parts))

/-- A character after a backslash. A line terminator continues the string on the next line, and
digits other than zero have no meaning. -/
def inEscape (quote : Char) (parts : List StringPart) (c : Char) : Option Lexer :=
  if c = '\r' then some (carriage quote parts)
  else if isLineTerminator c then some (string quote parts)
  else if c = '0' then some (string quote (.nul :: parts))
  else if c.isDigit then none
  else if c = 'x' then some (hex quote parts [])
  else if c = 'u' then some (code quote parts [])
  else some (string quote (.escaped c :: parts))

/-- Reads one character: the tokens that it completes, and what comes after it. -/
def step (lexer : Lexer) (c : Char) : Option (List Token × Lexer) :=
  match lexer with
  | between => some (start c)
  | slash =>
    if c = '/' then some ([], lineComment)
    else if c = '*' then some ([], blockComment false)
    else none
  | lineComment => some ([], if isLineTerminator c then between else lineComment)
  | blockComment starred =>
    some ([], if starred && c = '/' then between else blockComment (c = '*'))
  | word text =>
    if endsWord c then
      let (tokens, lexer) := start c
      some (.word text.reverse :: tokens, lexer)
    else some ([], word (c :: text))
  | string quote parts => inString quote parts c
  | escape quote parts => (inEscape quote parts c).map fun lexer => ([], lexer)
  | hex quote parts digits =>
    if !isHexDigit c then none
    else if digits.length = 1 then
      some ([], string quote (.hex (c :: digits).reverse :: parts))
    else some ([], hex quote parts (c :: digits))
  | code quote parts digits =>
    if !isHexDigit c then none
    else if digits.length = 3 then
      some ([], string quote (.code (c :: digits).reverse :: parts))
    else some ([], code quote parts (c :: digits))
  | carriage quote parts =>
    if c = '\n' then some ([], string quote parts) else inString quote parts c

/-- The tokens that the end of the text completes, if it may stand here. -/
def finish : Lexer → Option (List Token)
  | between | lineComment => some []
  | word text => some [.word text.reverse]
  | _ => none

/-- The tokens of the rest of a text. -/
def tokens? (lexer : Lexer) : List Char → Option (List Token)
  | [] => lexer.finish
  | c :: rest =>
    match lexer.step c with
    | none => none
    | some (done, lexer) => (lexer.tokens? rest).map (done ++ ·)

end Lexer

def tokens? (text : List Char) : Option (List Token) := Lexer.between.tokens? text

end MediaRange.Json5
