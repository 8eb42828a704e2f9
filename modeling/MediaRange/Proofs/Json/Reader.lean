import MediaRange.Json
import MediaRange.Json5.Literal

/-!
# Reading JSON texts

`Json.read?` reads a JSON text as its standard has it: blanks anywhere between tokens, all escapes,
characters outside of the basic plane as pairs of surrogates, and nothing but blanks after the
value. Numbers are whole, as all those that are reported.
-/

namespace MediaRange.Json

open Json5 (isHexDigit hexDigitsValue isLeadSurrogate isTrailSurrogate surrogatePair)

def isSpace (c : Char) : Bool := c = ' ' || c = '\t' || c = '\n' || c = '\r'

def skipSpace (text : List Char) : List Char := text.dropWhile isSpace

/-! ### Strings -/

def shortEscape? : Char → Option Char
  | '"' => some '"'
  | '\\' => some '\\'
  | '/' => some '/'
  | 'b' => some '\x08'
  | 'f' => some '\x0c'
  | 'n' => some '\n'
  | 'r' => some '\r'
  | 't' => some '\t'
  | _ => none

def readUnit? : List Char → Option (Nat × List Char)
  | a :: b :: c :: d :: rest =>
    if [a, b, c, d].all isHexDigit then some (hexDigitsValue [a, b, c, d], rest) else none
  | _ => none

/-- The character of a code. A lead surrogate needs its trail surrogate right after it. -/
def readCode? (text : List Char) : Option (Char × List Char) := do
  let (unit, rest) ← readUnit? text
  if isTrailSurrogate unit then none
  else if isLeadSurrogate unit then
    match rest with
    | '\\' :: 'u' :: rest => do
      let (trail, rest) ← readUnit? rest
      if isTrailSurrogate trail then some (surrogatePair unit trail, rest) else none
    | _ => none
  else some (Char.ofNat unit, rest)

def readEscape? : List Char → Option (Char × List Char)
  | [] => none
  | c :: rest =>
    if c = 'u' then readCode? rest else (shortEscape? c).map fun escaped => (escaped, rest)

/-- One character of a string, which may be escaped. Controls must be. -/
def readCharacter? : List Char → Option (Char × List Char)
  | [] => none
  | c :: rest =>
    if c = '\\' then readEscape? rest
    else if c.toNat < 0x20 then none
    else some (c, rest)

def readCharacters? : Nat → List Char → Option (List Char × List Char)
  | 0, _ => none
  | fuel + 1, text =>
    if text.head? = some '"' then some ([], text.tail)
    else do
      let (c, rest) ← readCharacter? text
      let (cs, rest) ← readCharacters? fuel rest
      return (c :: cs, rest)

def readString? (text : List Char) : Option (String × List Char) :=
  (readCharacters? text.length text).map fun (cs, rest) => (String.ofList cs, rest)

/-! ### Numbers and words -/

/-- Digits, of which a zero in front stands alone. -/
def readDigits? (text : List Char) : Option (Nat × List Char) :=
  let digits := text.takeWhile Char.isDigit
  if digits.isEmpty || (digits.head? = some '0' && digits.length ≠ 1) then none
  else some (Nat.ofDigitChars 10 digits 0, text.dropWhile Char.isDigit)

def startsNumber (c : Char) : Bool := c = '-' || c.isDigit

def readNumber? (text : List Char) : Option (Int × List Char) :=
  if text.head? = some '-' then
    (readDigits? text.tail).map fun (magnitude, rest) => (-(magnitude : Int), rest)
  else (readDigits? text).map fun (magnitude, rest) => ((magnitude : Int), rest)

def words : List (List Char × Json) :=
  [("null".toList, null), ("true".toList, bool true), ("false".toList, bool false)]

def readWord? (text : List Char) : Option (Json × List Char) :=
  words.findSome? fun (word, value) =>
    if word.isPrefixOf text then some (value, text.drop word.length) else none

/-! ### Values -/

def readKey? (text : List Char) : Option (String × List Char) :=
  match skipSpace text with
  | '"' :: rest => do
    let (key, rest) ← readString? rest
    match skipSpace rest with
    | ':' :: rest => return (key, rest)
    | _ => none
  | _ => none

mutual

def readValue? : Nat → List Char → Option (Json × List Char)
  | 0, _ => none
  | fuel + 1, text =>
    match skipSpace text with
    | [] => none
    | c :: rest =>
      if c = '"' then (readString? rest).map fun (s, rest) => (string s, rest)
      else if c = '[' then
        if (skipSpace rest).head? = some ']' then some (array [], (skipSpace rest).tail)
        else (readItems? fuel rest).map fun (items, rest) => (array items, rest)
      else if c = '\x7b' then
        if (skipSpace rest).head? = some '\x7d' then some (object [], (skipSpace rest).tail)
        else (readMembers? fuel rest).map fun (members, rest) => (object members, rest)
      else if startsNumber c then
        (readNumber? (c :: rest)).map fun (value, rest) => (number value, rest)
      else readWord? (c :: rest)

/-- Items up to the closing bracket, of which there is at least one. -/
def readItems? : Nat → List Char → Option (List Json × List Char)
  | 0, _ => none
  | fuel + 1, text => do
    let (item, rest) ← readValue? fuel text
    match skipSpace rest with
    | ',' :: rest => do
      let (items, rest) ← readItems? fuel rest
      return (item :: items, rest)
    | ']' :: rest => return ([item], rest)
    | _ => none

/-- Members up to the closing brace, of which there is at least one. -/
def readMembers? : Nat → List Char → Option (List (String × Json) × List Char)
  | 0, _ => none
  | fuel + 1, text => do
    let (key, rest) ← readKey? text
    let (value, rest) ← readValue? fuel rest
    match skipSpace rest with
    | ',' :: rest => do
      let (members, rest) ← readMembers? fuel rest
      return ((key, value) :: members, rest)
    | '\x7d' :: rest => return ([(key, value)], rest)
    | _ => none

end

def read? (text : String) : Option Json := do
  let (value, rest) ← readValue? text.length text.toList
  if (skipSpace rest).isEmpty then some value else none

/-! ### Parts of a value -/

def member? (key : String) : Json → Option Json
  | object members => (members.find? fun member => member.1 = key).map Prod.snd
  | _ => none

end MediaRange.Json
