import MediaRange.Json5.Token
import MediaRange.Number.Shortest

/-!
# JSON5 literals

What the words and strings of a JSON5 text mean. `NumberLiteral.value` and `stringValue` tell the
number and the text, or why there is none: not everything that can be written has a value.
-/

namespace MediaRange.Json5

/-- Why a text has no value. -/
inductive ValueError where
  | notJson5
  | integer
  | hex
  | number
  | numberTooLarge
  | missingTrailSurrogate
  | expectedTrailSurrogate
  | unexpectedTrailSurrogate
  deriving DecidableEq, Repr

/-- The diagnosis of a text that is no JSON5 is not worded: a fixed placeholder stands for it. -/
def ValueError.message : ValueError → String
  | notJson5 => "<json5 syntax error>"
  | integer => "error parsing integer"
  | hex => "error parsing hex"
  | number => "error parsing number"
  | numberTooLarge => "error parsing number: too large"
  | missingTrailSurrogate => "missing unicode trail surrogate"
  | expectedTrailSurrogate => "expecting unicode trail surrogate"
  | unexpectedTrailSurrogate => "unexpected unicode trail surrogate"

/-! ### Numbers -/

inductive Sign where
  | plus
  | minus
  deriving DecidableEq, Repr

inductive NumberForm where
  | hex (digits : List Char)
  | infinity
  | nan
  | decimal (whole : List Char) (fraction : Option (List Char)) (exponent : Option (Bool × List Char))
  deriving DecidableEq, Repr

structure NumberLiteral where
  sign : Option Sign
  form : NumberForm
  deriving DecidableEq, Repr

namespace NumberLiteral

/-- An exponent part, with whether it is negative, or nothing. -/
def exponent? : List Char → Option (Option (Bool × List Char))
  | [] => some none
  | e :: rest =>
    if e ≠ 'e' && e ≠ 'E' then none
    else
      let (negative, digits) := match rest with
        | '+' :: digits => (false, digits)
        | '-' :: digits => (true, digits)
        | digits => (false, digits)
      if digits.isEmpty || !digits.all Char.isDigit then none else some (some (negative, digits))

/-- A decimal number. Digits stand on at least one side of the point, and a zero in front stands
alone. -/
def decimal? (text : List Char) : Option NumberForm :=
  let whole := text.takeWhile Char.isDigit
  if whole.head? = some '0' && whole.length ≠ 1 then none
  else
    match text.dropWhile Char.isDigit with
    | '.' :: rest =>
      let fraction := rest.takeWhile Char.isDigit
      if whole.isEmpty && fraction.isEmpty then none
      else (exponent? (rest.dropWhile Char.isDigit)).map (.decimal whole (some fraction))
    | rest => if whole.isEmpty then none else (exponent? rest).map (.decimal whole none)

def form? (text : List Char) : Option NumberForm :=
  match text with
  | '0' :: 'x' :: digits | '0' :: 'X' :: digits =>
    if digits.isEmpty || !digits.all isHexDigit then none else some (.hex digits)
  | text =>
    if text = "Infinity".toList then some .infinity
    else if text = "NaN".toList then some .nan
    else decimal? text

def of? (text : List Char) : Option NumberLiteral :=
  match text with
  | '+' :: rest => (form? rest).map (⟨some .plus, ·⟩)
  | '-' :: rest => (form? rest).map (⟨some .minus, ·⟩)
  | rest => (form? rest).map (⟨none, ·⟩)

end NumberLiteral

/-- A number: whole ones are exact, all others doubles. The sign of a zero counts. -/
inductive Number where
  | integer (value : Int)
  | real (negative : Bool) (magnitude : Binary64)
  | nan
  deriving DecidableEq

def digitValue (c : Char) : Nat :=
  if c.isDigit then c.toNat - '0'.toNat
  else if 'a' ≤ c && c ≤ 'f' then c.toNat - 'a'.toNat + 10
  else c.toNat - 'A'.toNat + 10

def hexDigitsValue (digits : List Char) : Nat :=
  digits.foldl (fun n c => n * 16 + digitValue c) 0

namespace NumberLiteral

/-- The whole number, if it fits into 64 bits. -/
def integerValue (negative : Bool) (digits : List Char) : Except ValueError Number :=
  let magnitude : Int := digitsValue digits
  let value := if negative then -magnitude else magnitude
  if -0x8000000000000000 ≤ value && value < 0x8000000000000000 then .ok (.integer value)
  else .error .integer

def realValue (negative : Bool) (whole fraction : List Char)
    (exponent : Option (Bool × List Char)) : Except ValueError Number :=
  let power : Int := match exponent with
    | none => 0
    | some (negative, digits) =>
      let size : Int := digitsValue digits
      if negative then -size else size
  match Binary64.ofDecimal (digitsValue (whole ++ fraction)) (power - fraction.length) with
  | .infinite _ => .error .numberTooLarge
  | magnitude => .ok (.real negative magnitude)

/-- The number that a literal stands for. A sign makes hexadecimal digits unreadable, as it does a
`+` before a word, and hexadecimal numbers have at most 32 bits. -/
def value (n : NumberLiteral) : Except ValueError Number :=
  match n.form, n.sign with
  | .hex digits, none =>
    let value := hexDigitsValue digits
    if value < 0x100000000 then .ok (.integer value) else .error .hex
  | .hex digits, some _ =>
    if digits.any fun c => c = 'e' || c = 'E' then .error .number else .error .integer
  | .infinity, some .plus | .nan, some .plus => .error .integer
  | .infinity, sign => .ok (.real (sign = some .minus) (.infinite false))
  | .nan, _ => .ok .nan
  | .decimal whole none none, sign => integerValue (sign = some .minus) whole
  | .decimal whole fraction exponent, sign =>
    realValue (sign = some .minus) whole (fraction.getD []) exponent

end NumberLiteral

/-! ### Strings and keys -/

/-- The character that a backslash and a letter stand for. -/
def unescaped : Char → Char
  | 'b' => '\x08'
  | 'f' => '\x0c'
  | 'n' => '\n'
  | 'r' => '\r'
  | 't' => '\t'
  | 'v' => '\x0b'
  | c => c

/-- The characters that a part is written with, but for the backslash and its letter. -/
def StringPart.source : StringPart → List Char
  | literal c | escaped c => [c]
  | nul => ['0']
  | hex digits | code digits => digits

def isTrailSurrogate (n : Nat) : Bool := 0xDC00 ≤ n && n ≤ 0xDFFF

def isLeadSurrogate (n : Nat) : Bool := 0xD800 ≤ n && n ≤ 0xDBFF

def surrogatePair (lead trail : Nat) : Char :=
  Char.ofNat ((lead - 0xD800) * 0x400 + (trail - 0xDC00) + 0x10000)

/-- The text that the parts of a string stand for. After a lead surrogate the next part is read as
the digits of the trail surrogate, whatever it is. -/
def partsValue : List StringPart → Except ValueError (List Char)
  | [] => .ok []
  | part :: parts =>
    match part with
    | .literal c => (partsValue parts).map (c :: ·)
    | .escaped c => (partsValue parts).map (unescaped c :: ·)
    | .nul => (partsValue parts).map ('\x00' :: ·)
    | .hex digits => (partsValue parts).map (Char.ofNat (hexDigitsValue digits) :: ·)
    | .code digits =>
      let unit := hexDigitsValue digits
      if isTrailSurrogate unit then .error .unexpectedTrailSurrogate
      else if isLeadSurrogate unit then
        match parts with
        | [] => .error .missingTrailSurrogate
        | next :: parts =>
          if !next.source.all isHexDigit then .error .hex
          else
            let trail := hexDigitsValue next.source
            if isTrailSurrogate trail then
              (partsValue parts).map (surrogatePair unit trail :: ·)
            else .error .expectedTrailSurrogate
      else (partsValue parts).map (Char.ofNat unit :: ·)

def stringValue (parts : List StringPart) : Except ValueError String :=
  (partsValue parts).map String.ofList

def isKeyStart (c : Char) : Bool := Unicode.isLetter c || c = '$' || c = '_'

def isKeyCharacter (c : Char) : Bool :=
  isKeyStart c || Unicode.isNonspacing c || Unicode.isSpacing c || Unicode.isDigit c ||
    Unicode.isConnector c || Unicode.isJoiner c

/-- The parts of a key that is a word. Character codes may stand anywhere in it. -/
def keyParts? (first : Bool) : List Char → Option (List StringPart)
  | [] => if first then none else some []
  | '\\' :: 'u' :: a :: b :: c :: d :: rest =>
    if [a, b, c, d].all isHexDigit then
      (keyParts? false rest).map (.code [a, b, c, d] :: ·)
    else none
  | c :: rest =>
    if isKeyStart c || (!first && isKeyCharacter c) then
      (keyParts? false rest).map (.literal c :: ·)
    else none

end MediaRange.Json5
