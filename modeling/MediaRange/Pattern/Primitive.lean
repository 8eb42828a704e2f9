import MediaRange.Pattern.Basic

/-!
# The written form of patterns: flags and escapes

The parts of the notation that stand both inside and outside a bracketed class. `Escape.read`
takes one character of an escape sequence at a time. The escapes of Unicode properties, `\p` and
`\P`, are left out: they are refused as unknown ones.
-/

namespace MediaRange

/-- Why a text is not a pattern. -/
inductive PatternError where
  | unclosedGroup
  | unopenedGroup
  | unclosedClass
  | unclosedCount
  | missingOperand
  | countTooLarge
  | countsReversed
  | rangeReversed
  | rangeOfClasses
  | lookInClass
  | lookAround
  | badGroupName
  | duplicateName
  | badFlag
  | unfinishedEscape
  | unknownEscape
  | backReference
  | badCharacterCode
  | unknownBoundary
  | patternTooLarge
  | nestedTooDeep
  deriving DecidableEq, Repr

/-- The diagnosis is not worded: a fixed placeholder stands for it. -/
def PatternError.message (_ : PatternError) : String := "<regex error>"

/-- How the pattern is read from here on. -/
structure PatternFlags where
  ignoreCase : Bool := false
  multiLine : Bool := false
  dotAll : Bool := false
  swapGreed : Bool := false
  extended : Bool := false
  deriving DecidableEq, Repr

namespace Pattern

/-- A unit of the notation that is not a group or a class. -/
inductive Primitive where
  | literal (c : Char)
  | set (s : CharSet)
  | look (l : Look)

/-- A literal character, with its case variants if case is ignored and there are any. -/
def literalSet (ignoreCase : Bool) (c : Char) : CharSet :=
  if ignoreCase && (Unicode.caseVariants c).length ≠ 1 then .folded (.single c) else .single c

/-- The pattern of a primitive. Named classes are closed under case variants already. -/
def Primitive.pattern (flags : PatternFlags) : Primitive → Pattern
  | literal c => .one (literalSet flags.ignoreCase c)
  | set s => .one s
  | look l => .look l

def dot (flags : PatternFlags) : Primitive :=
  .set (if flags.dotAll then .all else .notNewline)

def caret (flags : PatternFlags) : Primitive :=
  .look (if flags.multiLine then .lineStart else .textStart)

def dollar (flags : PatternFlags) : Primitive :=
  .look (if flags.multiLine then .lineEnd else .textEnd)

/-- How deep a list of units nests as a unit, by the depths of these. It is a level of its own if
there are several of them. -/
def listDepth (depths : List Nat) : Nat :=
  depths.foldl max 0 + if depths.length ≤ 1 then 0 else 1

/-! ### Escape sequences -/

/-- What has been read of an escape sequence. A character code is given by a fixed number of
hexadecimal digits or by any number of them in braces. -/
inductive Escape where
  | opened
  | code (width : Nat)
  | digits (left value : Nat)
  | braced (count value : Nat)

def hexValue? (c : Char) : Option Nat :=
  if '0' ≤ c && c ≤ '9' then some (c.toNat - '0'.toNat)
  else if 'a' ≤ c && c ≤ 'f' then some (c.toNat - 'a'.toNat + 10)
  else if 'A' ≤ c && c ≤ 'F' then some (c.toNat - 'A'.toNat + 10)
  else none

/-- The character with a code; surrogates and numbers beyond the last code point have none. -/
def charOfCode? (n : Nat) : Option Char := if n.isValidChar then some (Char.ofNat n) else none

namespace Escape

/-- The characters that stand for themselves after a backslash: ASCII, but neither letters nor
digits nor angle brackets. -/
def isPunctuation (c : Char) : Bool :=
  c.toNat < 0x80 && !c.isAlphanum && c ≠ '<' && c ≠ '>'

/-- The escapes of one letter but for those of properties, and the two of an angle bracket. -/
def named? : Char → Option Primitive
  | 'a' => some (.literal '\x07')
  | 'f' => some (.literal '\x0c')
  | 't' => some (.literal '\t')
  | 'n' => some (.literal '\n')
  | 'r' => some (.literal '\r')
  | 'v' => some (.literal '\x0b')
  | 'd' => some (.set .digit)
  | 'D' => some (.set (.compl .digit))
  | 's' => some (.set .blank)
  | 'S' => some (.set (.compl .blank))
  | 'w' => some (.set .word)
  | 'W' => some (.set (.compl .word))
  | 'A' => some (.look .textStart)
  | 'z' => some (.look .textEnd)
  | 'b' => some (.look .wordBoundary)
  | 'B' => some (.look .notWordBoundary)
  | '<' => some (.look .wordStart)
  | '>' => some (.look .wordEnd)
  | _ => none

def literalOfCode (n : Nat) : Except PatternError (Escape ⊕ Primitive) :=
  match charOfCode? n with
  | some c => .ok (.inr (.literal c))
  | none => .error .badCharacterCode

def digit (left value : Nat) (c : Char) : Except PatternError (Escape ⊕ Primitive) :=
  match hexValue? c with
  | none => .error .badCharacterCode
  | some d =>
    if left ≤ 1 then literalOfCode (value * 16 + d)
    else .ok (.inl (.digits (left - 1) (value * 16 + d)))

/-- Reads one character of an escape sequence, which goes on or is complete. -/
def read (escape : Escape) (c : Char) : Except PatternError (Escape ⊕ Primitive) :=
  match escape with
  | opened =>
    if c.isDigit then .error .backReference
    else if isPunctuation c then .ok (.inr (.literal c))
    else match c with
      | 'x' => .ok (.inl (.code 2))
      | 'u' => .ok (.inl (.code 4))
      | 'U' => .ok (.inl (.code 8))
      | c =>
        match named? c with
        | some primitive => .ok (.inr primitive)
        | none => .error .unknownEscape
  | code width => if c = '{' then .ok (.inl (.braced 0 0)) else digit width 0 c
  | digits left value => digit left value c
  | braced count value =>
    if c = '}' then
      if count = 0 then .error .badCharacterCode else literalOfCode value
    else match hexValue? c with
      | some d => .ok (.inl (.braced (count + 1) (value * 16 + d)))
      | none => .error .badCharacterCode

end Escape

end Pattern

end MediaRange
