import MediaRange.Pattern.Class

/-!
# Reading patterns

`Pattern.read?` reads the written form of a pattern one character at a time. What has been read is
kept as the open groups, the innermost one apart, and a mode for a unit that is incomplete. A step
changes the innermost group only, but for a parenthesis, which opens or closes one.

A fragment of the notation is read. Classes of a Unicode property (`\p`, `\P`) are refused, and so
are `(?-u)`, which switches Unicode off, and the flag `R` for lines that end in a carriage return.
The limit on the size of a pattern is an approximation; the limit on the depth of its notation is
exact.
-/

namespace MediaRange.Pattern

/-- A pattern that has been read, and how deep its notation nests. -/
structure Part where
  pattern : Pattern
  depth : Nat := 0

/-- A unit of an alternative. Setting flags is one too, but it cannot be repeated. -/
inductive Item where
  | part (p : Part)
  | flags

namespace Item

def pattern? : Item → Option Pattern
  | part p => some p.pattern
  | flags => none

def depth : Item → Nat
  | part p => p.depth
  | flags => 0

end Item

/-- An open group: the flags outside of it, its name, the alternatives that are complete and the
items of the current one, last first. -/
structure OpenGroup where
  outside : PatternFlags := {}
  name : Option String := none
  alternatives : List Part := []
  items : List Item := []

namespace OpenGroup

def push (g : OpenGroup) (item : Item) : OpenGroup := { g with items := item :: g.items }

def current (g : OpenGroup) : Part :=
  ⟨sequence (g.items.filterMap Item.pattern?).reverse, listDepth (g.items.map Item.depth)⟩

def alternate (g : OpenGroup) : OpenGroup :=
  { g with alternatives := g.current :: g.alternatives, items := [] }

/-- The choice in the group, with its marks if it has a name. -/
def part (g : OpenGroup) : Part :=
  let alternatives := g.current :: g.alternatives
  let body := choice (alternatives.map Part.pattern).reverse
  { pattern := match g.name with
      | some name => Pattern.group name body
      | none => body
    depth := listDepth (alternatives.map Part.depth) }

end OpenGroup

/-- What has been read of the counts in braces. -/
inductive Counts where
  | low (value : Option Nat)
  | lowDone (value : Nat)
  | high (low : Nat) (value : Option Nat)
  | highBlank (low : Nat)
  | highDone (low high : Nat)

/-- How often a unit is repeated: at least `low` times, and at most `high` times if that is set. -/
structure Rounds where
  low : Nat
  high : Option Nat

namespace Counts

def limit : Nat := 0xFFFFFFFF

def digit? (value : Option Nat) (c : Char) : Option Nat :=
  if c.isDigit then some (value.getD 0 * 10 + (c.toNat - '0'.toNat)) else none

def complete (low high : Nat) : Except PatternError (Counts ⊕ Rounds) :=
  if low ≤ high then .ok (.inr ⟨low, some high⟩) else .error .countsReversed

/-- Reads one character of the counts. Blanks may surround a number. -/
def read (counts : Counts) (c : Char) : Except PatternError (Counts ⊕ Rounds) :=
  match counts with
  | low value =>
    match digit? value c, value with
    | some n, _ => if n ≤ limit then .ok (.inl (low (some n))) else .error .countTooLarge
    | none, none => if Unicode.isBlank c then .ok (.inl (low none)) else .error .unclosedCount
    | none, some n => lowDone? n
  | lowDone n => lowDone? n
  | high least value =>
    match digit? value c, value with
    | some n, _ => if n ≤ limit then .ok (.inl (high least (some n))) else .error .countTooLarge
    | none, none =>
      if c = '}' then .ok (.inr ⟨least, none⟩)
      else if Unicode.isBlank c then .ok (.inl (highBlank least))
      else .error .unclosedCount
    | none, some n => highDone? least n
  | highBlank least =>
    match digit? none c with
    | some n => .ok (.inl (high least (some n)))
    | none =>
      if Unicode.isBlank c then .ok (.inl (highBlank least)) else .error .unclosedCount
  | highDone least n => highDone? least n
where
  lowDone? (n : Nat) : Except PatternError (Counts ⊕ Rounds) :=
    if c = ',' then .ok (.inl (high n none))
    else if c = '}' then complete n n
    else if Unicode.isBlank c then .ok (.inl (lowDone n))
    else .error .unclosedCount
  highDone? (least n : Nat) : Except PatternError (Counts ⊕ Rounds) :=
    if c = '}' then complete least n
    else if Unicode.isBlank c then .ok (.inl (highDone least n))
    else .error .unclosedCount

end Counts

namespace Rounds

/-- The largest number of nodes of a repeated pattern. It approximates a limit on the memory of the
compiled pattern, which depends on the sets in it too. -/
def sizeLimit : Nat := 250000

def pattern (rounds : Rounds) (greedy : Bool) (p : Pattern) : Pattern :=
  match rounds.high with
  | some high =>
    if rounds.low = high then times p high else between greedy p rounds.low high
  | none => atLeast greedy p rounds.low

def fits (rounds : Rounds) (p : Pattern) : Bool :=
  p.size * max rounds.low (rounds.high.getD 0) ≤ sizeLimit

end Rounds

/-- Flags that are being set: those read so far, and whether the next ones are switched off. -/
structure FlagSetting where
  flags : PatternFlags
  seen : List Char := []
  negated : Bool := false
  dangling : Bool := false

/-- Reads one flag, or the dash before the flags to switch off. Each may occur once. The flag `u`
cannot be switched off, and `R` is refused. -/
def FlagSetting.read (s : FlagSetting) (c : Char) : Except PatternError FlagSetting :=
  if s.seen.contains c then .error .badFlag
  else
    let on := !s.negated
    let seen := c :: s.seen
    let set (flags : PatternFlags) : Except PatternError FlagSetting :=
      .ok { s with flags, seen, dangling := false }
    match c with
    | '-' => .ok { s with seen, negated := true, dangling := true }
    | 'i' => set { s.flags with ignoreCase := on }
    | 'm' => set { s.flags with multiLine := on }
    | 's' => set { s.flags with dotAll := on }
    | 'U' => set { s.flags with swapGreed := on }
    | 'x' => set { s.flags with extended := on }
    | 'u' => if on then set s.flags else .error .badFlag
    | _ => .error .badFlag

/-- The unit that is incomplete. -/
inductive Mode where
  | plain
  | quantified (p : Part) (rounds : Rounds) (counted : Bool)
  | counts (p : Part) (counts : Counts)
  | escape (escape : Escape)
  | boundary
  | boundaryBrace
  | boundaryName (name : List Char)
  | group
  | groupMark
  | groupAngle
  | groupLetter
  | groupName (name : List Char)
  | groupFlags (setting : FlagSetting)
  | bracket (reader : ClassReader)

/-- What has been read of a pattern. -/
structure Reader where
  flags : PatternFlags
  inner : OpenGroup := {}
  outer : List OpenGroup := []
  names : List String := []
  comment : Bool := false
  mode : Mode := .plain

namespace Reader

def push (r : Reader) (item : Item) : Reader :=
  { r with inner := r.inner.push item, mode := .plain }

def pushPrimitive (r : Reader) (primitive : Primitive) : Reader :=
  r.push (.part ⟨primitive.pattern r.flags, 0⟩)

/-! ### Groups -/

/-- Opens a group, inside of which other flags may hold. -/
def openGroup (r : Reader) (name : Option String) (flags : PatternFlags) : Reader :=
  { r with
    flags, mode := .plain
    inner := { outside := r.flags, name }
    outer := r.inner :: r.outer }

/-- Closes the innermost group, which is a level of its own; the flags outside of it hold again. -/
def closeGroup (r : Reader) : Except PatternError Reader :=
  match r.outer with
  | [] => .error .unopenedGroup
  | next :: outer =>
    .ok { r with
      flags := r.inner.outside, mode := .plain
      inner := next.push (.part ⟨r.inner.part.pattern, r.inner.part.depth + 1⟩)
      outer }

/-- A group name is a word that starts with a letter or an underscore; dots and brackets may
stand in it too. -/
def isNameCharacter (first : Bool) (c : Char) : Bool :=
  if first then c = '_' || Unicode.isLetter c
  else Unicode.isWord c || c = '.' || c = '[' || c = ']'

/-- A character of a group name, of which `name` has been read. -/
def nameCharacter (r : Reader) (name : List Char) (c : Char) : Except PatternError Reader :=
  if c = '>' then
    let text := String.ofList name
    if name.isEmpty then .error .badGroupName
    else if r.names.contains text then .error .duplicateName
    else .ok ({ r with names := text :: r.names }.openGroup (some text) r.flags)
  else if isNameCharacter name.isEmpty c then .ok { r with mode := .groupName (name ++ [c]) }
  else .error .badGroupName

/-- A character where flags may stand; a colon opens a group under them, and a parenthesis sets
them for the rest of the group around. -/
def flagCharacter (r : Reader) (s : FlagSetting) (c : Char) : Except PatternError Reader :=
  match c with
  | ':' => if s.dangling then .error .badFlag else .ok (r.openGroup none s.flags)
  | ')' =>
    if s.seen.isEmpty then .error .missingOperand
    else if s.dangling then .error .badFlag
    else .ok { r.push .flags with flags := s.flags }
  | c => do return { r with mode := .groupFlags (← s.read c) }

/-! ### Repetition -/

/-- Takes the last unit of the alternative to repeat it. -/
def operand (r : Reader) : Except PatternError (Part × Reader) :=
  match r.inner.items with
  | .part p :: items => .ok (p, { r with inner := { r.inner with items } })
  | _ => .error .missingOperand

def quantify (r : Reader) (rounds : Rounds) : Except PatternError Reader := do
  let (p, r) ← r.operand
  return { r with mode := .quantified p rounds false }

/-- Completes a repetition, a level of its own, once it is known whether it is greedy. -/
def complete (r : Reader) (p : Part) (rounds : Rounds) (greedy : Bool) :
    Except PatternError Reader :=
  if rounds.fits p.pattern then
    .ok (r.push
      (.part ⟨rounds.pattern (greedy != r.flags.swapGreed) p.pattern, p.depth + 1⟩))
  else .error .patternTooLarge

/-! ### Characters -/

/-- A character where a unit may start. -/
def plain (r : Reader) (c : Char) : Except PatternError Reader :=
  match c with
  | '(' => .ok { r with mode := .group }
  | ')' => r.closeGroup
  | '|' => .ok { r with inner := r.inner.alternate, mode := .plain }
  | '[' => .ok { r with mode := .bracket {} }
  | '?' => r.quantify ⟨0, some 1⟩
  | '*' => r.quantify ⟨0, none⟩
  | '+' => r.quantify ⟨1, none⟩
  | '{' => do
    let (p, r) ← r.operand
    return { r with mode := .counts p (.low none) }
  | '\\' => .ok { r with mode := .escape .opened }
  | '.' => .ok (r.pushPrimitive (dot r.flags))
  | '^' => .ok (r.pushPrimitive (caret r.flags))
  | '$' => .ok (r.pushPrimitive (dollar r.flags))
  | c => .ok (r.pushPrimitive (.literal c))

/-- Whether blanks and comments are skipped here when the notation is extended. -/
def skipsBlanks (r : Reader) : Bool :=
  r.flags.extended &&
    match r.mode with
    | .plain | .group | .counts _ _ | .quantified _ _ true | .boundaryBrace => true
    | .bracket reader => reader.skipsBlanks
    | .escape .opened => false
    | .escape _ => true
    | _ => false

/-- A character where a unit may start, unless it is skipped. -/
def start (r : Reader) (c : Char) : Except PatternError Reader :=
  if r.flags.extended && Unicode.isBlank c then .ok { r with mode := .plain }
  else if r.flags.extended && c = '#' then .ok { r with mode := .plain, comment := true }
  else r.plain c

/-- The conditions written `\b{name}`. -/
def namedBoundary? (name : String) : Option Look :=
  match name with
  | "start" => some .wordStart
  | "end" => some .wordEnd
  | "start-half" => some .wordStartHalf
  | "end-half" => some .wordEndHalf
  | _ => none

def isBoundaryLetter (c : Char) : Bool := c.isAlpha || c = '-'

/-- A character in the mode that the reader is in. -/
def character (r : Reader) (c : Char) : Except PatternError Reader :=
  match r.mode with
  | .plain => r.start c
  | .quantified p rounds _ =>
    if c = '?' then r.complete p rounds false
    else do (← r.complete p rounds true).start c
  | .counts p counts =>
    match counts.read c with
    | .error e => .error e
    | .ok (.inl counts) => .ok { r with mode := .counts p counts }
    | .ok (.inr rounds) => .ok { r with mode := .quantified p rounds true }
  | .escape escape =>
    match escape.read c with
    | .error e => .error e
    | .ok (.inl escape) => .ok { r with mode := .escape escape }
    | .ok (.inr (.look .wordBoundary)) => .ok { r with mode := .boundary }
    | .ok (.inr primitive) => .ok (r.pushPrimitive primitive)
  | .boundary =>
    if c = '{' then .ok { r with mode := .boundaryBrace }
    else (r.pushPrimitive (.look .wordBoundary)).start c
  | .boundaryBrace =>
    if isBoundaryLetter c then .ok { r with mode := .boundaryName [c] }
    else do
      let counts ← (Counts.low none).read c
      match counts with
      | .inl counts => return { r with mode := .counts ⟨.look .wordBoundary, 0⟩ counts }
      | .inr rounds => return { r with mode := .quantified ⟨.look .wordBoundary, 0⟩ rounds true }
  | .boundaryName name =>
    if isBoundaryLetter c then .ok { r with mode := .boundaryName (name ++ [c]) }
    else if c = '}' then
      match namedBoundary? (String.ofList name) with
      | some l => .ok (r.pushPrimitive (.look l))
      | none => .error .unknownBoundary
    else .error .unknownBoundary
  | .group =>
    if c = '?' then .ok { r with mode := .groupMark }
    else (r.openGroup none r.flags).start c
  | .groupMark =>
    match c with
    | '=' | '!' => .error .lookAround
    | '<' => .ok { r with mode := .groupAngle }
    | 'P' => .ok { r with mode := .groupLetter }
    | c => r.flagCharacter ⟨r.flags, [], false, false⟩ c
  | .groupAngle =>
    if c = '=' || c = '!' then .error .lookAround else r.nameCharacter [] c
  | .groupLetter => if c = '<' then .ok { r with mode := .groupName [] } else .error .badFlag
  | .groupName name => r.nameCharacter name c
  | .groupFlags setting => r.flagCharacter setting c
  | .bracket reader =>
    match reader.read r.flags.ignoreCase c with
    | .error e => .error e
    | .ok (.inl reader) => .ok { r with mode := .bracket reader }
    | .ok (.inr cls) => .ok (r.push (.part ⟨.one cls.set, cls.depth⟩))

/-- Reads one character. A comment lasts to the end of its line. -/
def step (r : Reader) (c : Char) : Except PatternError Reader :=
  if r.comment then .ok { r with comment := c ≠ '\n' }
  else if r.skipsBlanks && Unicode.isBlank c then .ok r
  else if r.skipsBlanks && c = '#' then .ok { r with comment := true }
  else r.character c

/-- Completes the unit that the text ends in, if it may end there. -/
def settle (r : Reader) : Except PatternError Reader :=
  match r.mode with
  | .plain => .ok r
  | .quantified p rounds _ => r.complete p rounds true
  | .boundary => .ok (r.pushPrimitive (.look .wordBoundary))
  | .counts _ _ | .boundaryBrace | .boundaryName _ => .error .unclosedCount
  | .escape _ => .error .unfinishedEscape
  | .bracket _ => .error .unclosedClass
  | _ => .error .unclosedGroup

/-- How deep the notation of a pattern may nest. -/
def depthLimit : Nat := 250

/-- The pattern that has been read, if no group is open. -/
def finish (r : Reader) : Except PatternError Pattern := do
  let r ← r.settle
  if !r.outer.isEmpty then throw .unclosedGroup
  else if depthLimit < r.inner.part.depth then throw .nestedTooDeep
  else return r.inner.part.pattern

end Reader

def read? (flags : PatternFlags) (text : List Char) : Except PatternError Pattern := do
  let r ← text.foldlM Reader.step { flags }
  r.finish

end MediaRange.Pattern
