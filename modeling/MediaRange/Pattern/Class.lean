import MediaRange.Pattern.Primitive

/-!
# Bracketed classes

A class such as `[a-z_]` is read one character at a time into a `CharSet`. Classes nest, can be
negated, and are combined by `&&`, `--` and `~~`, which bind alike and from the left.
-/

namespace MediaRange.Pattern

/-- The classes written `[:name:]` inside a class; they hold ASCII characters only. -/
def asciiClass? (name : String) : Option CharSet :=
  match name with
  | "alnum" => some (.ranges [(0x30, 0x39), (0x41, 0x5A), (0x61, 0x7A)])
  | "alpha" => some (.ranges [(0x41, 0x5A), (0x61, 0x7A)])
  | "ascii" => some (.ranges [(0x00, 0x7F)])
  | "blank" => some (.ranges [(0x09, 0x09), (0x20, 0x20)])
  | "cntrl" => some (.ranges [(0x00, 0x1F), (0x7F, 0x7F)])
  | "digit" => some (.ranges [(0x30, 0x39)])
  | "graph" => some (.ranges [(0x21, 0x7E)])
  | "lower" => some (.ranges [(0x61, 0x7A)])
  | "print" => some (.ranges [(0x20, 0x7E)])
  | "punct" => some (.ranges [(0x21, 0x2F), (0x3A, 0x40), (0x5B, 0x60), (0x7B, 0x7E)])
  | "space" => some (.ranges [(0x09, 0x0D), (0x20, 0x20)])
  | "upper" => some (.ranges [(0x41, 0x5A)])
  | "word" => some (.ranges [(0x30, 0x39), (0x41, 0x5A), (0x5F, 0x5F), (0x61, 0x7A)])
  | "xdigit" => some (.ranges [(0x30, 0x39), (0x41, 0x46), (0x61, 0x66)])
  | _ => none

inductive ClassOperation where
  | intersection
  | difference
  | symmetricDifference

def ClassOperation.apply : ClassOperation → CharSet → CharSet → CharSet
  | intersection => .inter
  | difference => .diff
  | symmetricDifference => .symmDiff

/-- How deep an open bracket nests: the items since the last operation, and the operand before
it. -/
structure ClassNesting where
  items : List Nat := []
  left : Option Nat := none

namespace ClassNesting

def add (nesting : ClassNesting) (depth : Nat) : ClassNesting :=
  { nesting with items := depth :: nesting.items }

/-- An operation is a level of its own. -/
def operand (nesting : ClassNesting) : Nat :=
  match nesting.left with
  | none => listDepth nesting.items
  | some left => max left (listDepth nesting.items) + 1

def operate (nesting : ClassNesting) : ClassNesting := ⟨[], some nesting.operand⟩

def depth (nesting : ClassNesting) : Nat := nesting.operand + 1

end ClassNesting

/-- An open bracket: the items read since the last operation, and the operand before it. -/
structure OpenClass where
  negated : Bool := false
  items : CharSet := .none
  left : Option (ClassOperation × CharSet) := none
  nesting : ClassNesting := {}

namespace OpenClass

def addRange (cls : OpenClass) (first last : Char) : OpenClass :=
  { cls with
    items := match cls.items with
      | .ranges list => .ranges (list ++ [(first.toNat, last.toNat)])
      | s => .union s (.range first last)
    nesting := cls.nesting.add 0 }

/-- Adds a set, whose notation nests as deep as given. -/
def addSet (cls : OpenClass) (s : CharSet) (depth : Nat) : OpenClass :=
  { cls with items := .union cls.items s, nesting := cls.nesting.add depth }

/-- Adds a primitive as an item of its own. -/
def add (cls : OpenClass) : Primitive → Except PatternError OpenClass
  | .literal c => .ok (cls.addRange c c)
  | .set s => .ok (cls.addSet s 0)
  | .look _ => .error .lookInClass

/-- Adds a range between two primitives, which have to be literals in increasing order. -/
def addBetween (cls : OpenClass) : Primitive → Primitive → Except PatternError OpenClass
  | .literal first, .literal last =>
    if first.toNat ≤ last.toNat then .ok (cls.addRange first last) else .error .rangeReversed
  | _, _ => .error .rangeOfClasses

/-- The operand read so far, each side closed under case variants if case is ignored. -/
def operand (cls : OpenClass) (ignoreCase : Bool) : CharSet :=
  match cls.left with
  | none => cls.items
  | some (operation, left) =>
    operation.apply (left.foldedIf ignoreCase) (cls.items.foldedIf ignoreCase)

def operate (cls : OpenClass) (ignoreCase : Bool) (operation : ClassOperation) : OpenClass :=
  { cls with
    items := .none
    left := some (operation, cls.operand ignoreCase)
    nesting := cls.nesting.operate }

/-- The set of a class that is complete: case variants are added before negation. -/
def set (cls : OpenClass) (ignoreCase : Bool) : CharSet :=
  ((cls.operand ignoreCase).foldedIf ignoreCase).complIf cls.negated

end OpenClass

/-- A class that is complete: its set, and how deep its notation nests. -/
structure ReadClass where
  set : CharSet
  depth : Nat

/-- What has been read since the last item of a class. -/
inductive ClassMode where
  | opening
  | leading (bare : Bool)
  | items
  | after (first : Primitive)
  | dashed (first : Primitive)
  | dash
  | twin (c : Char)
  | bracket
  | named (text : List Char)
  | escape (first : Option Primitive) (escape : Escape)

/-- A class that is being read: the innermost open bracket and those around it. -/
structure ClassReader where
  inner : OpenClass := {}
  outer : List OpenClass := []
  mode : ClassMode := .opening

namespace ClassReader

/-- Closes the innermost bracket; the outermost one completes the class. -/
def close (reader : ClassReader) (ignoreCase : Bool) : ClassReader ⊕ ReadClass :=
  let closed : ReadClass := ⟨reader.inner.set ignoreCase, reader.inner.nesting.depth⟩
  match reader.outer with
  | [] => .inr closed
  | next :: outer => .inl ⟨next.addSet closed.set closed.depth, outer, .items⟩

def operate (reader : ClassReader) (ignoreCase : Bool) (operation : ClassOperation) :
    ClassReader :=
  { reader with inner := reader.inner.operate ignoreCase operation, mode := .items }

/-- A character where an item may start. -/
def item (reader : ClassReader) (ignoreCase : Bool) (c : Char) : ClassReader ⊕ ReadClass :=
  match c with
  | '[' => .inl { reader with mode := .bracket }
  | ']' => reader.close ignoreCase
  | '&' | '~' => .inl { reader with mode := .twin c }
  | '-' => .inl { reader with mode := .dash }
  | '\\' => .inl { reader with mode := .escape none .opened }
  | c => .inl { reader with mode := .after (.literal c) }

/-- A character after a primitive: a dash makes a range of it. -/
def afterItem (reader : ClassReader) (ignoreCase : Bool) (first : Primitive) (c : Char) :
    Except PatternError (ClassReader ⊕ ReadClass) :=
  if c = '-' then .ok (.inl { reader with mode := .dashed first })
  else do
    let inner ← reader.inner.add first
    return { reader with inner }.item ignoreCase c

/-- A character after a primitive and a dash. Before a closing bracket the dash is an item, and a
second dash makes it an operation. -/
def afterDash (reader : ClassReader) (ignoreCase : Bool) (first : Primitive) (c : Char) :
    Except PatternError (ClassReader ⊕ ReadClass) :=
  match c with
  | ']' => do
    let inner ← reader.inner.add first
    return { reader with inner := inner.addRange '-' '-' }.close ignoreCase
  | '-' => do
    let inner ← reader.inner.add first
    return .inl ({ reader with inner }.operate ignoreCase .difference)
  | '\\' => .ok (.inl { reader with mode := .escape (some first) .opened })
  | c => do
    let inner ← reader.inner.addBetween first (.literal c)
    return .inl { reader with inner, mode := .items }

/-- A character at the start of a class, where dashes and a first bracket are items. -/
def lead (reader : ClassReader) (ignoreCase bare : Bool) (c : Char) : ClassReader ⊕ ReadClass :=
  if c = '-' then
    .inl { reader with inner := reader.inner.addRange '-' '-', mode := .leading false }
  else if bare && c = ']' then
    .inl { reader with inner := reader.inner.addRange ']' ']', mode := .items }
  else reader.item ignoreCase c

/-- A character after an opening bracket. -/
def opening (reader : ClassReader) (ignoreCase : Bool) (c : Char) : ClassReader ⊕ ReadClass :=
  if c = '^' then
    .inl { reader with inner := { reader.inner with negated := true }, mode := .leading true }
  else reader.lead ignoreCase true c

def nest (reader : ClassReader) : ClassReader :=
  ⟨{}, reader.inner :: reader.outer, .opening⟩

/-- The set named by `[:name:]` or `[:^name:]`; `text` is what stands between the brackets but
for the last colon. -/
def namedSet? (ignoreCase : Bool) : List Char → Option CharSet
  | ':' :: '^' :: name =>
    (asciiClass? (String.ofList name)).map fun s => .compl (s.foldedIf ignoreCase)
  | ':' :: name => (asciiClass? (String.ofList name)).map fun s => s.foldedIf ignoreCase
  | _ => none

/-- What looked like the start of a named class, read as a bracket with literal items. -/
def unname (reader : ClassReader) (text : List Char) : ClassReader × Primitive :=
  let literals := text.dropLast
  let inner : OpenClass := literals.foldl (fun cls c => cls.addRange c c) {}
  (⟨inner, reader.inner :: reader.outer, .items⟩, .literal (text.getLastD ':'))

/-- A character of `[:name:]`, of which `text` has been read after the bracket. -/
def name (reader : ClassReader) (ignoreCase : Bool) (text : List Char) (c : Char) :
    Except PatternError (ClassReader ⊕ ReadClass) :=
  let named := text.length > 1 && text.getLastD ' ' = ':'
  let continues :=
    if named then false
    else 'a' ≤ c && c ≤ 'z' || c = ':' || c = '^' && text = [':']
  match (if named && c = ']' then namedSet? ignoreCase text.dropLast else none) with
  | some s => .ok (.inl { reader with inner := reader.inner.addSet s 0, mode := .items })
  | none =>
    if continues then .ok (.inl { reader with mode := .named (text ++ [c]) })
    else
      let (reader, first) := reader.unname text
      reader.afterItem ignoreCase first c

/-- An escape inside the class is an item or the end of a range. -/
def escaped (reader : ClassReader) (first : Option Primitive) (primitive : Primitive) :
    Except PatternError ClassReader :=
  match first, primitive with
  | _, .look _ => .error .lookInClass
  | none, primitive => .ok { reader with mode := .after primitive }
  | some first, primitive => do
    let inner ← reader.inner.addBetween first primitive
    return { reader with inner, mode := .items }

/-- Reads one character; the bracket that closes the outermost one completes the class. -/
def read (reader : ClassReader) (ignoreCase : Bool) (c : Char) :
    Except PatternError (ClassReader ⊕ ReadClass) :=
  match reader.mode with
  | .opening => .ok (reader.opening ignoreCase c)
  | .leading bare => .ok (reader.lead ignoreCase bare c)
  | .items => .ok (reader.item ignoreCase c)
  | .after first => reader.afterItem ignoreCase first c
  | .dashed first => reader.afterDash ignoreCase first c
  | .dash =>
    if c = '-' then .ok (.inl (reader.operate ignoreCase .difference))
    else reader.afterItem ignoreCase (.literal '-') c
  | .twin t =>
    if c = t then
      .ok (.inl (reader.operate ignoreCase
        (if t = '&' then .intersection else .symmetricDifference)))
    else reader.afterItem ignoreCase (.literal t) c
  | .bracket =>
    if c = ':' then .ok (.inl { reader with mode := .named [c] })
    else .ok (reader.nest.opening ignoreCase c)
  | .named text => reader.name ignoreCase text c
  | .escape first escape =>
    match escape.read c with
    | .error e => .error e
    | .ok (.inl escape) => .ok (.inl { reader with mode := .escape first escape })
    | .ok (.inr primitive) => (reader.escaped first primitive).map .inl

/-- Whether blanks may be skipped here when the notation is extended. -/
def skipsBlanks (reader : ClassReader) : Bool :=
  match reader.mode with
  | .named _ | .escape _ .opened => false
  | _ => true

end ClassReader

end MediaRange.Pattern
