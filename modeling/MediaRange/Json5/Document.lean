import MediaRange.Json5.Literal

/-!
# JSON5 documents

A `Document` is the tree of a JSON5 text, with words and strings as they are written. The reader
takes one token after another and keeps the containers that are still open on a stack, so the depth
of a text has no limit. A comma may follow the last item or member.
-/

namespace MediaRange.Json5

/-- A key as it is written. -/
abbrev Key := List StringPart

inductive Document where
  | null
  | bool (value : Bool)
  | number (literal : NumberLiteral)
  | string (parts : List StringPart)
  | array (items : List Document)
  | object (members : List (Key × Document))

/-- A container around the place that is read, with what stands before it, last first. -/
inductive Open where
  | array (items : List Document)
  | object (members : List (Key × Document)) (key : Key)

/-- What may come next: a value, an item or the end of an array, a comma or the end of an array,
the same for members, the colon after a key, or nothing. -/
inductive Reader where
  | value (outer : List Open)
  | item (items : List Document) (outer : List Open)
  | afterItem (items : List Document) (outer : List Open)
  | member (members : List (Key × Document)) (outer : List Open)
  | colon (members : List (Key × Document)) (key : Key) (outer : List Open)
  | afterMember (members : List (Key × Document)) (outer : List Open)
  | finished (document : Document)

namespace Reader

/-- Puts a complete value into the container around it. -/
def complete (outer : List Open) (document : Document) : Reader :=
  match outer with
  | [] => finished document
  | .array items :: outer => afterItem (document :: items) outer
  | .object members key :: outer => afterMember ((key, document) :: members) outer

def wordDocument? (text : List Char) : Option Document :=
  if text = "null".toList then some .null
  else if text = "true".toList then some (.bool true)
  else if text = "false".toList then some (.bool false)
  else (NumberLiteral.of? text).map .number

/-- A token where a value must stand. -/
def startValue (outer : List Open) : Token → Option Reader
  | .openBracket => some (item [] outer)
  | .openBrace => some (member [] outer)
  | .word text => (wordDocument? text).map (complete outer)
  | .string parts => some (complete outer (.string parts))
  | _ => none

/-- A token where a key must stand. -/
def key? : Token → Option Key
  | .word text => keyParts? true text
  | .string parts => some parts
  | _ => none

def step (reader : Reader) (token : Token) : Option Reader :=
  match reader, token with
  | value outer, token => startValue outer token
  | item items outer, .closeBracket => some (complete outer (.array items.reverse))
  | item items outer, token => startValue (.array items :: outer) token
  | afterItem items outer, .comma => some (item items outer)
  | afterItem items outer, .closeBracket => some (complete outer (.array items.reverse))
  | member members outer, .closeBrace => some (complete outer (.object members.reverse))
  | member members outer, token => (key? token).map fun key => colon members key outer
  | colon members key outer, .colon => some (value (.object members key :: outer))
  | afterMember members outer, .comma => some (member members outer)
  | afterMember members outer, .closeBrace => some (complete outer (.object members.reverse))
  | _, _ => none

/-- The document, if the reader has come to its end. -/
def document? : Reader → Option Document
  | finished document => some document
  | _ => none

end Reader

namespace Document

def ofTokens? (tokens : List Token) : Option Document := do
  (← tokens.foldlM Reader.step (.value [])).document?

def read (text : List Char) : Except ValueError Document :=
  match (tokens? text).bind ofTokens? with
  | some document => .ok document
  | none => .error .notJson5

end Document

end MediaRange.Json5
