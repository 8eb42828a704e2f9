/-!
# JSON texts

The values that the program reports, written on one line by `Json.text` or indented by
`Json.pretty`. Members keep their order.
-/

namespace MediaRange

inductive Json where
  | null
  | bool (value : Bool)
  | number (value : Int)
  | string (value : String)
  | array (items : List Json)
  | object (members : List (String × Json))

namespace Json

/-- A character inside a string. Only controls, quotes and backslashes are escaped. -/
def escapedChar (c : Char) : List Char :=
  match c with
  | '"' => ['\\', '"']
  | '\\' => ['\\', '\\']
  | '\x08' => ['\\', 'b']
  | '\x0c' => ['\\', 'f']
  | '\n' => ['\\', 'n']
  | '\r' => ['\\', 'r']
  | '\t' => ['\\', 't']
  | c =>
    if c.toNat < 0x20 then
      let digits := Nat.toDigits 16 c.toNat
      '\\' :: 'u' :: List.replicate (4 - digits.length) '0' ++ digits
    else [c]

def quoted (s : String) : String :=
  String.ofList ('"' :: s.toList.flatMap escapedChar ++ ['"'])

/-! ### On one line -/

mutual

/-- The value without blanks. -/
def text : Json → String
  | null => "null"
  | bool value => if value then "true" else "false"
  | number value => toString value
  | string value => quoted value
  | array items => "[" ++ textItems true items ++ "]"
  | object members => "\x7b" ++ textMembers true members ++ "\x7d"

def textItems (first : Bool) : List Json → String
  | [] => ""
  | item :: items => (if first then "" else ",") ++ item.text ++ textItems false items

def textMembers (first : Bool) : List (String × Json) → String
  | [] => ""
  | (key, value) :: members =>
    (if first then "" else ",") ++ quoted key ++ ":" ++ value.text ++ textMembers false members

end

/-! ### Indented -/

/-- A new line with two spaces for each level. -/
def newline (level : Nat) : String := String.ofList ('\n' :: List.replicate (2 * level) ' ')

mutual

/-- The value with each item and member on a line of its own. -/
def prettyAt (level : Nat) : Json → String
  | null => "null"
  | bool value => if value then "true" else "false"
  | number value => toString value
  | string value => quoted value
  | array items =>
    if items.isEmpty then "[]"
    else "[" ++ prettyItems (level + 1) true items ++ newline level ++ "]"
  | object members =>
    if members.isEmpty then "\x7b\x7d"
    else "\x7b" ++ prettyMembers (level + 1) true members ++ newline level ++ "\x7d"

def prettyItems (level : Nat) (first : Bool) : List Json → String
  | [] => ""
  | item :: items =>
    (if first then "" else ",") ++ newline level ++ item.prettyAt level ++
      prettyItems level false items

def prettyMembers (level : Nat) (first : Bool) : List (String × Json) → String
  | [] => ""
  | (key, value) :: members =>
    (if first then "" else ",") ++ newline level ++ quoted key ++ ": " ++ value.prettyAt level ++
      prettyMembers level false members

end

def pretty (value : Json) : String := value.prettyAt 0

/-! ### Sorted members -/

/-- Inserts a member before the first one with a greater key. -/
def insertMember (key : String) (value : Json) : List (String × Json) → List (String × Json)
  | [] => [(key, value)]
  | (next, nextValue) :: members =>
    if key < next then (key, value) :: (next, nextValue) :: members
    else (next, nextValue) :: insertMember key value members

mutual

/-- The value with the members of all objects in the order of their keys. -/
def sorted : Json → Json
  | array items => array (sortedItems items)
  | object members => object (sortedMembers members)
  | value => value

def sortedItems : List Json → List Json
  | [] => []
  | item :: items => item.sorted :: sortedItems items

def sortedMembers : List (String × Json) → List (String × Json)
  | [] => []
  | (key, value) :: members => insertMember key value.sorted (sortedMembers members)

end

end Json

end MediaRange
