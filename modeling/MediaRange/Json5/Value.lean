import MediaRange.Json5.Document
import MediaRange.Unicode.Quoted

/-!
# Values of JSON5 documents

Reading a document gives the `Value` of its outermost layer; `Document.check` reads all of it. Both
go from left to right and stop at the first literal that has no value.
-/

namespace MediaRange.Json5

/-- The outermost layer of a document. -/
inductive Value where
  | null
  | bool (value : Bool)
  | number (value : Number)
  | string (text : String)
  | array
  | object

namespace Document

/-- The outermost layer; what a container holds is not read. -/
def value : Document → Except ValueError Value
  | null => .ok .null
  | bool value => .ok (.bool value)
  | number literal => literal.value.map .number
  | string parts => (stringValue parts).map .string
  | array _ => .ok .array
  | object _ => .ok .object

mutual

/-- Reads the document to the end. -/
def check : Document → Except ValueError Unit
  | null | bool _ => .ok ()
  | number literal => literal.value.map fun _ => ()
  | string parts => (stringValue parts).map fun _ => ()
  | array items => checkItems items
  | object members => checkMembers members

def checkItems : List Document → Except ValueError Unit
  | [] => .ok ()
  | item :: items => do
    item.check
    checkItems items

def checkMembers : List (Key × Document) → Except ValueError Unit
  | [] => .ok ()
  | (key, value) :: members => do
    let _ ← stringValue key
    value.check
    checkMembers members

end

end Document

/-! ### Descriptions

An error names the value that it is about. There are two manners of doing so: the plain one, and
that of JSON, which has the word `null` and writes very large and very small numbers with an
exponent. -/

inductive Manner where
  | plain
  | json
  deriving DecidableEq, Repr

/-- The decimal with a point, without an exponent. -/
def pointedDecimal (d : Decimal) : List Char :=
  match d.parts with
  | (whole, []) => whole ++ ['.', '0']
  | (whole, fraction) => whole ++ '.' :: fraction

/-- The decimal with a point or an exponent. An exponent is written from `1e16` on and below
`1e-5`, with one digit before the point. -/
def exponentDecimal (d : Decimal) : List Char :=
  let (digits, exponent) := d.significant
  let magnitude := exponent + digits.length
  if -5 < magnitude && magnitude ≤ 16 then pointedDecimal d
  else
    let significand := match digits with
      | first :: second :: rest => first :: '.' :: second :: rest
      | digits => digits
    significand ++ 'e' :: (toString (magnitude - 1)).toList

/-- A number that is not whole, in the manner given. -/
def realText (manner : Manner) (negative : Bool) (magnitude : Binary64) : List Char :=
  let unsigned := match magnitude with
    | .infinite _ => "inf".toList
    | .finite value =>
      if value = 0 then "0.0".toList
      else match manner with
        | .plain => pointedDecimal (Binary64.shortest value)
        | .json => exponentDecimal (Binary64.shortest value)
  if negative then '-' :: unsigned else unsigned

/-- A number between grave accents, which are written `\x60` here. -/
def Number.description (manner : Manner) : Number → String
  | integer value => s!"integer \x60{value}\x60"
  | real negative magnitude =>
    s!"floating point \x60{String.ofList (realText manner negative magnitude)}\x60"
  | nan => "floating point \x60NaN\x60"

def Value.description (manner : Manner) : Value → String
  | null => match manner with
    | .plain => "unit value"
    | .json => "null"
  | bool value => s!"boolean \x60{value}\x60"
  | number value => value.description manner
  | string text => "string " ++ String.ofList (Unicode.quoted text.toList)
  | array => "sequence"
  | object => "map"

end MediaRange.Json5
