import MediaRange.Number.Binary64

/-!
# Numerals

A `Numeral` is a decimal number as it is written: a sign, the digits before the point and those
after it. `Numeral.exact` is the number itself and `Numeral.value` the double nearest to it.
-/

namespace MediaRange

def digitsValue (digits : List Char) : Nat :=
  digits.foldl (fun n c => n * 10 + (c.toNat - '0'.toNat)) 0

structure Numeral where
  negative : Bool
  whole : List Char
  fraction : List Char
  deriving DecidableEq

namespace Numeral

/-- The longest numeral that the text starts with. One side of the point may have no digits, and
a point without digits after it is left out. -/
def read? (text : List Char) : Option Numeral :=
  let (negative, unsigned) := match text with
    | '-' :: rest => (true, rest)
    | rest => (false, rest)
  let whole := unsigned.takeWhile Char.isDigit
  let fraction := match unsigned.dropWhile Char.isDigit with
    | '.' :: rest => rest.takeWhile Char.isDigit
    | _ => []
  if whole.isEmpty && fraction.isEmpty then none else some ⟨negative, whole, fraction⟩

def exact (n : Numeral) : Rat :=
  let magnitude := (digitsValue (n.whole ++ n.fraction) : Rat) / (10 : Rat) ^ n.fraction.length
  if n.negative then -magnitude else magnitude

def value (n : Numeral) : Binary64 := Binary64.ofRat n.exact

/-- Whether the numeral is a whole number with digits before the point. -/
def isWhole (n : Numeral) : Bool := !n.whole.isEmpty && n.value.isWhole

end Numeral

end MediaRange
