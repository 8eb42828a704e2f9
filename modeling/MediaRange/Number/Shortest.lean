import MediaRange.Number.Binary64

/-!
# Shortest decimals

`shortest` is the decimal with the fewest digits that reads back as a given positive double, and
among those the nearest to it; of two equally near ones the larger. `Binary64.text` writes a
double with it, never with an exponent.
-/

namespace MediaRange

/-- The number `digits * 10 ^ exponent`. -/
structure Decimal where
  digits : Nat
  exponent : Int

namespace Decimal

def value (d : Decimal) : Rat := d.digits * (10 : Rat) ^ d.exponent

/-- The digits without trailing zeros, and the exponent that goes with them. -/
def significant (d : Decimal) : List Char × Int :=
  let digits := Nat.toDigits 10 d.digits
  let kept := (digits.reverse.dropWhile (· == '0')).reverse
  (kept, d.exponent + (digits.length - kept.length : Nat))

def parts (d : Decimal) : List Char × List Char :=
  let (digits, exponent) := d.significant
  if 0 ≤ exponent then (digits ++ List.replicate exponent.toNat '0', [])
  else
    let places := (-exponent).toNat
    let padded := List.replicate (places + 1 - digits.length) '0' ++ digits
    padded.splitAt (padded.length - places)

/-- The decimal without an exponent; the point stands only before digits. -/
def positional (d : Decimal) : List Char :=
  match d.parts with
  | (whole, []) => whole
  | (whole, fraction) => whole ++ '.' :: fraction

end Decimal

namespace Binary64

/-- The number of digits before the point of a positive number, negative if zeros follow the
point: `10 ^ (n - 1) ≤ q < 10 ^ n`. -/
def decimalMagnitude (q : Rat) : Int :=
  let guess : Int :=
    ((Nat.toDigits 10 q.num.natAbs).length : Int) - (Nat.toDigits 10 q.den).length
  if q < (10 : Rat) ^ guess then guess else guess + 1

def readsBack (value : Rat) (d : Decimal) : Bool := ofRat d.value = finite value

/-- The decimal with `count` digits that reads back as `value`, the nearer one if two do. -/
def withDigits? (value : Rat) (count : Nat) : Option Decimal :=
  let exponent := decimalMagnitude value - count
  let lower : Decimal := ⟨(value / (10 : Rat) ^ exponent).floor.toNat, exponent⟩
  let upper : Decimal := ⟨lower.digits + 1, exponent⟩
  match readsBack value lower, readsBack value upper with
  | true, true => some (if value - lower.value < upper.value - value then lower else upper)
  | true, false => some lower
  | false, true => some upper
  | false, false => none

/-- The shortest decimal of a positive double. Seventeen digits always suffice. -/
def shortest (value : Rat) : Decimal :=
  ((List.range 17).findSome? fun n => withDigits? value (n + 1)).getD ⟨0, 0⟩

/-- The rational number that the written form of a double stands for. -/
def decimalValue (value : Rat) : Rat :=
  if value = 0 then 0
  else if value < 0 then -(shortest (-value)).value
  else (shortest value).value

def text : Binary64 → List Char
  | finite value =>
    if value = 0 then ['0']
    else if value < 0 then '-' :: (shortest (-value)).positional
    else (shortest value).positional
  | infinite negative => if negative then "-inf".toList else "inf".toList

/-- Reads the written form again with the point moved by `places` to the right. -/
def shifted (places : Int) : Binary64 → Binary64
  | finite value => ofRat (decimalValue value * (10 : Rat) ^ places)
  | infinite negative => infinite negative

end Binary64

end MediaRange
