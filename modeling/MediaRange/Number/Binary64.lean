/-!
# Double precision values

A `Binary64` is the exact rational value of a finite double, or an infinity. `ofRat` rounds to
the nearest double, and of two equally near ones takes the one with an even significand. Zero has
no sign here.
-/

namespace MediaRange

/-- A double precision value that is a number. -/
inductive Binary64 where
  | finite (value : Rat)
  | infinite (negative : Bool)
  deriving DecidableEq

namespace Binary64

/-- The exponent of the unit in the last place of doubles near `q`. The significand has 53 bits,
and no unit is smaller than `2 ^ -1074`. -/
def unitExponent (q : Rat) : Int :=
  let guess : Int := (q.num.natAbs.log2 : Int) - q.den.log2
  let magnitude := if q.abs < (2 : Rat) ^ guess then guess - 1 else guess
  max (magnitude - 52) (-1074)

/-- The nearest integer; of two, the even one. -/
def roundEven (q : Rat) : Int :=
  let lower := q.floor
  let rest := q - lower
  if rest < 1 / 2 then lower
  else if 1 / 2 < rest then lower + 1
  else if lower % 2 = 0 then lower
  else lower + 1

/-- The smallest magnitude that is out of range. -/
def overflow : Rat := (2 : Rat) ^ (1024 : Int)

/-- The double nearest to a rational number. -/
def ofRat (q : Rat) : Binary64 :=
  let unit := (2 : Rat) ^ unitExponent q
  let rounded := roundEven (q / unit) * unit
  if overflow ≤ rounded.abs then infinite (decide (q < 0)) else finite rounded

/-- The double nearest to `digits * 10 ^ exponent`. Far out of range the power is not computed. -/
def ofDecimal (digits : Nat) (exponent : Int) : Binary64 :=
  if digits = 0 then finite 0
  else
    let top := ((Nat.toDigits 10 digits).length : Int) + exponent
    if 310 < top then infinite false
    else if top < -330 then finite 0
    else ofRat (digits * (10 : Rat) ^ exponent)

/-- The rounded sum with a rational number. -/
def add (step : Rat) : Binary64 → Binary64
  | finite value => ofRat (value + step)
  | infinite negative => infinite negative

/-- The largest whole number that is not greater. It is a double itself. -/
def floor : Binary64 → Binary64
  | finite value => finite value.floor
  | infinite negative => infinite negative

def isZero : Binary64 → Bool
  | finite value => value = 0
  | infinite _ => false

/-- Whether the value is a whole number; infinities are not. -/
def isWhole : Binary64 → Bool
  | finite value => value.den = 1
  | infinite _ => false

end Binary64

end MediaRange
