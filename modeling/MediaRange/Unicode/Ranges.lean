/-!
# Ranges of code points

A class of characters is stored as its closed ranges of code points. The tables of classes and of
case foldings are all those of Unicode 15.
-/

namespace MediaRange.Unicode

/-- Closed ranges of code points, first and last, in increasing order. -/
abbrev Ranges := List (Nat × Nat)

/-- Whether a code point lies in one of the ranges. -/
def Ranges.has (ranges : Ranges) (n : Nat) : Bool :=
  ranges.any fun range => range.1 ≤ n && n ≤ range.2

theorem Ranges.has_nil (n : Nat) : Ranges.has [] n = false := rfl

theorem Ranges.has_cons (range : Nat × Nat) (ranges : Ranges) (n : Nat) :
    Ranges.has (range :: ranges) n = ((range.1 ≤ n && n ≤ range.2) || ranges.has n) := rfl

end MediaRange.Unicode
