import MediaRange.Unicode.Blank
import MediaRange.Unicode.Casing
import MediaRange.Unicode.Word

/-!
# Sets of characters

A `CharSet` is built from ranges and named classes by the set operations; `has` decides
membership by the shape of the set.
-/

namespace MediaRange

open Unicode

/-- A set of characters. `folded s` holds the characters with a case variant in `s`. -/
inductive CharSet where
  | ranges (list : Ranges)
  | blank
  | digit
  | word
  | union (s t : CharSet)
  | inter (s t : CharSet)
  | diff (s t : CharSet)
  | symmDiff (s t : CharSet)
  | compl (s : CharSet)
  | folded (s : CharSet)
  deriving DecidableEq

namespace CharSet

def has : CharSet → Char → Bool
  | ranges list, c => list.has c.toNat
  | blank, c => isBlank c
  | digit, c => isDigit c
  | word, c => isWord c
  | union s t, c => s.has c || t.has c
  | inter s t, c => s.has c && t.has c
  | diff s t, c => s.has c && !t.has c
  | symmDiff s t, c => s.has c != t.has c
  | compl s, c => !s.has c
  | folded s, c => s.has c || (caseVariants c).any s.has

def none : CharSet := ranges []

def all : CharSet := compl none

def single (c : Char) : CharSet := ranges [(c.toNat, c.toNat)]

def range (first last : Char) : CharSet := ranges [(first.toNat, last.toNat)]

/-- Every character but the line feed. -/
def notNewline : CharSet := compl (single '\n')

/-- The set itself, or with all case variants of its members. -/
def foldedIf (ignoreCase : Bool) (s : CharSet) : CharSet := if ignoreCase then folded s else s

def complIf (negated : Bool) (s : CharSet) : CharSet := if negated then compl s else s

@[simp] theorem has_single (c d : Char) : (single c).has d = (c.toNat == d.toNat) := by
  simp only [single, has, Ranges.has, List.any_cons, List.any_nil, Bool.or_false]
  rw [Bool.eq_iff_iff]
  simp only [Bool.and_eq_true, decide_eq_true_eq, beq_iff_eq]
  omega

@[simp] theorem has_blank (c : Char) : blank.has c = isBlank c := rfl

end CharSet

end MediaRange
