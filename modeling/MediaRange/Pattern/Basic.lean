import MediaRange.Pattern.CharSet

/-!
# Patterns

A `Pattern` describes texts with a preference among the ways to match them. `branches` is its
meaning at one place of a text: the ordered ways to stop there or to take the next character and
go on. It follows the shape of the pattern, so each form has one equation.
-/

namespace MediaRange

open Unicode

/-- A condition on the characters around a place. -/
inductive Look where
  | textStart
  | textEnd
  | lineStart
  | lineEnd
  | wordBoundary
  | notWordBoundary
  | wordStart
  | wordEnd
  | wordStartHalf
  | wordEndHalf
  deriving DecidableEq

/-- A place between two characters; at an end of the text one of them is missing. -/
structure Place where
  before : Option Char
  after : Option Char

namespace Place

def wordBefore (place : Place) : Bool := place.before.any isWord

def wordAfter (place : Place) : Bool := place.after.any isWord

end Place

/-- Whether the condition holds at a place. Lines are divided by line feeds. -/
def Look.holds (place : Place) : Look → Bool
  | textStart => place.before.isNone
  | textEnd => place.after.isNone
  | lineStart => place.before.all (· == '\n')
  | lineEnd => place.after.all (· == '\n')
  | wordBoundary => place.wordBefore != place.wordAfter
  | notWordBoundary => place.wordBefore == place.wordAfter
  | wordStart => !place.wordBefore && place.wordAfter
  | wordEnd => place.wordBefore && !place.wordAfter
  | wordStartHalf => !place.wordBefore
  | wordEndHalf => !place.wordAfter

/-- One end of a named group. -/
inductive Mark where
  | opening (group : String)
  | closing (group : String)
  deriving DecidableEq

/-- A pattern. Of two ways to match, `alt` prefers its left side; a greedy `opt` or `plus`
prefers one more round, and any other prefers to stop. `again` is what is left of a `plus` after
a round: any number of further rounds. -/
inductive Pattern where
  | empty
  | one (set : CharSet)
  | look (l : Look)
  | mark (m : Mark)
  | seq (p q : Pattern)
  | alt (p q : Pattern)
  | opt (greedy : Bool) (p : Pattern)
  | plus (greedy : Bool) (p : Pattern)
  | again (greedy : Bool) (p : Pattern)
  deriving DecidableEq

namespace Pattern

/-- `p` and then `q`, without a leading `empty`. -/
def andThen : Pattern → Pattern → Pattern
  | empty, q => q
  | p, q => seq p q

def star (greedy : Bool) (p : Pattern) : Pattern := opt greedy (plus greedy p)

/-- Exactly `n` rounds. -/
def times (p : Pattern) : Nat → Pattern
  | 0 => empty
  | 1 => p
  | n + 1 => seq p (times p n)

/-- At most `n` rounds; each further round is tried only after the one before it. -/
def upTo (greedy : Bool) (p : Pattern) : Nat → Pattern
  | 0 => empty
  | 1 => opt greedy p
  | n + 1 => opt greedy (seq p (upTo greedy p n))

/-- At least `n` rounds. -/
def atLeast (greedy : Bool) (p : Pattern) : Nat → Pattern
  | 0 => star greedy p
  | 1 => plus greedy p
  | n + 1 => seq p (atLeast greedy p n)

/-- Between `low` and `high` rounds. -/
def between (greedy : Bool) (p : Pattern) (low high : Nat) : Pattern :=
  if low = 0 then upTo greedy p high
  else if high ≤ low then times p low
  else seq (times p low) (upTo greedy p (high - low))

def sequence : List Pattern → Pattern
  | [] => empty
  | [p] => p
  | p :: ps => seq p (sequence ps)

/-- A choice among the patterns, the first preferred; the empty pattern if there are none. -/
def choice : List Pattern → Pattern
  | [] => empty
  | [p] => p
  | p :: ps => alt p (choice ps)

/-- A named group: the pattern between two marks. -/
def group (name : String) (p : Pattern) : Pattern :=
  seq (mark (.opening name)) (seq p (mark (.closing name)))

/-- The number of nodes, by which the size of a pattern is limited. -/
def size : Pattern → Nat
  | empty | one _ | look _ | mark _ => 1
  | seq p q | alt p q => p.size + q.size + 1
  | opt _ p | plus _ p | again _ p => p.size + 1

/-! ### One step of a match -/

/-- A way to go on at a place, after passing some marks: stop there, or take the next character
and match what is left of the pattern. -/
inductive Branch where
  | stop (marks : List Mark)
  | take (marks : List Mark) (left : Pattern)

namespace Branch

/-- The branch with marks passed before it. -/
def after (passed : List Mark) : Branch → Branch
  | stop marks => stop (passed ++ marks)
  | take marks left => take (passed ++ marks) left

/-- A round of a loop: after it come further rounds, unless it took no character. -/
def firstRound (loop : Pattern) : Branch → Branch
  | stop marks => stop marks
  | take marks left => take marks (left.andThen loop)

/-- A further round of a loop, which has to take a character. -/
def furtherRound? (loop : Pattern) : Branch → Option Branch
  | stop _ => none
  | take marks left => some (take marks (left.andThen loop))

end Branch

/-- The ways to go on at a place, the preferred ones first. -/
def branches (place : Place) : Pattern → List Branch
  | empty => [.stop []]
  | one set => if place.after.any set.has then [.take [] empty] else []
  | look l => if l.holds place then [.stop []] else []
  | mark m => [.stop [m]]
  | seq p q => (branches place p).flatMap fun
    | .stop marks => (branches place q).map (Branch.after marks)
    | .take marks left => [.take marks (left.andThen q)]
  | alt p q => branches place p ++ branches place q
  | opt greedy p => if greedy then branches place p ++ [.stop []] else .stop [] :: branches place p
  | plus greedy p => (branches place p).map (Branch.firstRound (again greedy p))
  | again greedy p =>
    let rounds := (branches place p).filterMap (Branch.furtherRound? (again greedy p))
    if greedy then rounds ++ [.stop []] else .stop [] :: rounds

end Pattern

end MediaRange
