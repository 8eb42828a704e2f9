import MediaRange.Pattern.Basic

/-!
# Searching a text

`matchAt` finds the preferred match of a pattern at one cursor by running all branches side by
side: a thread is a branch with the marks it has passed, threads stand in order of preference,
and of two threads with the same pattern left only the first is kept, because both would go on
alike. `segments` cuts a text into its matches and the characters between them, from left to
right; `segments_text` shows that nothing is lost.
-/

namespace MediaRange

/-- A place of a text: the number of characters before it, the last of them, and the rest. -/
structure Cursor where
  position : Nat
  before : Option Char
  rest : List Char

namespace Cursor

def start (text : List Char) : Cursor := ⟨0, none, text⟩

def place (cursor : Cursor) : Place := ⟨cursor.before, cursor.rest.head?⟩

end Cursor

/-- Marks with their positions, the last one first. -/
abbrev Trail := List (Mark × Nat)

/-- The end of a match and the marks on the way there. -/
structure Hit where
  stop : Nat
  trail : Trail

namespace Pattern

/-- A way to match that is under way. -/
structure Thread where
  left : Pattern
  trail : Trail

namespace Thread

def passing (trail : Trail) (position : Nat) (marks : List Mark) : Trail :=
  marks.foldl (fun trail mark => (mark, position) :: trail) trail

/-- The threads that are preferred to the first branch that stops, and the trail of that one. -/
def ahead (position : Nat) (trail : Trail) :
    List Branch → List Thread × Option Trail → List Thread × Option Trail
  | [], rest => rest
  | .stop marks :: _, _ => ([], some (passing trail position marks))
  | .take marks left :: branches, rest =>
    let (threads, stopped) := ahead position trail branches rest
    (⟨left, passing trail position marks⟩ :: threads, stopped)

/-- One step of all threads: those that go on, and the trail of the first that stops. A thread
that comes after a stop is out of the race. -/
def advance (position : Nat) (place : Place) : List Thread → List Thread × Option Trail
  | [] => ([], none)
  | thread :: threads =>
    ahead position thread.trail (thread.left.branches place) (advance position place threads)

/-- The first thread for each pattern left. -/
def distinct : List Thread → List Thread
  | [] => []
  | thread :: threads => thread :: (distinct threads).filter (·.left ≠ thread.left)

end Thread

/-- Runs the threads over the rest of the text. A stop replaces the match found so far, since the
threads still running were preferred to it. -/
def race (position : Nat) (before : Option Char) :
    List Char → List Thread → Option Hit → Option Hit
  | [], threads, best =>
    match (Thread.advance position ⟨before, none⟩ threads).2 with
    | some trail => some ⟨position, trail⟩
    | none => best
  | c :: rest, threads, best =>
    let (threads, stopped) := Thread.advance position ⟨before, some c⟩ threads
    let best := match stopped with
      | some trail => some ⟨position, trail⟩
      | none => best
    match Thread.distinct threads with
    | [] => best
    | threads => race (position + 1) (some c) rest threads best

/-- The preferred match that starts at the cursor. -/
def matchAt (p : Pattern) (cursor : Cursor) : Option Hit :=
  race cursor.position cursor.before cursor.rest [⟨p, []⟩] none

/-- Whether the pattern matches at the cursor or further on. -/
def occursFrom (p : Pattern) (position : Nat) (before : Option Char) : List Char → Bool
  | [] => (p.matchAt ⟨position, before, []⟩).isSome
  | c :: rest =>
    (p.matchAt ⟨position, before, c :: rest⟩).isSome ||
      occursFrom p (position + 1) (some c) rest

/-- Whether the pattern matches somewhere in the text. -/
def occursIn (p : Pattern) (text : List Char) : Bool := p.occursFrom 0 none text

end Pattern

/-- A match found in a text: where it starts, its text and the marks inside it. -/
structure Match where
  start : Nat
  text : List Char
  trail : Trail

namespace Match

/-- Where a named group starts and stops, if it took part in the match. -/
def span? (m : Match) (group : String) : Option (Nat × Nat) := do
  let first ← m.trail.find? (·.1 = .opening group)
  let last ← m.trail.find? (·.1 = .closing group)
  return (first.2, last.2)

/-- The text of a named group; empty if the group took no part in the match. -/
def group (m : Match) (name : String) : List Char :=
  match m.span? name with
  | some (first, last) => (m.text.drop (first - m.start)).take (last - first)
  | none => []

end Match

/-- A piece of a text that has been searched. -/
inductive Segment where
  | plain (c : Char)
  | found (m : Match)

def Segment.text : Segment → List Char
  | plain c => [c]
  | found m => m.text

namespace Pattern

/-- The segments of the text from a cursor on, after skipping the characters of the last match.
An empty match is passed over. -/
def segmentsFrom (p : Pattern) (skip position : Nat) (before : Option Char) :
    List Char → List Segment
  | [] => []
  | c :: rest =>
    match skip with
    | skip + 1 => segmentsFrom p skip (position + 1) (some c) rest
    | 0 =>
      match p.matchAt ⟨position, before, c :: rest⟩ with
      | some hit =>
        if position < hit.stop then
          .found ⟨position, (c :: rest).take (hit.stop - position), hit.trail⟩ ::
            segmentsFrom p (hit.stop - position - 1) (position + 1) (some c) rest
        else .plain c :: segmentsFrom p 0 (position + 1) (some c) rest
      | none => .plain c :: segmentsFrom p 0 (position + 1) (some c) rest

/-- The text cut into the leftmost matches that do not overlap and the characters between. -/
def segments (p : Pattern) (text : List Char) : List Segment := p.segmentsFrom 0 0 none text

def matchesIn (p : Pattern) (text : List Char) : List Match :=
  (p.segments text).filterMap fun
    | .found m => some m
    | .plain _ => none

theorem segmentsFrom_text (p : Pattern) (text : List Char) (skip position : Nat)
    (before : Option Char) :
    (p.segmentsFrom skip position before text).flatMap Segment.text = text.drop skip := by
  induction text generalizing skip position before with
  | nil => simp [segmentsFrom]
  | cons c rest ih =>
    cases skip with
    | succ skip => simp [segmentsFrom, ih]
    | zero =>
      simp only [segmentsFrom]
      split
      · rename_i hit _
        split
        · rename_i later
          obtain ⟨n, hn⟩ : ∃ n, hit.stop - position = n + 1 :=
            ⟨hit.stop - position - 1, by omega⟩
          simp [Segment.text, ih, hn]
        · simp [Segment.text, ih]
      · simp [Segment.text, ih]

/-- The segments of a text are the text. -/
theorem segments_text (p : Pattern) (text : List Char) :
    (p.segments text).flatMap Segment.text = text := by
  simp [segments, segmentsFrom_text]

end Pattern

end MediaRange
