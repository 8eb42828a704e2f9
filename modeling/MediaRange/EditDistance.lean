/-!
# Edit distance

`editDistance` is the least number of insertions, deletions and substitutions that turn one list
into another. It fills the table of distances between prefixes row by row.
-/

namespace MediaRange

/-- The rest of the row for one more element `x`. `left` is the entry before it, and the row above
starts with the entry diagonally before it. -/
def editRow {α : Type} [DecidableEq α] (x : α) : Nat → List α → List Nat → List Nat
  | left, y :: ys, diagonal :: above :: row =>
    let entry := min (min (left + 1) (above + 1)) (if x = y then diagonal else diagonal + 1)
    entry :: editRow x entry ys (above :: row)
  | _, _, _ => []

/-- The row below a row of the table. -/
def nextEditRow {α : Type} [DecidableEq α] (ys : List α) (row : List Nat) (x : α) : List Nat :=
  let first := row.headD 0 + 1
  first :: editRow x first ys row

def editDistance {α : Type} [DecidableEq α] (xs ys : List α) : Nat :=
  (xs.foldl (nextEditRow ys) (List.range (ys.length + 1))).getLastD 0

end MediaRange
