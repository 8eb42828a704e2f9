import MediaRange.Pattern.Search

/-!
# The ways to match a pattern

`Pattern.ways` lists the ways to match a pattern at a cursor, the preferred ones first. It has one
equation for each form of pattern. `matchAt_eq_head` shows that the search finds the first of them.
-/

namespace MediaRange

namespace Cursor

/-- The cursor after the next `n` characters, or at the end of the text if there are fewer. -/
def skip (k : Cursor) : Nat → Cursor
  | 0 => k
  | n + 1 =>
    match k.rest with
    | [] => k
    | c :: rest => skip ⟨k.position + 1, some c, rest⟩ n

@[simp] theorem skip_zero (k : Cursor) : k.skip 0 = k := rfl

theorem skip_succ (position : Nat) (before : Option Char) (c : Char) (rest : List Char) (n : Nat) :
    (Cursor.mk position before (c :: rest)).skip (n + 1) =
      (Cursor.mk (position + 1) (some c) rest).skip n := rfl

theorem skip_add (k : Cursor) (m n : Nat) : k.skip (m + n) = (k.skip m).skip n := by
  induction m generalizing k with
  | zero => simp
  | succ m ih =>
    obtain ⟨position, before, rest⟩ := k
    cases rest with
    | nil => cases n <;> simp [skip]
    | cons c rest =>
      rw [show m + 1 + n = (m + n) + 1 by omega, skip_succ, skip_succ, ih]

@[simp] theorem skip_rest (k : Cursor) (n : Nat) : (k.skip n).rest = k.rest.drop n := by
  induction n generalizing k with
  | zero => rfl
  | succ n ih =>
    obtain ⟨position, before, rest⟩ := k
    cases rest with
    | nil => rfl
    | cons c rest => rw [skip_succ, ih, List.drop_succ_cons]

theorem skip_position (k : Cursor) {n : Nat} (h : n ≤ k.rest.length) :
    (k.skip n).position = k.position + n := by
  induction n generalizing k with
  | zero => rfl
  | succ n ih =>
    obtain ⟨position, before, rest⟩ := k
    cases rest with
    | nil => simp at h
    | cons c rest =>
      simp only [List.length_cons, Nat.add_le_add_iff_right] at h
      rw [skip_succ, ih _ h, Nat.add_assoc, Nat.add_comm 1 n]

/-- The cursor after a text that comes next. -/
theorem skip_append {k : Cursor} {u r : List Char} (h : k.rest = u ++ r) :
    (k.skip u.length).rest = r ∧ (k.skip u.length).position = k.position + u.length :=
  ⟨by rw [skip_rest, h, List.drop_left], k.skip_position (by simp [h])⟩

theorem skip_cons {k : Cursor} {c : Char} {r : List Char} (h : k.rest = c :: r) :
    (k.skip 1).rest = r ∧ (k.skip 1).position = k.position + 1 :=
  skip_append (u := [c]) h

end Cursor

namespace Pattern

open Thread (passing)

structure Way where
  stop : Cursor
  trail : Trail

def Way.hit (w : Way) : Hit := ⟨w.stop.position, w.trail⟩

/-- The ways that start with a branch, when `next` gives those after the next character. -/
def Branch.follow (k : Cursor) (next : Pattern → Trail → List Way) (trail : Trail) :
    Branch → List Way
  | stop marks => [⟨k, passing trail k.position marks⟩]
  | take marks left => next left (passing trail k.position marks)

def waysFrom (position : Nat) (before : Option Char) :
    List Char → Pattern → Trail → List Way
  | [], p, trail =>
    (p.branches ⟨before, none⟩).flatMap
      (Branch.follow ⟨position, before, []⟩ (fun _ _ => []) trail)
  | c :: rest, p, trail =>
    (p.branches ⟨before, some c⟩).flatMap
      (Branch.follow ⟨position, before, c :: rest⟩ (waysFrom (position + 1) (some c) rest) trail)

/-- The ways to match from a cursor on, the preferred ones first. -/
def ways (p : Pattern) (k : Cursor) (trail : Trail) : List Way :=
  waysFrom k.position k.before k.rest p trail

def waysNext (k : Cursor) (p : Pattern) (trail : Trail) : List Way :=
  match k.rest with
  | [] => []
  | c :: rest => p.ways ⟨k.position + 1, some c, rest⟩ trail

theorem ways_eq (p : Pattern) (k : Cursor) (trail : Trail) :
    p.ways k trail = (p.branches k.place).flatMap (Branch.follow k (waysNext k) trail) := by
  obtain ⟨position, before, rest⟩ := k
  cases rest <;> rfl

theorem waysNext_cons (position : Nat) (before : Option Char) (c : Char) (rest : List Char)
    (p : Pattern) (trail : Trail) :
    waysNext ⟨position, before, c :: rest⟩ p trail = p.ways ⟨position + 1, some c, rest⟩ trail := rfl

theorem passing_append (trail : Trail) (position : Nat) (m n : List Mark) :
    passing (passing trail position m) position n = passing trail position (m ++ n) := by
  simp [passing]

theorem follow_after (k : Cursor) (next : Pattern → Trail → List Way) (trail : Trail)
    (marks : List Mark) (b : Branch) :
    Branch.follow k next trail (b.after marks) =
      Branch.follow k next (passing trail k.position marks) b := by
  cases b <;> simp [Branch.follow, Branch.after, passing_append]

/-! ### One equation for each form -/

attribute [local simp] branches

@[simp] theorem ways_empty (k : Cursor) (trail : Trail) : ways empty k trail = [⟨k, trail⟩] := by
  simp [ways_eq, Branch.follow, passing]

@[simp] theorem ways_mark (m : Mark) (k : Cursor) (trail : Trail) :
    ways (mark m) k trail = [⟨k, (m, k.position) :: trail⟩] := by
  simp [ways_eq, Branch.follow, passing]

theorem ways_look (l : Look) (k : Cursor) (trail : Trail) :
    ways (look l) k trail = if l.holds k.place then [⟨k, trail⟩] else [] := by
  rw [ways_eq, branches]
  split <;> simp [Branch.follow, passing]

theorem ways_one (s : CharSet) (k : Cursor) (trail : Trail) :
    ways (one s) k trail = if k.rest.head?.any s.has then [⟨k.skip 1, trail⟩] else [] := by
  obtain ⟨position, before, rest⟩ := k
  cases rest with
  | nil => simp [ways_eq, Cursor.place]
  | cons c rest =>
    rw [ways_eq, branches]
    simp only [Cursor.place, List.head?_cons, Option.any_some]
    by_cases h : s.has c = true <;> simp [h, Branch.follow, waysNext_cons, passing, Cursor.skip]

theorem ways_alt (p q : Pattern) (k : Cursor) (trail : Trail) :
    ways (alt p q) k trail = ways p k trail ++ ways q k trail := by
  simp [ways_eq]

theorem ways_opt (greedy : Bool) (p : Pattern) (k : Cursor) (trail : Trail) :
    ways (opt greedy p) k trail =
      if greedy then ways p k trail ++ [⟨k, trail⟩] else ⟨k, trail⟩ :: ways p k trail := by
  cases greedy <;> simp [ways_eq, Branch.follow, passing]

theorem ways_seq_empty (q : Pattern) (k : Cursor) (trail : Trail) :
    ways (seq empty q) k trail = ways q k trail := by
  have h : (branches k.place q).map (Branch.after []) = branches k.place q := by
    rw [List.map_congr_left (g := id), List.map_id]
    intro b _
    cases b <;> rfl
  simp [ways_eq, h]

theorem ways_andThen (p q : Pattern) (k : Cursor) (trail : Trail) :
    ways (p.andThen q) k trail = ways (seq p q) k trail := by
  cases p <;> first | rfl | exact (ways_seq_empty q k trail).symm

theorem ways_seq_eq (p q : Pattern) (k : Cursor) (trail : Trail) :
    ways (seq p q) k trail = (branches k.place p).flatMap fun
      | .stop marks => ways q k (passing trail k.position marks)
      | .take marks left => waysNext k (left.andThen q) (passing trail k.position marks) := by
  rw [ways_eq, branches, List.flatMap_assoc]
  refine congrArg (List.flatMap · _) (funext fun b => ?_)
  cases b with
  | stop marks =>
    dsimp only
    rw [ways_eq, List.flatMap_map]
    exact congrArg (List.flatMap · _) (funext (follow_after k _ trail marks))
  | take marks left => simp [Branch.follow]

/-- A sequence goes on with its second part wherever the first one stops. -/
theorem ways_seq (p q : Pattern) (k : Cursor) (trail : Trail) :
    ways (seq p q) k trail = (ways p k trail).flatMap fun w => ways q w.stop w.trail := by
  obtain ⟨position, before, rest⟩ := k
  -- The first character taken leaves a shorter text, so the induction is on the text.
  induction rest generalizing position before p trail with
  | nil =>
    rw [ways_seq_eq, ways_eq p, List.flatMap_assoc]
    refine congrArg (List.flatMap · _) (funext fun b => ?_)
    cases b <;> simp [Branch.follow, waysNext]
  | cons c rest ih =>
    rw [ways_seq_eq, ways_eq p, List.flatMap_assoc]
    refine congrArg (List.flatMap · _) (funext fun b => ?_)
    cases b with
    | stop marks => simp [Branch.follow]
    | take marks left => simp only [Branch.follow, waysNext_cons, ways_andThen, ih]

/-! ### Trails -/

def Way.above (trail : Trail) (w : Way) : Way := ⟨w.stop, w.trail ++ trail⟩

theorem passing_above (trail : Trail) (position : Nat) (marks : List Mark) :
    passing trail position marks = passing [] position marks ++ trail := by
  induction marks generalizing trail with
  | nil => rfl
  | cons m marks ih =>
    rw [show passing trail position (m :: marks) = passing ((m, position) :: trail) position marks
      from rfl, show passing [] position (m :: marks) = passing [(m, position)] position marks
      from rfl, ih, ih [(m, position)], List.append_assoc, List.singleton_append]

/-- The marks passed before do not matter, they only stay in the trail. -/
theorem ways_above (p : Pattern) (k : Cursor) (trail : Trail) :
    ways p k trail = (ways p k []).map (Way.above trail) := by
  obtain ⟨position, before, rest⟩ := k
  induction rest generalizing position before p trail with
  | nil =>
    rw [ways_eq, ways_eq, List.map_flatMap]
    refine congrArg (List.flatMap · _) (funext fun b => ?_)
    cases b with
    | stop marks => simp [Branch.follow, Way.above, passing_above trail]
    | take marks left => simp [Branch.follow, waysNext]
  | cons c rest ih =>
    rw [ways_eq, ways_eq, List.map_flatMap]
    refine congrArg (List.flatMap · _) (funext fun b => ?_)
    cases b with
    | stop marks => simp [Branch.follow, Way.above, passing_above trail]
    | take marks left =>
      simp only [Branch.follow, waysNext_cons]
      rw [ih, ih left (passing [] position marks), List.map_map, passing_above trail]
      refine List.map_congr_left fun w _ => ?_
      simp [Way.above]

theorem ways_eq_nil (p : Pattern) (k : Cursor) {t : Trail} (u : Trail) (h : ways p k t = []) :
    ways p k u = [] := by
  rw [ways_above, List.map_eq_nil_iff] at h
  rw [ways_above, h, List.map_nil]

theorem waysNext_eq_nil (p : Pattern) (k : Cursor) {t : Trail} (u : Trail)
    (h : waysNext k p t = []) : waysNext k p u = [] := by
  obtain ⟨position, before, rest⟩ := k
  cases rest with
  | nil => rfl
  | cons c rest => exact ways_eq_nil p _ u h

/-! ### The race -/

/-- What the threads ahead of the first stop come to, and then that stop. -/
def raceHead (k : Cursor) (outcome : List Thread × Option Trail) : Option Way :=
  (outcome.1.flatMap fun t => waysNext k t.left t.trail).head?.or
    (outcome.2.map fun trail => ⟨k, trail⟩)

theorem raceHead_ahead (k : Cursor) (trail : Trail) (branches : List Branch)
    (rest : List Thread × Option Trail) :
    raceHead k (Thread.ahead k.position trail branches rest) =
      (branches.flatMap (Branch.follow k (waysNext k) trail)).head?.or (raceHead k rest) := by
  induction branches with
  | nil => simp [Thread.ahead]
  | cons b branches ih =>
    cases b with
    | stop marks => simp [Thread.ahead, raceHead, Branch.follow]
    | take marks left =>
      rw [List.flatMap_cons, List.head?_append, Option.or_assoc, ← ih]
      simp [Thread.ahead, raceHead, Branch.follow, List.head?_append, Option.or_assoc]

theorem raceHead_advance (k : Cursor) (threads : List Thread) :
    raceHead k (Thread.advance k.position k.place threads) =
      (threads.flatMap fun t => ways t.left k t.trail).head? := by
  induction threads with
  | nil => rfl
  | cons thread threads ih =>
    rw [Thread.advance, raceHead_ahead, ih, List.flatMap_cons, List.head?_append, ways_eq]

/-- Threads with a pattern that does not match add nothing. -/
theorem flatMap_filter_left (k : Cursor) (p : Pattern) (hopeless : ∀ t, waysNext k p t = [])
    (threads : List Thread) :
    ((threads.filter (·.left ≠ p)).flatMap fun t => waysNext k t.left t.trail) =
      threads.flatMap fun t => waysNext k t.left t.trail := by
  induction threads with
  | nil => rfl
  | cons thread threads ih =>
    by_cases same : thread.left = p
    · rw [List.filter_cons_of_neg (by simp [same]), ih, List.flatMap_cons, same, hopeless,
        List.nil_append]
    · rw [List.filter_cons_of_pos (by simp [same]), List.flatMap_cons, List.flatMap_cons, ih]

/-- A thread with the same pattern left as an earlier one adds nothing. -/
theorem head_distinct (k : Cursor) (threads : List Thread) :
    ((Thread.distinct threads).flatMap fun t => waysNext k t.left t.trail).head? =
      (threads.flatMap fun t => waysNext k t.left t.trail).head? := by
  induction threads with
  | nil => rfl
  | cons thread threads ih =>
    rw [Thread.distinct, List.flatMap_cons, List.flatMap_cons, List.head?_append,
      List.head?_append, ← ih]
    cases first : waysNext k thread.left thread.trail with
    | cons w ways => rfl
    | nil =>
      rw [flatMap_filter_left k thread.left fun t => waysNext_eq_nil _ _ t first]

theorem race_eq_head (position : Nat) (before : Option Char) (rest : List Char)
    (threads : List Thread) (best : Option Hit) :
    race position before rest threads best =
      ((threads.flatMap fun t => ways t.left ⟨position, before, rest⟩ t.trail).head?.map
        Way.hit).or best := by
  induction rest generalizing position before threads best with
  | nil =>
    rw [← raceHead_advance, race]
    have noNext : ∀ ts : List Thread,
        (ts.flatMap fun t => waysNext ⟨position, before, []⟩ t.left t.trail) = [] := by
      simp [waysNext]
    simp only [Cursor.place, List.head?_nil, raceHead, noNext, Option.none_or]
    cases (Thread.advance position ⟨before, none⟩ threads).2 <;> rfl
  | cons c rest ih =>
    rw [← raceHead_advance, race]
    simp only [Cursor.place, List.head?_cons, raceHead]
    rw [← head_distinct]
    generalize Thread.advance position ⟨before, some c⟩ threads = outcome
    obtain ⟨running, stopped⟩ := outcome
    have goesOn (ts : List Thread) (best : Option Hit) :
        race (position + 1) (some c) rest ts best =
          ((ts.flatMap fun t => waysNext ⟨position, before, c :: rest⟩ t.left t.trail).head?.map
            Way.hit).or best := ih ..
    dsimp only
    cases Thread.distinct running with
    | nil => cases stopped <;> rfl
    | cons t ts =>
      dsimp only
      rw [goesOn]
      cases (List.flatMap (fun t : Thread => waysNext ⟨position, before, c :: rest⟩ t.left t.trail)
        (t :: ts)).head? <;> cases stopped <;> rfl

/-- The search finds the preferred way to match. -/
theorem matchAt_eq_head (p : Pattern) (k : Cursor) :
    p.matchAt k = (p.ways k []).head?.map Way.hit := by
  rw [matchAt, race_eq_head]
  simp

end Pattern

end MediaRange
