import MediaRange.Proofs.Pattern.Paths

/-!
# Patterns as sets of words

A pattern without conditions and marks matches the same words at every place. `HasWords` says which
ones, whatever the preference among them; there is one rule for each form. `head_star_seq` adds the
preference where it matters: a greedy run is as long as the rest of the pattern allows.
-/

namespace MediaRange.Pattern

open Thread (passing)

/-- The pattern matches exactly these words, and passes no marks. -/
def HasWords (p : Pattern) (words : List Char → Prop) : Prop :=
  ∀ k trail w, w ∈ ways p k trail ↔
    ∃ u r, k.rest = u ++ r ∧ words u ∧ w = ⟨k.skip u.length, trail⟩

def IsRun (s : CharSet) (u : List Char) : Prop := ∀ c ∈ u, s.has c = true

theorem hasWords_one (s : CharSet) : HasWords (one s) fun u => ∃ c, s.has c = true ∧ u = [c] := by
  rintro ⟨position, before, rest⟩ trail w
  rw [ways_one]
  cases rest with
  | nil => simp
  | cons c rest =>
    by_cases h : s.has c = true
    · constructor
      · intro hw
        exact ⟨[c], rest, rfl, ⟨c, h, rfl⟩, by simpa [h] using hw⟩
      · rintro ⟨u, r, hr, ⟨d, hd, rfl⟩, rfl⟩
        simp [h]
    · constructor
      · intro hw
        simp [h] at hw
      · rintro ⟨u, r, hr, ⟨d, hd, rfl⟩, rfl⟩
        simp only [List.cons_append, List.cons.injEq] at hr
        exact absurd (hr.1 ▸ hd) h

theorem HasWords.seq {p q : Pattern} {pWords qWords : List Char → Prop} (hp : HasWords p pWords)
    (hq : HasWords q qWords) :
    HasWords (p.seq q) fun u => ∃ v w, u = v ++ w ∧ pWords v ∧ qWords w := by
  intro k trail w
  rw [ways_seq, List.mem_flatMap]
  constructor
  · rintro ⟨v, hv, hw⟩
    obtain ⟨u, r, hr, hu, rfl⟩ := (hp k trail v).mp hv
    obtain ⟨u', r', hr', hu', rfl⟩ := (hq _ _ w).mp hw
    have hr'' : r = u' ++ r' := by simpa [hr] using hr'
    refine ⟨u ++ u', r', by rw [hr, hr'', List.append_assoc], ⟨u, u', rfl, hu, hu'⟩, ?_⟩
    rw [List.length_append, Cursor.skip_add]
  · rintro ⟨_, r, hr, ⟨u, u', rfl, hu, hu'⟩, rfl⟩
    refine ⟨⟨k.skip u.length, trail⟩, (hp k trail _).mpr ⟨u, u' ++ r, by rw [hr, List.append_assoc],
      hu, rfl⟩, (hq _ _ _).mpr ⟨u', r, ?_, hu', ?_⟩⟩
    · simp [hr]
    · rw [List.length_append, Cursor.skip_add]

theorem HasWords.opt {p : Pattern} {words : List Char → Prop} (greedy : Bool)
    (hp : HasWords p words) : HasWords (p.opt greedy) fun u => words u ∨ u = [] := by
  intro k trail w
  rw [mem_ways_opt, hp]
  constructor
  · rintro (⟨u, r, hr, hu, rfl⟩ | rfl)
    · exact ⟨u, r, hr, .inl hu, rfl⟩
    · exact ⟨[], k.rest, rfl, .inr rfl, rfl⟩
  · rintro ⟨u, r, hr, hu | rfl, rfl⟩
    · exact .inl ⟨u, r, hr, hu, rfl⟩
    · exact .inr rfl

theorem HasWords.of_iff {p : Pattern} {words others : List Char → Prop} (hp : HasWords p words)
    (h : ∀ u, words u ↔ others u) : HasWords p others := by
  intro k trail w
  simp only [hp k trail w, h]

theorem HasWords.leads {p : Pattern} {words : List Char → Prop} (hp : HasWords p words) {k : Cursor}
    {trail : Trail} {w : Way} (hw : w ∈ ways p k trail) :
    ∃ u, words u ∧ k.Leads u w.stop ∧ w.trail = trail := by
  obtain ⟨u, r, hk, hu, rfl⟩ := (hp k trail w).mp hw
  exact ⟨u, hu, Cursor.leads_skip hk, rfl⟩

theorem HasWords.whole {p : Pattern} {words : List Char → Prop} (hp : HasWords p words)
    (text : List Char) :
    words text ↔ (ways p (.start text) []).any (·.stop.rest.isEmpty) = true := by
  simp only [List.any_eq_true, List.isEmpty_iff]
  constructor
  · intro h
    exact ⟨_, (hp _ _ _).mpr ⟨text, [], (List.append_nil text).symm, h, rfl⟩, by simp [Cursor.start]⟩
  · rintro ⟨w, hw, hstop⟩
    obtain ⟨u, r, hr, hu, rfl⟩ := (hp _ _ w).mp hw
    obtain rfl : text = u ++ r := hr
    obtain rfl : r = [] := by simpa [Cursor.start] using hstop
    rwa [List.append_nil]

theorem HasWords.seq_ne_nil {p q : Pattern} {words : List Char → Prop} (hp : HasWords p words)
    {k : Cursor} {trail : Trail} :
    ways (p.seq q) k trail ≠ [] ↔
      ∃ u r, k.rest = u ++ r ∧ words u ∧ ways q (k.skip u.length) trail ≠ [] := by
  rw [ways_seq, ne_eq, List.flatMap_eq_nil_iff]
  constructor
  · intro h
    simp only [Classical.not_forall] at h
    obtain ⟨w, hw, hne⟩ := h
    obtain ⟨u, r, hr, hu, rfl⟩ := (hp k trail w).mp hw
    exact ⟨u, r, hr, hu, hne⟩
  · rintro ⟨u, r, hr, hu, hne⟩ h
    exact hne (h ⟨k.skip u.length, trail⟩ ((hp k trail _).mpr ⟨u, r, hr, hu, rfl⟩))

/-! ### Runs -/

theorem ways_again_one (greedy : Bool) (s : CharSet) (k : Cursor) (trail : Trail) :
    ways (again greedy (one s)) k trail =
      let rounds := if k.rest.head?.any s.has then waysNext k (again greedy (one s)) trail else []
      if greedy then rounds ++ [⟨k, trail⟩] else ⟨k, trail⟩ :: rounds := by
  obtain ⟨position, before, rest⟩ := k
  rw [ways_eq, branches, branches]
  by_cases h : rest.head?.any s.has = true <;> cases greedy <;>
    simp [Cursor.place, h, Branch.furtherRound?, andThen, Branch.follow, passing]

theorem ways_plus_one (greedy : Bool) (s : CharSet) (k : Cursor) (trail : Trail) :
    ways (plus greedy (one s)) k trail =
      if k.rest.head?.any s.has then waysNext k (again greedy (one s)) trail else [] := by
  obtain ⟨position, before, rest⟩ := k
  rw [ways_eq, branches, branches]
  by_cases h : rest.head?.any s.has = true <;>
    simp [Cursor.place, h, Branch.firstRound, andThen, Branch.follow, passing]

theorem ways_star_one (greedy : Bool) (s : CharSet) (k : Cursor) (trail : Trail) :
    ways (star greedy (one s)) k trail = ways (again greedy (one s)) k trail := by
  rw [star, ways_opt, ways_plus_one, ways_again_one]

theorem mem_ways_again_one (greedy : Bool) (s : CharSet) (k : Cursor) (trail : Trail) (w : Way) :
    w ∈ ways (again greedy (one s)) k trail ↔
      w ∈ ways (plus greedy (one s)) k trail ∨ w = ⟨k, trail⟩ := by
  rw [ways_again_one, ways_plus_one]
  cases greedy <;> simp [or_comm]

theorem mem_ways_plus_one (greedy : Bool) (s : CharSet) (position : Nat) (before : Option Char)
    (rest : List Char) (trail : Trail) (w : Way) :
    w ∈ ways (plus greedy (one s)) ⟨position, before, rest⟩ trail ↔
      ∃ c r, rest = c :: r ∧ s.has c = true ∧
        w ∈ ways (again greedy (one s)) ⟨position + 1, some c, r⟩ trail := by
  rw [ways_plus_one]
  by_cases h : (Cursor.mk position before rest).rest.head?.any s.has = true
  · rw [if_pos h]
    cases rest with
    | nil => cases h
    | cons c r =>
      refine ⟨fun hw => ⟨c, r, rfl, h, hw⟩, ?_⟩
      rintro ⟨_, _, same, -, hw⟩
      obtain ⟨rfl, rfl⟩ := List.cons.inj same
      exact hw
  · rw [if_neg h]
    refine ⟨fun hw => absurd hw List.not_mem_nil, ?_⟩
    rintro ⟨c, r, rfl, hc, -⟩
    exact absurd hc h

theorem hasWords_again_one (greedy : Bool) (s : CharSet) :
    HasWords (again greedy (one s)) (IsRun s) := by
  rintro ⟨position, before, rest⟩ trail w
  induction rest generalizing position before w with
  | nil =>
    rw [mem_ways_again_one, mem_ways_plus_one]
    constructor
    · rintro (⟨c, r, hr, -⟩ | rfl)
      · cases hr
      · exact ⟨[], [], rfl, by simp [IsRun], rfl⟩
    · rintro ⟨u, r, hr, -, rfl⟩
      obtain ⟨rfl, rfl⟩ := List.append_eq_nil_iff.mp hr.symm
      exact .inr rfl
  | cons d rest ih =>
    rw [mem_ways_again_one, mem_ways_plus_one]
    constructor
    · rintro (⟨c, r, hr, hc, hw⟩ | rfl)
      · obtain ⟨rfl, rfl⟩ := List.cons.inj hr
        obtain ⟨u, r', hr', hu, rfl⟩ := (ih ..).mp hw
        exact ⟨d :: u, r', congrArg (d :: ·) hr', List.forall_mem_cons.mpr ⟨hc, hu⟩, rfl⟩
      · exact ⟨[], d :: rest, rfl, by simp [IsRun], rfl⟩
    · rintro ⟨u, r, hr, hu, rfl⟩
      cases u with
      | nil => exact .inr rfl
      | cons c u =>
        obtain ⟨rfl, rfl⟩ := List.cons.inj hr
        obtain ⟨hc, hu⟩ := List.forall_mem_cons.mp hu
        exact .inl ⟨d, u ++ r, rfl, hc, (ih ..).mpr ⟨u, r, rfl, hu, rfl⟩⟩

theorem hasWords_star_one (greedy : Bool) (s : CharSet) :
    HasWords (star greedy (one s)) (IsRun s) := by
  intro k trail w
  rw [ways_star_one]
  exact hasWords_again_one greedy s k trail w

theorem hasWords_plus_one (greedy : Bool) (s : CharSet) :
    HasWords (plus greedy (one s)) fun u => IsRun s u ∧ u ≠ [] := by
  rintro ⟨position, before, rest⟩ trail w
  rw [mem_ways_plus_one]
  constructor
  · rintro ⟨c, r, rfl, hc, hw⟩
    obtain ⟨u, r', hr', hu, rfl⟩ := (hasWords_again_one greedy s _ trail w).mp hw
    exact ⟨c :: u, r', congrArg (c :: ·) hr', ⟨List.forall_mem_cons.mpr ⟨hc, hu⟩, by simp⟩, rfl⟩
  · rintro ⟨u, r, hr, ⟨hu, hne⟩, rfl⟩
    cases u with
    | nil => exact absurd rfl hne
    | cons c u =>
      obtain ⟨hc, hu⟩ := List.forall_mem_cons.mp hu
      simp only [List.cons_append] at hr
      subst hr
      exact ⟨c, u ++ r, rfl, hc, (hasWords_again_one greedy s _ trail _).mpr ⟨u, r, rfl, hu, rfl⟩⟩

/-! ### The preferred run -/

/-- A greedy run starts with its longest way; the others stop earlier. -/
theorem ways_star_one_greedy (s : CharSet) (k : Cursor) (trail : Trail) (u r : List Char)
    (hk : k.rest = u ++ r) (hu : IsRun s u) (hr : r.head?.any s.has = false) :
    ∃ shorter, ways (star true (one s)) k trail = ⟨k.skip u.length, trail⟩ :: shorter := by
  rw [ways_star_one]
  obtain ⟨position, before, rest⟩ := k
  simp only at hk
  subst hk
  induction u generalizing position before with
  | nil =>
    rw [ways_again_one]
    exact ⟨[], by simp [hr]⟩
  | cons c u ih =>
    obtain ⟨hc, hu⟩ := List.forall_mem_cons.mp hu
    obtain ⟨shorter, h⟩ := ih hu (position + 1) (some c)
    refine ⟨shorter ++ [⟨⟨position, before, c :: u ++ r⟩, trail⟩], ?_⟩
    rw [ways_again_one]
    simp [hc, waysNext_cons, h, Cursor.skip_succ]

/-- If the longest run can be followed whenever a shorter one can, it is the preferred one. -/
theorem head_star_seq {s : CharSet} {q : Pattern} {k : Cursor} {trail : Trail} {u r : List Char}
    (hk : k.rest = u ++ r) (hu : IsRun s u) (hr : r.head?.any s.has = false)
    (hq : ∀ v w, u = v ++ w → ways q (k.skip v.length) trail ≠ [] →
      ways q (k.skip u.length) trail ≠ []) :
    (ways (seq (star true (one s)) q) k trail).head? =
      (ways q (k.skip u.length) trail).head? := by
  obtain ⟨shorter, h⟩ := ways_star_one_greedy s k trail u r hk hu hr
  rw [ways_seq, h, List.flatMap_cons, List.head?_append]
  by_cases hlong : ways q (k.skip u.length) trail = []
  · have none : shorter.flatMap (fun w => ways q w.stop w.trail) = [] := by
      refine List.flatMap_eq_nil_iff.mpr fun w hw => ?_
      have hmem : w ∈ ways (star true (one s)) k trail := by rw [h]; exact List.mem_cons_of_mem _ hw
      obtain ⟨v, r', hv, hrun, rfl⟩ := (hasWords_star_one true s k trail w).mp hmem
      rcases List.append_eq_append_iff.mp (hk.symm.trans hv) with ⟨more, rfl, rfl⟩ | ⟨more, rfl, rfl⟩
      · cases more with
        | nil => simpa using hlong
        | cons c more => simp [hrun c (by simp)] at hr
      · exact Decidable.not_not.mp fun hne => hq v more rfl hne hlong
    simp [hlong, none]
  · obtain ⟨w, ws, hw⟩ := List.exists_cons_of_ne_nil hlong
    simp [hw]

end MediaRange.Pattern
