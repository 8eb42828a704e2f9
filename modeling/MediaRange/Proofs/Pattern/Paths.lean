import MediaRange.Proofs.Pattern.Ways

/-!
# Paths of a match

A match leads from one cursor to another by reading the text between them: `Cursor.Leads`. The ways
through a loop are given round by round, by `mem_ways_plus` and `mem_ways_again`.
-/

namespace MediaRange

namespace Cursor

/-- Reading a text leads from one cursor to the other. -/
structure Leads (k : Cursor) (u : List Char) (l : Cursor) : Prop where
  rest : k.rest = u ++ l.rest
  position : l.position = k.position + u.length
  before : l.before = u.getLast?.or k.before

namespace Leads

variable {k l m : Cursor} {u v : List Char}

theorem refl (k : Cursor) : k.Leads [] k := ⟨rfl, rfl, rfl⟩

theorem trans (h : k.Leads u l) (h' : l.Leads v m) : k.Leads (u ++ v) m where
  rest := by rw [h.rest, h'.rest, List.append_assoc]
  position := by rw [h'.position, h.position, List.length_append, Nat.add_assoc]
  before := by rw [h'.before, h.before, List.getLast?_append, Option.or_assoc]

end Leads

theorem leads_one {k : Cursor} {c : Char} {r : List Char} (h : k.rest = c :: r) :
    k.Leads [c] (k.skip 1) := by
  obtain ⟨position, before, rest⟩ := k
  obtain rfl : rest = c :: r := h
  exact ⟨rfl, rfl, rfl⟩

theorem leads_skip {k : Cursor} {u r : List Char} (h : k.rest = u ++ r) :
    k.Leads u (k.skip u.length) := by
  induction u generalizing k with
  | nil => exact .refl k
  | cons c u ih =>
    have first := leads_one h
    have later := ih (k := k.skip 1) (by simp [h])
    rw [List.length_cons, Nat.add_comm, skip_add]
    exact first.trans later

end Cursor

namespace Pattern

theorem mem_ways {p : Pattern} {k : Cursor} {trail : Trail} {w : Way} :
    w ∈ ways p k trail ↔ ∃ b ∈ p.branches k.place, w ∈ Branch.follow k (waysNext k) trail b := by
  rw [ways_eq, List.mem_flatMap]

theorem mem_ways_opt {greedy : Bool} {p : Pattern} {k : Cursor} {trail : Trail} {w : Way} :
    w ∈ ways (opt greedy p) k trail ↔ w ∈ ways p k trail ∨ w = ⟨k, trail⟩ := by
  rw [ways_opt]
  cases greedy <;> simp [or_comm]

theorem ways_leads {p : Pattern} {k : Cursor} {trail : Trail} {w : Way} (hw : w ∈ ways p k trail) :
    ∃ u, k.Leads u w.stop := by
  obtain ⟨position, before, rest⟩ := k
  induction rest generalizing position before p trail with
  | nil =>
    obtain ⟨b, -, hw⟩ := mem_ways.mp hw
    cases b with
    | stop marks =>
      obtain rfl := List.mem_singleton.mp hw
      exact ⟨[], .refl _⟩
    | take marks left => cases hw
  | cons c rest ih =>
    obtain ⟨b, -, hw⟩ := mem_ways.mp hw
    cases b with
    | stop marks =>
      obtain rfl := List.mem_singleton.mp hw
      exact ⟨[], .refl _⟩
    | take marks left =>
      obtain ⟨u, hu⟩ := ih _ _ hw
      exact ⟨c :: u, (Cursor.leads_one rfl).trans hu⟩

theorem ways_rest_le {p : Pattern} {k : Cursor} {trail : Trail} {w : Way}
    (hw : w ∈ ways p k trail) : w.stop.rest.length ≤ k.rest.length := by
  obtain ⟨u, path⟩ := ways_leads hw
  rw [path.rest, List.length_append]
  omega

theorem waysNext_rest_lt {p : Pattern} {k : Cursor} {trail : Trail} {w : Way}
    (hw : w ∈ waysNext k p trail) : w.stop.rest.length < k.rest.length := by
  obtain ⟨position, before, rest⟩ := k
  cases rest with
  | nil => cases hw
  | cons c rest => exact Nat.lt_succ_of_le (ways_rest_le hw)

/-! ### Loops -/

theorem mem_waysNext_andThen {p q : Pattern} {k : Cursor} {trail : Trail} {w : Way} :
    w ∈ waysNext k (p.andThen q) trail ↔
      ∃ v ∈ waysNext k p trail, w ∈ ways q v.stop v.trail := by
  obtain ⟨position, before, rest⟩ := k
  cases rest with
  | nil => simp [waysNext]
  | cons c rest => rw [waysNext_cons, ways_andThen, ways_seq, List.mem_flatMap, waysNext_cons]

/-- After the first round come further ones, unless it took no character. -/
theorem mem_ways_plus {greedy : Bool} {p : Pattern} {k : Cursor} {trail : Trail} {w : Way} :
    w ∈ ways (plus greedy p) k trail ↔ ∃ v ∈ ways p k trail,
      (v.stop.rest.length < k.rest.length ∧ w ∈ ways (again greedy p) v.stop v.trail) ∨
        (k.rest.length ≤ v.stop.rest.length ∧ w = v) := by
  rw [mem_ways, branches]
  simp only [List.mem_map]
  constructor
  · rintro ⟨_, ⟨b, hb, rfl⟩, hw⟩
    cases b with
    | stop marks =>
      obtain rfl := List.mem_singleton.mp hw
      exact ⟨_, mem_ways.mpr ⟨_, hb, List.mem_singleton_self _⟩, .inr ⟨Nat.le_refl _, rfl⟩⟩
    | take marks left =>
      obtain ⟨v, hv, hw⟩ := mem_waysNext_andThen.mp hw
      exact ⟨v, mem_ways.mpr ⟨_, hb, hv⟩, .inl ⟨waysNext_rest_lt hv, hw⟩⟩
  · rintro ⟨v, hv, hw⟩
    obtain ⟨b, hb, hv⟩ := mem_ways.mp hv
    refine ⟨_, ⟨b, hb, rfl⟩, ?_⟩
    cases b with
    | stop marks =>
      obtain rfl := List.mem_singleton.mp hv
      rcases hw with ⟨shorter, -⟩ | ⟨-, rfl⟩
      · exact absurd shorter (Nat.lt_irrefl _)
      · exact List.mem_singleton_self _
    | take marks left =>
      rcases hw with ⟨-, hw⟩ | ⟨le, -⟩
      · exact mem_waysNext_andThen.mpr ⟨v, hv, hw⟩
      · exact absurd (waysNext_rest_lt hv) (Nat.not_lt.mpr le)

theorem mem_ways_again {greedy : Bool} {p : Pattern} {k : Cursor} {trail : Trail} {w : Way} :
    w ∈ ways (again greedy p) k trail ↔ w = ⟨k, trail⟩ ∨ ∃ v ∈ ways p k trail,
      v.stop.rest.length < k.rest.length ∧ w ∈ ways (again greedy p) v.stop v.trail := by
  have split : ∀ b, b ∈ branches k.place (again greedy p) ↔ b = .stop [] ∨
      ∃ b' ∈ branches k.place p, Branch.furtherRound? (again greedy p) b' = some b := by
    intro b
    rw [branches]
    cases greedy <;> simp [or_comm]
  rw [mem_ways]
  constructor
  · rintro ⟨b, hb, hw⟩
    rcases (split b).mp hb with rfl | ⟨b', hb', further⟩
    · exact .inl (List.mem_singleton.mp hw)
    · cases b' with
      | stop marks => cases further
      | take marks left =>
        cases further
        obtain ⟨v, hv, hw⟩ := mem_waysNext_andThen.mp hw
        exact .inr ⟨v, mem_ways.mpr ⟨_, hb', hv⟩, waysNext_rest_lt hv, hw⟩
  · rintro (rfl | ⟨v, hv, shorter, hw⟩)
    · exact ⟨_, (split _).mpr (.inl rfl), List.mem_singleton_self _⟩
    · obtain ⟨b, hb, hv⟩ := mem_ways.mp hv
      cases b with
      | stop marks =>
        obtain rfl := List.mem_singleton.mp hv
        exact absurd shorter (Nat.lt_irrefl _)
      | take marks left =>
        exact ⟨_, (split _).mpr (.inr ⟨_, hb, rfl⟩), mem_waysNext_andThen.mpr ⟨v, hv, hw⟩⟩

/-- What holds where the last round stops, and before a round if it holds after it, holds before all
of them. -/
theorem rounds_induction {greedy : Bool} {p : Pattern} {w : Way} {motive : Cursor → Trail → Prop}
    (stop : motive w.stop w.trail)
    (round : ∀ {k trail}, ∀ v ∈ ways p k trail, v.stop.rest.length < k.rest.length →
      w ∈ ways (again greedy p) v.stop v.trail → motive v.stop v.trail → motive k trail)
    {k : Cursor} {trail : Trail} (hw : w ∈ ways (again greedy p) k trail) : motive k trail := by
  -- A further round leaves less of the text.
  induction hn : k.rest.length using Nat.strongRecOn generalizing k trail with
  | ind n ih =>
    rcases mem_ways_again.mp hw with rfl | ⟨v, hv, shorter, hw⟩
    · exact stop
    · exact round v hv shorter hw (ih _ (hn ▸ shorter) hw rfl)

end Pattern

end MediaRange
