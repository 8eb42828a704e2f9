import MediaRange.Proofs.Pattern.Narrowing
import MediaRange.Proofs.Pattern.Paths

/-!
# A text and the window it is seen through

A pattern that matches a part of a text may match the part by itself too. `Narrower.window` shows
that a wider one does, if no word goes on at either end of the part.
-/

namespace MediaRange.Pattern

/-- Both cursors are before the same text, but one of them sees what comes after and before it. -/
structure Window (after : List Char) (k a : Cursor) : Prop where
  rest : k.rest = a.rest ++ after
  before : k.before = a.before ∨ a.before = none ∧ k.before.any Unicode.isWord = false
  wordAfter : after.head?.any Unicode.isWord = false

namespace Window

variable {after : List Char} {k a : Cursor}

theorem wordBefore (h : Window after k a) : k.place.wordBefore = a.place.wordBefore := by
  rcases h.before with same | ⟨none, noWord⟩
  · exact congrArg (Option.any Unicode.isWord) same
  · rw [Place.wordBefore, Place.wordBefore, Cursor.place, Cursor.place, none]
    exact noWord

theorem wordAfter_eq (h : Window after k a) : k.place.wordAfter = a.place.wordAfter := by
  rw [Place.wordAfter, Place.wordAfter, Cursor.place, Cursor.place, h.rest]
  cases a.rest with
  | nil => exact h.wordAfter
  | cons c rest => rfl

/-- An end of the text is an end of the part, and so is an end of a line. -/
theorem holds (h : Window after k a) {l m : Look} (narrower : l.Narrower m)
    (hl : l.holds k.place = true) : m.holds a.place = true := by
  have before : ∀ holds : Option Char → Bool, holds none = true → holds k.before = true →
      holds a.before = true := by
    intro holds hnone hk
    rcases h.before with same | ⟨none, -⟩
    · rwa [← same]
    · rwa [none]
  have next : ∀ holds : Option Char → Bool, holds none = true → holds k.rest.head? = true →
      holds a.rest.head? = true := by
    intro holds hnone hk
    rw [h.rest] at hk
    cases hrest : a.rest with
    | nil => exact hnone
    | cons c rest => rwa [hrest] at hk
  cases narrower with
  | start =>
    have none : k.before = none := Option.isNone_iff_eq_none.mp hl
    exact before (Option.all (· == '\n')) rfl (by rw [none]; rfl)
  | stop =>
    have none : k.rest.head? = none := Option.isNone_iff_eq_none.mp hl
    exact next (Option.all (· == '\n')) rfl (by rw [none]; rfl)
  | refl =>
    cases l with
    | textStart => exact before Option.isNone rfl hl
    | textEnd => exact next Option.isNone rfl hl
    | lineStart => exact before (Option.all (· == '\n')) rfl hl
    | lineEnd => exact next (Option.all (· == '\n')) rfl hl
    | _ => simpa only [Look.holds, h.wordBefore, h.wordAfter_eq] using hl

theorem skip_one (h : Window after k a) {c : Char} {rest : List Char} (ha : a.rest = c :: rest) :
    Window after (k.skip 1) (a.skip 1) := by
  obtain ⟨position, before, krest⟩ := k
  obtain ⟨position', before', arest⟩ := a
  obtain rfl : arest = c :: rest := ha
  obtain rfl : krest = c :: (rest ++ after) := h.rest
  exact ⟨rfl, .inl rfl, h.wordAfter⟩

theorem rest_lt_iff {k' a' : Cursor} (h' : Window after k' a') (h : Window after k a) :
    k'.rest.length < k.rest.length ↔ a'.rest.length < a.rest.length := by
  rw [h.rest, h'.rest, List.length_append, List.length_append]
  omega

end Window

namespace Narrower

variable {p q : Pattern}

theorem trail_eq (h : Narrower [] p q) {k : Cursor} {trail : Trail} {w : Way}
    (hw : w ∈ ways p k trail) : w.trail = trail := by
  induction h generalizing k trail w with
  | empty => simp [List.mem_singleton.mp (ways_empty k trail ▸ hw)]
  | one h =>
    rw [ways_one] at hw
    split at hw
    · simp [List.mem_singleton.mp hw]
    · cases hw
  | look h =>
    rw [ways_look] at hw
    split at hw
    · simp [List.mem_singleton.mp hw]
    · cases hw
  | opening h => cases h
  | closing h => cases h
  | seq _ _ ihp ihq =>
    rw [ways_seq] at hw
    obtain ⟨v, hv, hw⟩ := List.mem_flatMap.mp hw
    exact (ihq hw).trans (ihp hv)
  | alt _ _ ihp ihq =>
    rw [ways_alt] at hw
    exact (List.mem_append.mp hw).elim ihp ihq
  | opt greedy _ ih =>
    rcases mem_ways_opt.mp hw with hw | rfl
    · exact ih hw
    · rfl
  | @plus greedy p q _ ih =>
    have loop {k : Cursor} {trail : Trail} (hw : w ∈ ways (again greedy p) k trail) :
        w.trail = trail :=
      rounds_induction (motive := fun _ trail => w.trail = trail) rfl
        (fun v hv _ _ later => later.trans (ih hv)) hw
    obtain ⟨v, hv, ⟨-, hw⟩ | ⟨-, rfl⟩⟩ := mem_ways_plus.mp hw
    · exact (loop hw).trans (ih hv)
    · exact ih hv

/-- What a narrower pattern matches in a text, a wider one matches in the part that is seen through
the window. -/
theorem window (h : Narrower [] p q) {after : List Char} {k a : Cursor} {trail : Trail} {w : Way}
    (hk : Window after k a) (hw : w ∈ ways p k trail) (inside : after.length ≤ w.stop.rest.length)
    (trail' : Trail) : ∃ v ∈ ways q a trail', Window after w.stop v.stop := by
  induction h generalizing k a trail w trail' with
  | empty =>
    obtain rfl := List.mem_singleton.mp (ways_empty k trail ▸ hw)
    exact ⟨⟨a, trail'⟩, by simp, hk⟩
  | @one s t h =>
    rw [ways_one] at hw
    split at hw
    · rename_i has
      obtain rfl := List.mem_singleton.mp hw
      cases ha : a.rest with
      | nil =>
        -- The character taken would be one after the part.
        rw [Cursor.skip_rest, hk.rest, ha, List.nil_append, List.length_drop] at inside
        rw [hk.rest, ha, List.nil_append] at has
        cases after with
        | nil => cases has
        | cons c after =>
          rw [List.length_cons] at inside
          omega
      | cons c rest =>
        have has' : a.rest.head?.any t.has = true := by
          rw [hk.rest, ha] at has
          rw [ha]
          exact h c has
        exact ⟨⟨a.skip 1, trail'⟩, by rw [ways_one, if_pos has']; exact List.mem_singleton_self _,
          hk.skip_one ha⟩
    · cases hw
  | look h =>
    rw [ways_look] at hw
    split at hw
    · rename_i holds
      obtain rfl := List.mem_singleton.mp hw
      exact ⟨⟨a, trail'⟩, by rw [ways_look, if_pos (hk.holds h holds)]; exact List.mem_singleton_self _,
        hk⟩
    · cases hw
  | opening h => cases h
  | closing h => cases h
  | seq _ _ ihp ihq =>
    rw [ways_seq] at hw
    obtain ⟨v, hv, hw⟩ := List.mem_flatMap.mp hw
    obtain ⟨v', hv', window⟩ := ihp hk hv (Nat.le_trans inside (ways_rest_le hw)) trail'
    obtain ⟨w', hw', window⟩ := ihq window hw inside v'.trail
    exact ⟨w', by rw [ways_seq]; exact List.mem_flatMap.mpr ⟨v', hv', hw'⟩, window⟩
  | alt _ _ ihp ihq =>
    rw [ways_alt] at hw
    rw [ways_alt]
    rcases List.mem_append.mp hw with hw | hw
    · obtain ⟨v, hv, window⟩ := ihp hk hw inside trail'
      exact ⟨v, List.mem_append_left _ hv, window⟩
    · obtain ⟨v, hv, window⟩ := ihq hk hw inside trail'
      exact ⟨v, List.mem_append_right _ hv, window⟩
  | opt greedy _ ih =>
    rcases mem_ways_opt.mp hw with hw | rfl
    · obtain ⟨v, hv, window⟩ := ih hk hw inside trail'
      exact ⟨v, mem_ways_opt.mpr (.inl hv), window⟩
    · exact ⟨_, mem_ways_opt.mpr (.inr rfl), hk⟩
  | @plus greedy p q _ ih =>
    -- A round takes something of the text if and only if it does so of the part.
    have loop {k a : Cursor} {trail : Trail} (trail' : Trail) (hk : Window after k a)
        (hw : w ∈ ways (again greedy p) k trail) :
        ∃ v ∈ ways (again greedy q) a trail', Window after w.stop v.stop := by
      refine rounds_induction (motive := fun k _ => ∀ a trail', Window after k a →
        ∃ v ∈ ways (again greedy q) a trail', Window after w.stop v.stop) ?stop ?round hw a trail' hk
      case stop =>
        intro a trail' hk
        exact ⟨_, mem_ways_again.mpr (.inl rfl), hk⟩
      case round =>
        intro k trail v hv lt hw later a trail' hk
        obtain ⟨v', hv', hv''⟩ := ih hk hv (Nat.le_trans inside (ways_rest_le hw)) trail'
        obtain ⟨w', hw', window⟩ := later v'.stop v'.trail hv''
        exact ⟨w', mem_ways_again.mpr (.inr ⟨v', hv', (hv''.rest_lt_iff hk).mp lt, hw'⟩), window⟩
    obtain ⟨v, hv, ⟨lt, hw⟩ | ⟨same, rfl⟩⟩ := mem_ways_plus.mp hw
    · obtain ⟨v', hv', hv''⟩ := ih hk hv (Nat.le_trans inside (ways_rest_le hw)) trail'
      obtain ⟨w', hw', window⟩ := loop v'.trail hv'' hw
      exact ⟨w', mem_ways_plus.mpr ⟨v', hv', .inl ⟨(hv''.rest_lt_iff hk).mp lt, hw'⟩⟩, window⟩
    · obtain ⟨v', hv', window⟩ := ih hk hv inside trail'
      have stays := Nat.not_lt.mp (mt (window.rest_lt_iff hk).mpr (Nat.not_lt.mpr same))
      exact ⟨v', mem_ways_plus.mpr ⟨v', hv', .inr ⟨stays, rfl⟩⟩, window⟩

end Narrower

end MediaRange.Pattern
