import MediaRange.Proofs.Stylesheet.Tokens

/-!
# How the scanner goes through a stylesheet

`cutPrelude` takes the text of a prelude in one step. `Scans` describes the pieces of a stylesheet
with it: a character that stays, or a whole prelude. `scans_iff` shows that these are the pieces that
the scanner finds one character at a time.
-/

namespace MediaRange

open Scanner

/-! ### Preludes -/

namespace Lexing

/-- The rest of a prelude, and the text from its end on. -/
def cutPrelude (lexing : Lexing) : List Char → List Char × List Char
  | [] => ([], [])
  | c :: rest =>
    if lexing.isBare c && endsPrelude c then ([], c :: rest)
    else (c :: ((lexing.next c).cutPrelude rest).1, ((lexing.next c).cutPrelude rest).2)

theorem cutPrelude_ends {lexing : Lexing} {c : Char} (rest : List Char)
    (h : (lexing.isBare c && endsPrelude c) = true) :
    lexing.cutPrelude (c :: rest) = ([], c :: rest) := by
  rw [cutPrelude, if_pos h]

theorem cutPrelude_goesOn {lexing : Lexing} {c : Char} (rest : List Char)
    (h : ¬(lexing.isBare c && endsPrelude c) = true) :
    lexing.cutPrelude (c :: rest) =
      (c :: ((lexing.next c).cutPrelude rest).1, ((lexing.next c).cutPrelude rest).2) := by
  rw [cutPrelude, if_neg h]

theorem cutPrelude_text (lexing : Lexing) (text : List Char) :
    (lexing.cutPrelude text).1 ++ (lexing.cutPrelude text).2 = text := by
  induction text generalizing lexing with
  | nil => rfl
  | cons c rest ih =>
    by_cases ends : (lexing.isBare c && endsPrelude c) = true
    · rw [cutPrelude_ends rest ends, List.nil_append]
    · rw [cutPrelude_goesOn rest ends, List.cons_append, ih]

/-- A prelude that goes on beyond a text holds all of it. -/
theorem cutPrelude_append_iff {lexing : Lexing} {u v w rest : List Char} :
    lexing.cutPrelude (u ++ v) = (u ++ w, rest) ↔
      lexing.cutPrelude u = (u, []) ∧ (lexing.run u).cutPrelude v = (w, rest) := by
  induction u generalizing lexing with
  | nil =>
    constructor
    · intro h
      exact ⟨rfl, h⟩
    · exact And.right
  | cons c u ih =>
    by_cases ends : (lexing.isBare c && endsPrelude c) = true
    · rw [List.cons_append, cutPrelude_ends _ ends, cutPrelude_ends _ ends]
      constructor
      · intro h
        cases (Prod.mk.inj h).1
      · rintro ⟨h, -⟩
        cases (Prod.mk.inj h).1
    · rw [List.cons_append, cutPrelude_goesOn _ ends, cutPrelude_goesOn _ ends]
      have pair {cut : List Char × List Char} {first second : List Char} :
          (c :: cut.1, cut.2) = (c :: first, second) ↔ cut = (first, second) := by
        simp [Prod.ext_iff]
      rw [List.cons_append, pair, pair, ih]
      rfl

/-- A prelude is all of itself, and the text after it starts with what ends it. -/
theorem cutPrelude_eq_iff {lexing : Lexing} {raw rest : List Char} :
    lexing.cutPrelude (raw ++ rest) = (raw, rest) ↔
      lexing.cutPrelude raw = (raw, []) ∧ (lexing.run raw).cutPrelude rest = ([], rest) := by
  rw [← cutPrelude_append_iff, List.append_nil]

theorem cutPrelude_self (lexing : Lexing) (text : List Char) :
    lexing.cutPrelude ((lexing.cutPrelude text).1 ++ (lexing.cutPrelude text).2) =
      ((lexing.cutPrelude text).1, (lexing.cutPrelude text).2) := by
  rw [cutPrelude_text]

/-- Whether a prelude is at its end shows in the next character. -/
theorem cutPrelude_nil_of_head {lexing : Lexing} {u v : List Char} (head : u.head? = v.head?)
    (h : lexing.cutPrelude u = ([], u)) : lexing.cutPrelude v = ([], v) := by
  cases u with
  | nil =>
    cases v with
    | nil => rfl
    | cons d v => cases head
  | cons c u =>
    cases v with
    | nil => cases head
    | cons d v =>
      obtain rfl : c = d := Option.some.inj head
      by_cases ends : (lexing.isBare c && endsPrelude c) = true
      · exact cutPrelude_ends v ends
      · rw [cutPrelude_goesOn u ends] at h
        cases (Prod.mk.inj h).1

end Lexing

/-! ### Pieces -/

namespace Scanner

theorem ne_at_of_endsPrelude {c : Char} (h : endsPrelude c = true) : c ≠ '@' := by
  rintro rfl
  revert h
  decide

theorem ne_at_of_isNameCharacter {c : Char} (h : isNameCharacter c = true) : c ≠ '@' := by
  rintro rfl
  revert h
  decide

theorem outsideStep_of_ne_at (lexing : Lexing) (before : Option Char) {c : Char} (h : c ≠ '@') :
    outsideStep lexing before c = ([.verbatim c], ⟨.outside, lexing.next c, some c⟩) := by
  unfold outsideStep
  simp [h]

theorem pieces_of_step {s next : Scanner} {c : Char} {done : List Piece}
    (h : s.step c = (done, next)) (rest : List Char) :
    s.pieces (c :: rest) = done ++ next.pieces rest := by
  rw [pieces, h]

/-- The scanner finds a whole prelude and goes on outside of it. -/
theorem pieces_prelude (name read : List Char) (lexing : Lexing) (before other : Option Char)
    (text : List Char) :
    pieces ⟨.prelude name read, lexing, before⟩ text =
      .prelude name (read.reverse ++ (lexing.cutPrelude text).1) ::
        pieces ⟨.outside, lexing.run (lexing.cutPrelude text).1, other⟩
          (lexing.cutPrelude text).2 := by
  induction text generalizing read lexing before with
  | nil => simp [pieces, finish, Lexing.cutPrelude]
  | cons c rest ih =>
    by_cases ends : (lexing.isBare c && endsPrelude c) = true
    · have here : step ⟨.prelude name read, lexing, before⟩ c =
          ([.prelude name read.reverse, .verbatim c], ⟨.outside, lexing.next c, some c⟩) := by
        show preludeStep name read lexing c = _
        rw [preludeStep, if_pos ends]
      have after : step ⟨.outside, lexing, other⟩ c =
          ([.verbatim c], ⟨.outside, lexing.next c, some c⟩) :=
        outsideStep_of_ne_at lexing other
          (ne_at_of_endsPrelude (Bool.and_eq_true_iff.mp ends).2)
      rw [pieces_of_step here, Lexing.cutPrelude_ends rest ends, List.append_nil]
      exact congrArg (_ :: ·) (pieces_of_step after rest).symm
    · have here : step ⟨.prelude name read, lexing, before⟩ c =
          ([], ⟨.prelude name (c :: read), lexing.next c, some c⟩) := by
        show preludeStep name read lexing c = _
        rw [preludeStep, if_neg ends]
      rw [pieces_of_step here, ih, Lexing.cutPrelude_goesOn rest ends, List.reverse_cons,
        List.append_assoc]
      rfl

/-- After the name of a media rule its prelude begins. -/
theorem pieces_media {read : List Char} (media : isMediaRule read.reverse = true) {c : Char}
    (notName : isNameCharacter c = false) (before : Option Char) (rest : List Char) :
    pieces ⟨.name read, .plain, before⟩ (c :: rest) =
      pieces ⟨.prelude read.reverse [], .plain, before⟩ (c :: rest) := by
  have enters : step ⟨.name read, .plain, before⟩ c =
      step ⟨.prelude read.reverse [], .plain, before⟩ c := by
    unfold step
    dsimp only
    rw [notName, media]
    rfl
  rw [pieces, pieces, enters]

theorem step_other {read : List Char} (other : isMediaRule read.reverse = false) {c : Char}
    (notName : isNameCharacter c = false) (before : Option Char) :
    step ⟨.name read, .plain, before⟩ c = outsideStep .plain before c := by
  unfold step
  dsimp only
  rw [notName, other]
  rfl

theorem step_name {c : Char} (isName : isNameCharacter c = true) (read : List Char)
    (before : Option Char) :
    step ⟨.name read, .plain, before⟩ c = ([.verbatim c], ⟨.name (c :: read), .plain, some c⟩) := by
  unfold step
  dsimp only
  rw [if_pos isName]

/-- A text with the pieces that the scanner finds in it. -/
inductive Scans : Scanner → List Char → List Piece → Prop where
  | done {s : Scanner} (hfinish : s.finish = []) : Scans s [] []
  | verbatim {s next : Scanner} {c : Char} {text : List Char} {ps : List Piece}
    (hstep : s.step c = ([.verbatim c], next)) (hlexing : next.lexing = s.lexing.next c)
    (h : Scans next text ps) : Scans s (c :: text) (.verbatim c :: ps)
  | prelude {read raw rest : List Char} {before : Option Char} {ps : List Piece}
    (hmedia : isMediaRule read.reverse = true)
    (hfirst : ∃ c more, raw ++ rest = c :: more ∧ isNameCharacter c = false)
    (hcut : Lexing.plain.cutPrelude (raw ++ rest) = (raw, rest))
    (h : Scans ⟨.outside, Lexing.plain.run raw, none⟩ rest ps) :
    Scans ⟨.name read, .plain, before⟩ (raw ++ rest) (.prelude read.reverse raw :: ps)

theorem Scans.pieces_eq {s : Scanner} {text : List Char} {ps : List Piece} (h : Scans s text ps) :
    s.pieces text = ps := by
  induction h with
  | done hfinish => exact hfinish
  | @verbatim s next c text ps hstep _ _ ih =>
    rw [pieces_of_step hstep, ih]
    rfl
  | @prelude read raw rest before ps hmedia hfirst hcut _ ih =>
    obtain ⟨c, more, hmore, notName⟩ := hfirst
    have whole := pieces_prelude read.reverse [] .plain before none (raw ++ rest)
    rw [hcut] at whole
    rw [hmore, pieces_media hmedia notName, ← hmore, whole, ih]
    rfl

/-- The scanner is between preludes, and a name has no comment or string in it. -/
def Outside (s : Scanner) : Prop :=
  match s.zone with
  | .outside => True
  | .name _ => s.lexing = .plain
  | .prelude _ _ => False

theorem finish_of_outside {s : Scanner} (h : s.Outside) : s.finish = [] := by
  obtain ⟨zone, lexing, before⟩ := s
  cases zone with
  | outside => rfl
  | name read => rfl
  | prelude name read => cases h

theorem outsideStep_eq (lexing : Lexing) (before : Option Char) (c : Char) :
    ∃ next : Scanner, outsideStep lexing before c = ([.verbatim c], next) ∧ next.Outside ∧
      next.lexing = lexing.next c := by
  unfold outsideStep
  split
  · rename_i opens
    obtain ⟨⟨bare, isAt⟩, -⟩ : (lexing.isBare c = true ∧ c = '@') ∧ _ := by simpa using opens
    subst isAt
    refine ⟨_, rfl, rfl, ?_⟩
    -- No comment, string or escape is open before a bare character.
    cases lexing with
    | plain => rfl
    | slash => rfl
    | _ => cases bare
  · exact ⟨_, rfl, trivial, rfl⟩

theorem next_of_isNameCharacter {c : Char} (h : isNameCharacter c = true) :
    Lexing.plain.next c = .plain := by
  have ne {d : Char} (hd : isNameCharacter d = false) : c ≠ d := by
    rintro rfl
    rw [h] at hd
    cases hd
  simp [Lexing.next, Lexing.fresh, ne (d := '/') (by decide), ne (d := '"') (by decide),
    ne (d := '\'') (by decide), ne (d := '\\') (by decide)]

theorem scans_media {read : List Char} (media : isMediaRule read.reverse = true) {c : Char}
    (notName : isNameCharacter c = false) (before : Option Char) {rest : List Char}
    (h : Scans ⟨.outside, Lexing.plain.run (Lexing.plain.cutPrelude (c :: rest)).1, none⟩
      (Lexing.plain.cutPrelude (c :: rest)).2
      (pieces ⟨.outside, Lexing.plain.run (Lexing.plain.cutPrelude (c :: rest)).1, none⟩
        (Lexing.plain.cutPrelude (c :: rest)).2)) :
    Scans ⟨.name read, .plain, before⟩ (c :: rest)
      (pieces ⟨.name read, .plain, before⟩ (c :: rest)) := by
  have parts := Lexing.cutPrelude_text .plain (c :: rest)
  have cut := Lexing.cutPrelude_self .plain (c :: rest)
  rw [pieces_media media notName, pieces_prelude read.reverse [] .plain before none (c :: rest)]
  generalize (Lexing.plain.cutPrelude (c :: rest)).1 = raw at parts cut h ⊢
  generalize (Lexing.plain.cutPrelude (c :: rest)).2 = after at parts cut h ⊢
  rw [← parts]
  exact .prelude media ⟨c, rest, parts, notName⟩ cut h

theorem scans_pieces {s : Scanner} (h : s.Outside) (text : List Char) :
    Scans s text (s.pieces text) := by
  -- A prelude is passed in one step, so the induction is on the length of the text.
  induction hn : text.length using Nat.strongRecOn generalizing s text with
  | ind n ih =>
    subst hn
    have nothing {s : Scanner} (h : s.Outside) : Scans s [] (s.pieces []) := by
      have finished := finish_of_outside h
      rw [pieces, finished]
      exact .done finished
    have verbatim {s next : Scanner} {c : Char} {rest : List Char}
        (shorter : rest.length < text.length) (hstep : s.step c = ([.verbatim c], next))
        (hnext : next.Outside) (hlexing : next.lexing = s.lexing.next c) :
        Scans s (c :: rest) (s.pieces (c :: rest)) := by
      rw [pieces_of_step hstep]
      exact .verbatim hstep hlexing (ih _ shorter hnext rest rfl)
    -- An empty prelude is no progress, so the text after it is as long as before.
    have outside (lexing : Lexing) (before : Option Char) {text' : List Char}
        (short : text'.length ≤ text.length) :
        Scans ⟨.outside, lexing, before⟩ text' (pieces ⟨.outside, lexing, before⟩ text') := by
      cases text' with
      | nil => exact nothing trivial
      | cons c rest =>
        obtain ⟨next, hstep, hnext, hlexing⟩ := outsideStep_eq lexing before c
        exact verbatim (Nat.lt_of_succ_le short) hstep hnext hlexing
    obtain ⟨zone, lexing, before⟩ := s
    cases zone with
    | outside => exact outside lexing before (Nat.le_refl _)
    | prelude name read => cases h
    | name read =>
      obtain rfl : lexing = .plain := h
      cases text with
      | nil => exact nothing rfl
      | cons c rest =>
        have shorter : rest.length < (c :: rest).length := Nat.lt_succ_self _
        by_cases isName : isNameCharacter c = true
        · exact verbatim shorter (step_name isName read before) rfl
            (next_of_isNameCharacter isName).symm
        · rw [Bool.not_eq_true] at isName
          by_cases media : isMediaRule read.reverse = true
          · have short : (Lexing.plain.cutPrelude (c :: rest)).2.length ≤ (c :: rest).length := by
              have parts := congrArg List.length (Lexing.cutPrelude_text .plain (c :: rest))
              rw [List.length_append] at parts
              omega
            exact scans_media media isName before (outside _ none short)
          · rw [Bool.not_eq_true] at media
            obtain ⟨next, hstep, hnext, hlexing⟩ := outsideStep_eq .plain before c
            exact verbatim shorter ((step_other media isName before).trans hstep) hnext hlexing

theorem scans_iff {text : List Char} {ps : List Piece} : Scans {} text ps ↔ pieces {} text = ps := by
  constructor
  · exact Scans.pieces_eq
  · rintro rfl
    exact scans_pieces (s := {}) trivial text

end Scanner

end MediaRange
