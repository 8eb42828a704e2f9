import MediaRange.Stylesheet.Scanner

/-!
# Tokens of a stylesheet

`tokens` cuts a text into comments, quoted strings, escapes and single units, looking ahead where it
has to. `marked_plain` shows that the scanner, which reads one character at a time, sees the same
tokens start at the same places.
-/

namespace MediaRange

/-- A token of a stylesheet. An escape is a backslash with the unit after it. -/
inductive StyleToken (α : Type) where
  | comment (text : List α)
  | quoted (text : List α)
  | escape (text : List α)
  | single (a : α)
  deriving DecidableEq

namespace StyleToken

variable {α : Type}

def text : StyleToken α → List α
  | comment text | quoted text | escape text => text
  | single a => [a]

/-! ### Cutting

The units are characters or bytes: only their codes count. -/

variable (code : α → Nat)

/-- The rest of a comment with its end, and the text after it. -/
def cutComment : List α → List α × List α
  | [] => ([], [])
  | [a] => ([a], [])
  | a :: b :: rest =>
    if code a = '*'.toNat ∧ code b = '/'.toNat then ([a, b], rest)
    else (a :: (cutComment (b :: rest)).1, (cutComment (b :: rest)).2)

/-- The rest of a string with its closing quote, and the text after it. The end of the line ends the
string before it. -/
def cutQuoted (quote : α) : List α → List α × List α
  | [] => ([], [])
  | [a] => if code a = '\n'.toNat then ([], [a]) else ([a], [])
  | a :: b :: rest =>
    if code a = '\\'.toNat then
      (a :: b :: (cutQuoted quote rest).1, (cutQuoted quote rest).2)
    else if code a = '\n'.toNat then ([], a :: b :: rest)
    else if code a = code quote then ([a], b :: rest)
    else (a :: (cutQuoted quote (b :: rest)).1, (cutQuoted quote (b :: rest)).2)

/-- The token that starts with a unit, and the text after it. -/
def cutFirst (a : α) (rest : List α) : StyleToken α × List α :=
  if code a = '/'.toNat ∧ rest.head?.map code = some '*'.toNat then
    (comment (a :: rest.take 1 ++ (cutComment code (rest.drop 1)).1),
      (cutComment code (rest.drop 1)).2)
  else if code a = '"'.toNat ∨ code a = '\''.toNat then
    (quoted (a :: (cutQuoted code a rest).1), (cutQuoted code a rest).2)
  else if code a = '\\'.toNat then (escape (a :: rest.take 1), rest.drop 1)
  else (single a, rest)

theorem cutComment_text (text : List α) :
    (cutComment code text).1 ++ (cutComment code text).2 = text := by
  fun_induction cutComment code text with
  | case1 => rfl
  | case2 a => rfl
  | case3 a b rest ends => rfl
  | case4 a b rest goesOn ih => rw [List.cons_append, ih]

theorem cutQuoted_text (quote : α) (text : List α) :
    (cutQuoted code quote text).1 ++ (cutQuoted code quote text).2 = text := by
  fun_induction cutQuoted code quote text with
  | case1 => rfl
  | case2 a newline => rfl
  | case3 a other => rfl
  | case4 a b rest backslash ih => rw [List.cons_append, List.cons_append, ih]
  | case5 a b rest _ newline => rfl
  | case6 a b rest _ _ closes => rfl
  | case7 a b rest _ _ _ ih => rw [List.cons_append, ih]

theorem cutFirst_text (a : α) (rest : List α) :
    (cutFirst code a rest).1.text ++ (cutFirst code a rest).2 = a :: rest := by
  unfold cutFirst
  split
  · simp only [text, List.cons_append, List.append_assoc, cutComment_text, List.take_append_drop]
  · split
    · simp only [text, List.cons_append, cutQuoted_text]
    · split
      · simp only [text, List.cons_append, List.take_append_drop]
      · rfl

theorem text_cutFirst (a : α) (rest : List α) :
    ∃ more, (cutFirst code a rest).1.text = a :: more := by
  unfold cutFirst
  split
  · exact ⟨_, rfl⟩
  · split
    · exact ⟨_, rfl⟩
    · split
      · exact ⟨_, rfl⟩
      · exact ⟨_, rfl⟩

theorem length_cutFirst_le (a : α) (rest : List α) :
    (cutFirst code a rest).2.length ≤ rest.length := by
  obtain ⟨more, hmore⟩ := text_cutFirst code a rest
  have whole := congrArg List.length (cutFirst_text code a rest)
  rw [hmore, List.length_append, List.length_cons, List.length_cons] at whole
  omega

def tokens : List α → List (StyleToken α)
  | [] => []
  | a :: rest => (cutFirst code a rest).1 :: tokens (cutFirst code a rest).2
termination_by text => text.length
decreasing_by exact Nat.lt_succ_of_le (length_cutFirst_le code a rest)

theorem tokens_text (text : List α) : (tokens code text).flatMap StyleToken.text = text := by
  fun_induction tokens code text with
  | case1 => rfl
  | case2 a rest ih => rw [List.flatMap_cons, ih, cutFirst_text]

/-! ### Which token comes first -/

section

variable {code : α → Nat} {quote : α}

theorem cutComment_cons {a : α} {rest : List α}
    (h : ¬(code a = '*'.toNat ∧ rest.head?.map code = some '/'.toNat)) :
    cutComment code (a :: rest) = (a :: (cutComment code rest).1, (cutComment code rest).2) := by
  cases rest with
  | nil => rfl
  | cons b rest =>
    rw [cutComment, if_neg]
    rintro ⟨star, slash⟩
    exact h ⟨star, congrArg some slash⟩

theorem cutComment_append {u : List α} (h : ∀ a ∈ u, code a ≠ '*'.toNat) (v : List α) :
    cutComment code (u ++ v) = (u ++ (cutComment code v).1, (cutComment code v).2) := by
  induction u with
  | nil => rfl
  | cons a u ih =>
    obtain ⟨notStar, later⟩ := List.forall_mem_cons.mp h
    rw [List.cons_append, cutComment_cons fun ends => notStar ends.1, ih later]
    rfl

theorem cutQuoted_newline {a : α} (h : code a = '\n'.toNat) (rest : List α) :
    cutQuoted code quote (a :: rest) = ([], a :: rest) := by
  have notBackslash : code a ≠ '\\'.toNat := by rw [h]; decide
  cases rest with
  | nil => exact if_pos h
  | cons b rest => rw [cutQuoted, if_neg notBackslash, if_pos h]

theorem cutQuoted_close {a : α} (notBackslash : code a ≠ '\\'.toNat)
    (notNewline : code a ≠ '\n'.toNat) (h : code a = code quote) (rest : List α) :
    cutQuoted code quote (a :: rest) = ([a], rest) := by
  cases rest with
  | nil => exact if_neg notNewline
  | cons b rest => rw [cutQuoted, if_neg notBackslash, if_neg notNewline, if_pos h]

theorem cutQuoted_append {u : List α} (notBackslash : ∀ a ∈ u, code a ≠ '\\'.toNat)
    (notNewline : ∀ a ∈ u, code a ≠ '\n'.toNat) (notQuote : ∀ a ∈ u, code a ≠ code quote)
    (v : List α) :
    cutQuoted code quote (u ++ v) = (u ++ (cutQuoted code quote v).1, (cutQuoted code quote v).2) := by
  induction u with
  | nil => rfl
  | cons a u ih =>
    obtain ⟨backslash, backslashes⟩ := List.forall_mem_cons.mp notBackslash
    obtain ⟨newline, newlines⟩ := List.forall_mem_cons.mp notNewline
    obtain ⟨quoteHere, quotes⟩ := List.forall_mem_cons.mp notQuote
    have here : cutQuoted code quote (a :: (u ++ v)) =
        (a :: (cutQuoted code quote (u ++ v)).1, (cutQuoted code quote (u ++ v)).2) := by
      cases u ++ v with
      | nil => exact if_neg newline
      | cons b rest => rw [cutQuoted, if_neg backslash, if_neg newline, if_neg quoteHere]
    rw [List.cons_append, here, ih backslashes newlines quotes]
    rfl

theorem tokens_comment {a b : α} (slash : code a = '/'.toNat) (star : code b = '*'.toNat)
    (rest : List α) :
    tokens code (a :: b :: rest) = comment (a :: b :: (cutComment code rest).1) ::
      tokens code (cutComment code rest).2 := by
  have opens : code a = '/'.toNat ∧ (b :: rest).head?.map code = some '*'.toNat :=
    ⟨slash, congrArg some star⟩
  rw [tokens, cutFirst, if_pos opens]
  rfl

theorem tokens_quoted {a : α} (isQuote : code a = '"'.toNat ∨ code a = '\''.toNat)
    (rest : List α) :
    tokens code (a :: rest) = quoted (a :: (cutQuoted code a rest).1) ::
      tokens code (cutQuoted code a rest).2 := by
  have notSlash : code a ≠ '/'.toNat := by
    rcases isQuote with double | apostrophe
    · rw [double]
      decide
    · rw [apostrophe]
      decide
  rw [tokens, cutFirst, if_neg fun opens => notSlash opens.1, if_pos isQuote]

theorem tokens_escape {a : α} (backslash : code a = '\\'.toNat) (rest : List α) :
    tokens code (a :: rest) = escape (a :: rest.take 1) :: tokens code (rest.drop 1) := by
  have notSlash : code a ≠ '/'.toNat := by
    rw [backslash]
    decide
  have notQuote : ¬(code a = '"'.toNat ∨ code a = '\''.toNat) := by
    rw [backslash]
    decide
  rw [tokens, cutFirst, if_neg fun opens => notSlash opens.1, if_neg notQuote, if_pos backslash]

theorem tokens_single {a : α} {rest : List α}
    (notComment : ¬(code a = '/'.toNat ∧ rest.head?.map code = some '*'.toNat))
    (notQuote : ¬(code a = '"'.toNat ∨ code a = '\''.toNat)) (notBackslash : code a ≠ '\\'.toNat) :
    tokens code (a :: rest) = single a :: tokens code rest := by
  rw [tokens, cutFirst, if_neg notComment, if_neg notQuote, if_neg notBackslash]

end

/-- The units of a token, with whether each is its first one. -/
def marks (t : StyleToken α) : List (α × Bool) :=
  match t.text with
  | [] => []
  | a :: rest => (a, true) :: rest.map (·, false)

end StyleToken

/-! ### What the scanner sees -/

namespace Lexing

open StyleToken

def run (lexing : Lexing) (text : List Char) : Lexing := text.foldl next lexing

/-- Whether the next character is the first one of a token. -/
def starts : Lexing → Char → Bool
  | plain, _ => true
  | slash, c => c ≠ '*'
  | quoted _, c => c = '\n'
  | _, _ => false

/-- The characters of a text, with whether each is the first one of a token. -/
def marked (lexing : Lexing) : List Char → List (Char × Bool)
  | [] => []
  | c :: rest => (c, lexing.starts c) :: (lexing.next c).marked rest

theorem run_append (lexing : Lexing) (u v : List Char) :
    lexing.run (u ++ v) = (lexing.run u).run v := List.foldl_append

theorem marked_append (lexing : Lexing) (u v : List Char) :
    lexing.marked (u ++ v) = lexing.marked u ++ (lexing.run u).marked v := by
  induction u generalizing lexing with
  | nil => rfl
  | cons c u ih =>
    rw [List.cons_append, marked, ih, marked, List.cons_append]
    rfl

/-- A line end inside a string is the one token that does not count as bare. -/
theorem isBare_eq_starts (lexing : Lexing) {c : Char} (h : c ≠ '\n') :
    lexing.isBare c = lexing.starts c := by
  cases lexing with
  | quoted quote =>
    unfold isBare starts
    simp [h]
  | _ => rfl

theorem marked_slash {text : List Char} (h : text.head? ≠ some '*') :
    slash.marked text = plain.marked text := by
  cases text with
  | nil => rfl
  | cons c rest =>
    have notStar : c ≠ '*' := by simpa using h
    simp [marked, starts, next, notStar]

theorem marked_comment (starred : Bool) {text : List Char}
    (h : starred = true → text.head? ≠ some '/') :
    (comment starred).marked text =
      (cutComment Char.toNat text).1.map (·, false) ++
        plain.marked (cutComment Char.toNat text).2 := by
  fun_induction cutComment Char.toNat text generalizing starred with
  | case1 => rfl
  | case2 a => rfl
  | case3 a b rest ends =>
    obtain ⟨star, slash⟩ := ends
    obtain rfl := Char.toNat_inj.mp star
    obtain rfl := Char.toNat_inj.mp slash
    have opened : (comment starred).next '*' = comment true := by simp [next]
    have closed : (comment true).next '/' = plain := by simp [next]
    rw [marked, opened, marked, closed]
    rfl
  | case4 a b rest goesOn ih =>
    rw [Char.toNat_inj, Char.toNat_inj] at goesOn
    have inside : (comment starred).next a = comment (a = '*') := by
      have notClosed : ¬(starred = true ∧ a = '/') := by
        rintro ⟨on, rfl⟩
        exact h on rfl
      simpa [next] using notClosed
    have later := ih (a = '*') (by simpa using fun star => by simpa [star] using goesOn)
    rw [marked, inside, later]
    rfl

theorem marked_quoted (quote : Char) (text : List Char) :
    (quoted quote).marked text =
      (cutQuoted Char.toNat quote text).1.map (·, false) ++
        plain.marked (cutQuoted Char.toNat quote text).2 := by
  have notFirst {c : Char} (h : ¬c.toNat = '\n'.toNat) : (quoted quote).starts c = false := by
    rw [Char.toNat_inj] at h
    exact decide_eq_false h
  fun_induction cutQuoted Char.toNat quote text with
  | case1 => rfl
  | case2 a newline =>
    obtain rfl := Char.toNat_inj.mp newline
    rfl
  | case3 a other =>
    show [(a, (quoted quote).starts a)] = [(a, false)]
    rw [notFirst other]
  | case4 a b rest backslash ih =>
    obtain rfl := Char.toNat_inj.mp backslash
    have hidden : (quoted quote).next '\\' = quotedEscape quote := by simp [next]
    rw [marked, hidden, notFirst (by decide), marked]
    exact congrArg (_ :: (b, false) :: ·) ih
  | case5 a b rest notBackslash newline =>
    obtain rfl := Char.toNat_inj.mp newline
    have ended : (quoted quote).next '\n' = plain := by simp [next]
    rw [marked, ended]
    rfl
  | case6 a b rest notBackslash notNewline closes =>
    have closed : (quoted quote).next a = plain := by
      rw [Char.toNat_inj] at notBackslash closes
      subst closes
      simp [next, notBackslash]
    rw [marked, notFirst notNewline, closed]
    rfl
  | case7 a b rest notBackslash notNewline notQuote ih =>
    have inside : (quoted quote).next a = quoted quote := by
      rw [Char.toNat_inj] at notBackslash notNewline notQuote
      simp [next, notBackslash, notNewline, notQuote]
    rw [marked, notFirst notNewline, inside, ih]
    rfl

/-- The scanner starts a token where the text is cut. -/
theorem marked_plain (text : List Char) :
    plain.marked text = (tokens Char.toNat text).flatMap StyleToken.marks := by
  fun_induction tokens Char.toNat text with
  | case1 => rfl
  | case2 a rest ih =>
    rw [List.flatMap_cons, ← ih, marked]
    unfold cutFirst
    split
    · rename_i opens
      obtain ⟨atSlash, star⟩ := opens
      obtain rfl := Char.toNat_inj.mp atSlash
      cases rest with
      | nil => cases star
      | cons b rest =>
        obtain rfl : b = '*' := Char.toNat_inj.mp (Option.some.inj star)
        have body : (comment false).marked rest = _ := marked_comment false (by simp)
        have opened : (plain.next '/').next '*' = comment false := by decide
        rw [marked, opened, body]
        rfl
    · rename_i notComment
      split
      · rename_i isQuote
        have opened : plain.next a = quoted a := by
          rcases isQuote with double | apostrophe
          · obtain rfl := Char.toNat_inj.mp double
            decide
          · obtain rfl := Char.toNat_inj.mp apostrophe
            decide
        rw [opened, marked_quoted]
        rfl
      · rename_i notQuote
        split
        · rename_i backslash
          obtain rfl := Char.toNat_inj.mp backslash
          cases rest with
          | nil => rfl
          | cons b rest => rfl
        · rename_i notBackslash
          rw [Char.toNat_inj] at notBackslash
          rw [Char.toNat_inj, Char.toNat_inj] at notQuote
          by_cases isSlash : a = '/'
          · subst isSlash
            have after : rest.head? ≠ some '*' := by
              intro star
              exact notComment ⟨rfl, by rw [star]; rfl⟩
            rw [show plain.next '/' = slash from by decide, marked_slash after]
            rfl
          · have stays : plain.next a = plain := by
              simp [next, fresh, isSlash, notBackslash, not_or.mp notQuote]
            rw [stays]
            rfl

end Lexing

end MediaRange
