import MediaRange.Proofs.Stylesheet.Tokens

/-!
# Tokens of bytes

All that a token starts or ends with is in ASCII, so the tokens of a text are those of its UTF-8
bytes. Only a backslash hides a single byte: the others of a hidden character are tokens of their
own.
-/

namespace MediaRange

open StyleToken

/-! ### Bytes of characters -/

def utf8 (text : List Char) : List UInt8 := text.flatMap String.utf8EncodeChar

theorem utf8_append (u v : List Char) : utf8 (u ++ v) = utf8 u ++ utf8 v := List.flatMap_append

theorem utf8_cons {c : Char} {bs : List UInt8} (h : String.utf8EncodeChar c = bs)
    (text : List Char) : utf8 (c :: text) = bs ++ utf8 text := by
  rw [utf8, List.flatMap_cons, h, utf8]

/-- A byte of a character beyond ASCII. -/
def IsWide (b : UInt8) : Prop := 128 ≤ b.toNat

theorem IsWide.ne {b : UInt8} (h : IsWide b) {n : Nat} (hn : n < 128) : b.toNat ≠ n := by
  unfold IsWide at h
  omega

theorem utf8EncodeChar_ascii {c : Char} (h : c.toNat < 128) :
    ∃ b, String.utf8EncodeChar c = [b] ∧ b.toNat = c.toNat := by
  refine ⟨c.val.toUInt8, String.utf8EncodeChar_eq_singleton ?_, ?_⟩
  · rw [Char.utf8Size_eq_one_iff, UInt32.le_iff_toNat_le]
    exact Nat.le_of_lt_succ h
  · show c.val.toNat % 2 ^ 8 = c.val.toNat
    exact Nat.mod_eq_of_lt (Nat.lt_trans h (by decide))

theorem isWide_of_mem {c : Char} (h : ¬c.toNat < 128) : ∀ b ∈ String.utf8EncodeChar c, IsWide b := by
  unfold IsWide
  fun_cases String.utf8EncodeChar c with
  | case1 v ascii => exact absurd (Nat.lt_succ_of_le ascii) h
  | case2 v _ two => simp; omega
  | case3 v _ _ three => simp; omega
  | case4 v _ _ four => simp; omega

/-- A byte and a character have the same code in ASCII, if any. -/
def IsAlike (b : UInt8) (c : Char) : Prop := ∀ n < 128, b.toNat = n ↔ c.toNat = n

theorem isAlike_of_mem {c : Char} (h : ¬c.toNat < 128) {b : UInt8}
    (hb : b ∈ String.utf8EncodeChar c) : IsAlike b c := by
  intro n hn
  have wide := isWide_of_mem h b hb
  unfold IsWide at wide
  omega

/-- The first byte of a character is like it, and the others are wide. -/
theorem exists_utf8EncodeChar (c : Char) :
    ∃ b bs, String.utf8EncodeChar c = b :: bs ∧ IsAlike b c ∧ ∀ x ∈ bs, IsWide x := by
  by_cases ascii : c.toNat < 128
  · obtain ⟨b, split, same⟩ := utf8EncodeChar_ascii ascii
    exact ⟨b, [], split, fun n _ => by rw [same], List.forall_mem_nil _⟩
  · obtain ⟨b, bs, split⟩ := List.exists_cons_of_ne_nil (String.utf8EncodeChar_ne_nil (c := c))
    have alike := isAlike_of_mem ascii (split ▸ List.mem_cons_self)
    have wide := isWide_of_mem ascii
    rw [split] at wide
    exact ⟨b, bs, split, alike, fun x hx => wide x (List.mem_cons_of_mem _ hx)⟩

theorem getLast_utf8EncodeChar (c : Char) :
    ∃ b, (String.utf8EncodeChar c).getLast? = some b ∧ IsAlike b c := by
  by_cases ascii : c.toNat < 128
  · obtain ⟨b, split, same⟩ := utf8EncodeChar_ascii ascii
    exact ⟨b, by rw [split]; rfl, fun n _ => by rw [same]⟩
  · have notEmpty := String.utf8EncodeChar_ne_nil (c := c)
    exact ⟨_, List.getLast?_eq_some_getLast notEmpty,
      isAlike_of_mem ascii (List.getLast_mem notEmpty)⟩

/-- The bytes of a character have a code of ASCII only if the character has it. -/
theorem toNat_ne_of_mem {c : Char} {n : Nat} (hn : n < 128) (h : c.toNat ≠ n) :
    ∀ b ∈ String.utf8EncodeChar c, b.toNat ≠ n := by
  obtain ⟨b, bs, split, alike, wide⟩ := exists_utf8EncodeChar c
  rw [split]
  exact List.forall_mem_cons.mpr ⟨mt (alike n hn).mp h, fun x hx => (wide x hx).ne hn⟩

theorem head_utf8 (text : List Char) {n : Nat} (hn : n < 128) :
    (utf8 text).head?.map UInt8.toNat = some n ↔ text.head?.map Char.toNat = some n := by
  cases text with
  | nil => rfl
  | cons c text =>
    obtain ⟨b, bs, split, alike, -⟩ := exists_utf8EncodeChar c
    rw [utf8_cons split]
    simpa using alike n hn

namespace StyleToken

/-! ### Cutting bytes -/

theorem cutComment_utf8 (text : List Char) :
    cutComment UInt8.toNat (utf8 text) =
      (utf8 (cutComment Char.toNat text).1, utf8 (cutComment Char.toNat text).2) := by
  have goesOn {a : Char} {rest : List Char}
      (h : ¬(a.toNat = '*'.toNat ∧ rest.head?.map Char.toNat = some '/'.toNat)) :
      cutComment UInt8.toNat (utf8 (a :: rest)) =
        (String.utf8EncodeChar a ++ (cutComment UInt8.toNat (utf8 rest)).1,
          (cutComment UInt8.toNat (utf8 rest)).2) := by
    by_cases star : a.toNat = '*'.toNat
    · obtain rfl := Char.toNat_inj.mp star
      exact cutComment_cons fun ends => h ⟨rfl, (head_utf8 rest (by decide)).mp ends.2⟩
    · exact cutComment_append (toNat_ne_of_mem (by decide) star) (utf8 rest)
  fun_induction cutComment Char.toNat text with
  | case1 => rfl
  | case2 a => exact goesOn (by simp)
  | case3 a b rest ends =>
    obtain rfl := Char.toNat_inj.mp ends.1
    obtain rfl := Char.toNat_inj.mp ends.2
    rfl
  | case4 a b rest notEnd ih =>
    rw [goesOn (by simpa using notEnd), ih]
    rfl

section

variable {quote : Char} {q : UInt8} (ascii : quote.toNat < 128) (same : q.toNat = quote.toNat)

include ascii same

/-- A backslash hides the first byte of a character; the others are as harmless as it. -/
theorem cutQuoted_hidden (b : Char) (rest : List Char) :
    cutQuoted UInt8.toNat q (utf8 ('\\' :: b :: rest)) =
      (utf8 ['\\', b] ++ (cutQuoted UInt8.toNat q (utf8 rest)).1,
        (cutQuoted UInt8.toNat q (utf8 rest)).2) := by
  obtain ⟨x, xs, split, -, wide⟩ := exists_utf8EncodeChar b
  have bytes (text : List Char) : utf8 ('\\' :: b :: text) = 92 :: x :: (xs ++ utf8 text) :=
    congrArg (92 :: ·) (utf8_cons split text)
  have isBackslash : UInt8.toNat 92 = '\\'.toNat := rfl
  have quoteAscii : q.toNat < 128 := by rwa [same]
  have later : cutQuoted UInt8.toNat q (xs ++ utf8 rest) =
      (xs ++ (cutQuoted UInt8.toNat q (utf8 rest)).1, (cutQuoted UInt8.toNat q (utf8 rest)).2) :=
    cutQuoted_append (fun a ha => (wide a ha).ne (by decide))
      (fun a ha => (wide a ha).ne (by decide)) (fun a ha => (wide a ha).ne quoteAscii) _
  rw [bytes, cutQuoted, if_pos isBackslash, later, bytes]
  simp [utf8]

theorem cutQuoted_utf8 (text : List Char) :
    cutQuoted UInt8.toNat q (utf8 text) =
      (utf8 (cutQuoted Char.toNat quote text).1, utf8 (cutQuoted Char.toNat quote text).2) := by
  have closes {a : Char} {rest : List Char} (notBackslash : a.toNat ≠ '\\'.toNat)
      (notNewline : a.toNat ≠ '\n'.toNat) (h : a.toNat = quote.toNat) :
      cutQuoted UInt8.toNat q (utf8 (a :: rest)) = (utf8 [a], utf8 rest) := by
    obtain ⟨b, split, code⟩ := utf8EncodeChar_ascii (h ▸ ascii)
    rw [← code] at notBackslash notNewline
    rw [utf8_cons split, utf8_cons split]
    exact cutQuoted_close notBackslash notNewline (by rw [code, h, same]) (utf8 rest)
  have goesOn {a : Char} {rest : List Char} (notBackslash : a.toNat ≠ '\\'.toNat)
      (notNewline : a.toNat ≠ '\n'.toNat) (h : a.toNat ≠ quote.toNat) :
      cutQuoted UInt8.toNat q (utf8 (a :: rest)) =
        (String.utf8EncodeChar a ++ (cutQuoted UInt8.toNat q (utf8 rest)).1,
          (cutQuoted UInt8.toNat q (utf8 rest)).2) := by
    have notQuote := toNat_ne_of_mem ascii h
    rw [← same] at notQuote
    exact cutQuoted_append (toNat_ne_of_mem (by decide) notBackslash)
      (toNat_ne_of_mem (by decide) notNewline) notQuote (utf8 rest)
  fun_induction cutQuoted Char.toNat quote text with
  | case1 => rfl
  | case2 a newline =>
    obtain rfl := Char.toNat_inj.mp newline
    rfl
  | case3 a notNewline =>
    by_cases backslash : a.toNat = '\\'.toNat
    · obtain rfl := Char.toNat_inj.mp backslash
      rfl
    · by_cases isQuote : a.toNat = quote.toNat
      · exact closes backslash notNewline isQuote
      · rw [goesOn backslash notNewline isQuote]
        rfl
  | case4 a b rest backslash ih =>
    obtain rfl := Char.toNat_inj.mp backslash
    rw [cutQuoted_hidden ascii same, ih, ← utf8_append]
    rfl
  | case5 a b rest notBackslash newline =>
    obtain rfl := Char.toNat_inj.mp newline
    have isNewline : UInt8.toNat 10 = '\n'.toNat := rfl
    exact cutQuoted_newline isNewline (utf8 (b :: rest))
  | case6 a b rest notBackslash notNewline isQuote =>
    exact closes notBackslash notNewline isQuote
  | case7 a b rest notBackslash notNewline notQuote ih =>
    rw [goesOn notBackslash notNewline notQuote, ih]
    rfl

end

/-! ### Tokens -/

def inBytes : StyleToken Char → List (StyleToken UInt8)
  | comment text => [comment (utf8 text)]
  | quoted text => [quoted (utf8 text)]
  | escape text => escape ((utf8 text).take 2) :: ((utf8 text).drop 2).map single
  | single c => (String.utf8EncodeChar c).map single

theorem flatMap_single {α : Type} (u : List α) : (u.map single).flatMap StyleToken.text = u := by
  induction u with
  | nil => rfl
  | cons a u ih =>
    rw [List.map_cons, List.flatMap_cons, ih]
    rfl

theorem text_inBytes (t : StyleToken Char) : t.inBytes.flatMap StyleToken.text = utf8 t.text := by
  cases t with
  | comment text | quoted text => exact List.append_nil _
  | escape text =>
    rw [inBytes, List.flatMap_cons, flatMap_single]
    exact List.take_append_drop 2 _
  | single c =>
    rw [inBytes, flatMap_single]
    exact (List.append_nil _).symm

theorem tokens_wide {u : List UInt8} (h : ∀ b ∈ u, IsWide b) (v : List UInt8) :
    tokens UInt8.toNat (u ++ v) = u.map single ++ tokens UInt8.toNat v := by
  induction u with
  | nil => rfl
  | cons b u ih =>
    obtain ⟨wide, later⟩ := List.forall_mem_cons.mp h
    have ne {n : Nat} (hn : n < 128) : b.toNat ≠ n := wide.ne hn
    rw [List.cons_append, tokens_single (fun opens => ne (by decide) opens.1)
      (not_or.mpr ⟨ne (by decide), ne (by decide)⟩) (ne (by decide)), ih later]
    rfl

theorem inBytes_escape {b : Char} {x : UInt8} {xs : List UInt8}
    (split : String.utf8EncodeChar b = x :: xs) :
    (escape ['\\', b]).inBytes = escape [92, x] :: xs.map single := by
  have bytes : utf8 ['\\', b] = 92 :: x :: xs := by
    show 92 :: utf8 [b] = _
    rw [utf8_cons split]
    exact congrArg (92 :: ·) (List.append_nil _)
  rw [inBytes, bytes]
  rfl

theorem tokens_utf8_escape (b : Char) (rest : List Char) :
    tokens UInt8.toNat (utf8 ('\\' :: b :: rest)) =
      (escape ['\\', b]).inBytes ++ tokens UInt8.toNat (utf8 rest) := by
  obtain ⟨x, xs, split, -, wide⟩ := exists_utf8EncodeChar b
  have isBackslash : UInt8.toNat 92 = '\\'.toNat := rfl
  have bytes : utf8 ('\\' :: b :: rest) = 92 :: (x :: xs ++ utf8 rest) :=
    congrArg (92 :: ·) (utf8_cons split rest)
  have cut := tokens_escape isBackslash (x :: xs ++ utf8 rest)
  have later : tokens UInt8.toNat (xs ++ utf8 rest) = _ := tokens_wide wide (utf8 rest)
  rw [bytes, cut, inBytes_escape split]
  exact congrArg (escape [92, x] :: ·) later

theorem tokens_cutFirst (a : Char) (rest : List Char) :
    tokens UInt8.toNat (utf8 (a :: rest)) =
      (cutFirst Char.toNat a rest).1.inBytes ++
        tokens UInt8.toNat (utf8 (cutFirst Char.toNat a rest).2) := by
  unfold cutFirst
  split
  · rename_i opens
    obtain rfl := Char.toNat_inj.mp opens.1
    cases rest with
    | nil => cases opens.2
    | cons b rest =>
      obtain rfl : b = '*' := Char.toNat_inj.mp (Option.some.inj opens.2)
      have slash : UInt8.toNat 47 = '/'.toNat := rfl
      have star : UInt8.toNat 42 = '*'.toNat := rfl
      have cut := tokens_comment slash star (utf8 rest)
      rw [cutComment_utf8] at cut
      exact cut
  · rename_i notComment
    split
    · rename_i isQuote
      have ascii : a.toNat < 128 := by
        rcases isQuote with double | apostrophe
        · rw [double]
          decide
        · rw [apostrophe]
          decide
      obtain ⟨q, split, same⟩ := utf8EncodeChar_ascii ascii
      have bytes (text : List Char) : utf8 (a :: text) = q :: utf8 text := utf8_cons split text
      rw [← same] at isQuote
      rw [bytes, tokens_quoted isQuote, cutQuoted_utf8 ascii same, ← bytes]
      rfl
    · rename_i notQuote
      split
      · rename_i backslash
        obtain rfl := Char.toNat_inj.mp backslash
        cases rest with
        | nil =>
          have isBackslash : UInt8.toNat 92 = '\\'.toNat := rfl
          exact tokens_escape isBackslash []
        | cons b rest => exact tokens_utf8_escape b rest
      · rename_i notBackslash
        rw [inBytes]
        by_cases ascii : a.toNat < 128
        · obtain ⟨b, split, same⟩ := utf8EncodeChar_ascii ascii
          rw [← same] at notComment notQuote notBackslash
          rw [← head_utf8 rest (by decide)] at notComment
          rw [utf8_cons split, split]
          exact tokens_single notComment notQuote notBackslash
        · exact tokens_wide (isWide_of_mem ascii) (utf8 rest)

theorem tokens_utf8 (text : List Char) :
    tokens UInt8.toNat (utf8 text) = (tokens Char.toNat text).flatMap inBytes := by
  fun_induction tokens Char.toNat text with
  | case1 =>
    rw [utf8, List.flatMap_nil, tokens]
    rfl
  | case2 a rest ih => rw [tokens_cutFirst, ih, List.flatMap_cons]

end StyleToken

end MediaRange
