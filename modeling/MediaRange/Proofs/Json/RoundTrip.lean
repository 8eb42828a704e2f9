import MediaRange.Proofs.Json.Reader
import MediaRange.Proofs.Number.Digits

/-!
# JSON texts read back

`read?_text` shows that a value on one line is read back as it is, whatever texts are in it: the
escapes of a string are undone, and no character of it is taken for the end. The text of a value
holds no line feed.
-/

namespace MediaRange.Json

open Json5 (isHexDigit hexDigitsValue isLeadSurrogate isTrailSurrogate)

/-! ### Strings -/

theorem control_digits : ∀ n < 0x20,
    List.replicate (4 - (Nat.toDigits 16 n).length) '0' ++ Nat.toDigits 16 n =
        ['0', '0', Nat.digitChar (n / 16), Nat.digitChar (n % 16)] ∧
      (['0', '0', Nat.digitChar (n / 16), Nat.digitChar (n % 16)].all isHexDigit) = true ∧
      hexDigitsValue ['0', '0', Nat.digitChar (n / 16), Nat.digitChar (n % 16)] = n := by
  decide

theorem readCode?_control {n : Nat} (h : n < 0x20) (rest : List Char) :
    readCode? (List.replicate (4 - (Nat.toDigits 16 n).length) '0' ++ Nat.toDigits 16 n ++ rest) =
      some (Char.ofNat n, rest) := by
  obtain ⟨digits, hex, value⟩ := control_digits n h
  rw [digits]
  have unit : readUnit? (['0', '0', Nat.digitChar (n / 16), Nat.digitChar (n % 16)] ++ rest) =
      some (n, rest) := by
    simp only [List.cons_append, List.nil_append, readUnit?, hex, value]
    rfl
  have noTrail : isTrailSurrogate n = false := by
    simp only [isTrailSurrogate, Bool.and_eq_false_iff, decide_eq_false_iff_not]
    omega
  have noLead : isLeadSurrogate n = false := by
    simp only [isLeadSurrogate, Bool.and_eq_false_iff, decide_eq_false_iff_not]
    omega
  rw [readCode?, unit]
  simp only [Option.bind_eq_bind, Option.bind_some, noTrail, noLead]
  rfl

theorem readCharacter?_escapedChar (c : Char) (rest : List Char) :
    readCharacter? (escapedChar c ++ rest) = some (c, rest) := by
  unfold escapedChar
  split
  any_goals rfl
  rename_i notQuote notBackslash _ _ _ _ _
  dsimp only
  split
  · rename_i control
    have code := readCode?_control control rest
    rw [Char.ofNat_toNat] at code
    exact code
  · rename_i plain
    change readCharacter? (c :: rest) = _
    rw [readCharacter?, if_neg notBackslash, if_neg plain]

theorem head?_escapedChar (c : Char) (rest : List Char) :
    (escapedChar c ++ rest).head? ≠ some '"' := by
  unfold escapedChar
  split
  any_goals solve | intro h; cases h
  rename_i notQuote _ _ _ _ _ _
  dsimp only
  split
  · intro h
    cases h
  · intro h
    exact notQuote (Option.some.inj h)

theorem readCharacters?_escaped (text rest : List Char) {fuel : Nat} (enough : text.length < fuel) :
    readCharacters? fuel (text.flatMap escapedChar ++ '"' :: rest) = some (text, rest) := by
  induction text generalizing fuel with
  | nil =>
    cases fuel with
    | zero => exact absurd enough (Nat.not_lt_zero _)
    | succ fuel => rfl
  | cons c text ih =>
    cases fuel with
    | zero => exact absurd enough (Nat.not_lt_zero _)
    | succ fuel =>
      have more := ih (Nat.lt_of_succ_lt_succ enough)
      rw [List.flatMap_cons, List.append_assoc, readCharacters?, if_neg (head?_escapedChar c _),
        readCharacter?_escapedChar]
      simp only [Option.bind_eq_bind, Option.bind_some, more]
      rfl

theorem length_le_escaped (text : List Char) :
    text.length ≤ (text.flatMap escapedChar).length := by
  induction text with
  | nil => exact Nat.le_refl _
  | cons c text ih =>
    have some : 0 < (escapedChar c).length := by
      rw [List.length_pos_iff]
      intro empty
      have read := readCharacter?_escapedChar c []
      rw [empty] at read
      cases read
    rw [List.flatMap_cons, List.length_append, List.length_cons]
    omega

theorem readString?_quoted (s : String) (rest : List Char) :
    readString? (s.toList.flatMap escapedChar ++ '"' :: rest) = some (s, rest) := by
  have enough : s.toList.length < (s.toList.flatMap escapedChar ++ '"' :: rest).length := by
    have le := length_le_escaped s.toList
    rw [List.length_append, List.length_cons]
    omega
  rw [readString?, readCharacters?_escaped s.toList rest enough, Option.map_some]
  dsimp only
  rw [String.ofList_toList]

/-! ### Numbers -/

def EndsNumber (rest : List Char) : Prop := ∀ c ∈ rest.head?, c.isDigit = false

theorem endsNumber_cons {c : Char} (h : c.isDigit = false) (rest : List Char) :
    EndsNumber (c :: rest) := by
  rintro d ⟨⟩
  exact h

theorem toList_ofNat (n : Nat) : (toString (Int.ofNat n)).toList = Nat.toDigits 10 n :=
  Nat.toList_repr

theorem toList_negSucc (n : Nat) :
    (toString (Int.negSucc n)).toList = '-' :: Nat.toDigits 10 (n + 1) := by
  change ("-" ++ (n + 1).repr).toList = _
  rw [String.toList_append, Nat.toList_repr]
  rfl

theorem readDigits?_toDigits (n : Nat) {rest : List Char} (ends : EndsNumber rest) :
    readDigits? (Nat.toDigits 10 n ++ rest) = some (n, rest) := by
  obtain ⟨taken, dropped⟩ := takeWhile_append_of_head? (isDigit_toDigits (n := n)) ends
  have alone :
      ((Nat.toDigits 10 n).head? = some '0' && (Nat.toDigits 10 n).length ≠ 1) = false := by
    by_cases zero : (Nat.toDigits 10 n).head? = some '0'
    · rw [head?_toDigits zero]
      rfl
    · simp [zero]
  rw [readDigits?, taken, dropped, alone, Nat.ofDigitChars_toDigits (by decide) (by decide)]
  simp [Nat.toDigits_ne_nil]

theorem readNumber?_toString (value : Int) {rest : List Char} (ends : EndsNumber rest) :
    readNumber? ((toString value).toList ++ rest) = some (value, rest) := by
  cases value with
  | ofNat n =>
    have noSign : (Nat.toDigits 10 n ++ rest).head? ≠ some '-' := by
      obtain ⟨c, digits, cut, digit⟩ := exists_head_toDigits n
      rw [cut]
      rintro ⟨⟩
      revert digit
      decide
    rw [toList_ofNat, readNumber?, if_neg noSign, readDigits?_toDigits n ends]
    rfl
  | negSucc n =>
    rw [toList_negSucc, List.cons_append, readNumber?, List.head?_cons, if_pos rfl, List.tail_cons,
      readDigits?_toDigits (n + 1) ends]
    rfl

/-! ### Values -/

theorem skipSpace_cons {c : Char} (h : isSpace c = false) (rest : List Char) :
    skipSpace (c :: rest) = c :: rest := by
  rw [skipSpace, List.dropWhile_cons_of_neg (by simp [h])]

theorem toList_quoted (s : String) :
    (quoted s).toList = '"' :: (s.toList.flatMap escapedChar ++ ['"']) := by
  rw [quoted, String.toList_ofList]
  rfl

theorem exists_head_number (value : Int) :
    ∃ c rest, (toString value).toList = c :: rest ∧ startsNumber c = true := by
  cases value with
  | ofNat n =>
    obtain ⟨c, digits, cut, digit⟩ := exists_head_toDigits n
    exact ⟨c, digits, (toList_ofNat n).trans cut, by simp [startsNumber, digit]⟩
  | negSucc n => exact ⟨'-', _, toList_negSucc n, rfl⟩

theorem ne_of_startsNumber {c d : Char} (h : startsNumber c = true)
    (other : startsNumber d = false) : c ≠ d := by
  rintro rfl
  rw [h] at other
  cases other

theorem isSpace_of_startsNumber {c : Char} (h : startsNumber c = true) : isSpace c = false := by
  simp only [isSpace, ne_of_startsNumber h (show startsNumber ' ' = false by decide),
    ne_of_startsNumber h (show startsNumber '\t' = false by decide),
    ne_of_startsNumber h (show startsNumber '\n' = false by decide),
    ne_of_startsNumber h (show startsNumber '\r' = false by decide)]
  rfl

theorem readKey?_quoted (key : String) (rest : List Char) :
    readKey? ((quoted key).toList ++ ':' :: rest) = some (key, rest) := by
  have cut : (quoted key).toList ++ ':' :: rest =
      '"' :: (key.toList.flatMap escapedChar ++ '"' :: ':' :: rest) := by
    simp [toList_quoted]
  rw [cut, readKey?, skipSpace_cons (by decide)]
  simp only [readString?_quoted, Option.bind_eq_bind, Option.bind_some,
    skipSpace_cons (show isSpace ':' = false by decide)]
  rfl

/-- How the text of a value starts: with no blank, and with nothing that ends a list. -/
theorem exists_head_text (value : Json) :
    ∃ c rest, value.text.toList = c :: rest ∧ isSpace c = false ∧ c ≠ ']' := by
  cases value with
  | null => exact ⟨'n', "ull".toList, by simp [text], rfl, by decide⟩
  | bool value =>
    cases value with
    | false => exact ⟨'f', "alse".toList, by simp [text], rfl, by decide⟩
    | true => exact ⟨'t', "rue".toList, by simp [text], rfl, by decide⟩
  | number value =>
    obtain ⟨c, rest, head, starts⟩ := exists_head_number value
    exact ⟨c, rest, head, isSpace_of_startsNumber starts, ne_of_startsNumber starts (by decide)⟩
  | string s => exact ⟨'"', _, toList_quoted s, rfl, by decide⟩
  | array items =>
    exact ⟨'[', (textItems true items).toList ++ [']'], by simp [text], rfl, by decide⟩
  | object members =>
    exact ⟨'\x7b', (textMembers true members).toList ++ ['\x7d'], by simp [text], rfl, by decide⟩

theorem head?_textItems (item : Json) (items : List Json) (rest : List Char) :
    (skipSpace ((textItems true (item :: items)).toList ++ rest)).head? ≠ some ']' := by
  obtain ⟨c, tail, head, noSpace, notEnd⟩ := exists_head_text item
  have cut : (textItems true (item :: items)).toList ++ rest =
      c :: (tail ++ ((textItems false items).toList ++ rest)) := by
    simp [textItems, head]
  rw [cut, skipSpace_cons noSpace]
  rintro ⟨⟩
  exact notEnd rfl

theorem textItems_cons (item next : Json) (items : List Json) :
    textItems true (item :: next :: items) =
      item.text ++ "," ++ textItems true (next :: items) := by
  simp [textItems, String.append_assoc]

theorem head?_textMembers (member : String × Json) (members : List (String × Json))
    (rest : List Char) :
    (skipSpace ((textMembers true (member :: members)).toList ++ rest)).head? ≠ some '\x7d' := by
  obtain ⟨key, value⟩ := member
  have cut : (textMembers true ((key, value) :: members)).toList ++ rest =
      '"' :: (key.toList.flatMap escapedChar ++ '"' :: ':' ::
        (value.text.toList ++ ((textMembers false members).toList ++ rest))) := by
    simp [textMembers, toList_quoted]
  rw [cut, skipSpace_cons (by decide)]
  rintro ⟨⟩

theorem textMembers_cons (key : String) (value : Json) (next : String × Json)
    (members : List (String × Json)) :
    textMembers true ((key, value) :: next :: members) =
      quoted key ++ ":" ++ value.text ++ "," ++ textMembers true (next :: members) := by
  obtain ⟨nextKey, nextValue⟩ := next
  simp [textMembers, String.append_assoc]

/-- Whatever follows, the value is read back from its text. -/
def ReadsBack (value : Json) : Prop :=
  ∀ (fuel : Nat) (rest : List Char), value.text.toList.length ≤ fuel → EndsNumber rest →
    readValue? fuel (value.text.toList ++ rest) = some (value, rest)

theorem readItems?_text {item : Json} {items : List Json} (first : ReadsBack item)
    (others : ∀ i ∈ items, ReadsBack i) (fuel : Nat) (rest : List Char)
    (enough : (textItems true (item :: items)).toList.length < fuel) :
    readItems? fuel ((textItems true (item :: items)).toList ++ ']' :: rest) =
      some (item :: items, rest) := by
  induction items generalizing item fuel with
  | nil =>
    cases fuel with
    | zero => exact absurd enough (Nat.not_lt_zero _)
    | succ fuel =>
      have alone : textItems true [item] = item.text := by simp [textItems]
      rw [alone] at enough ⊢
      have read := first fuel _ (Nat.le_of_lt_succ enough)
        (endsNumber_cons (show (']' : Char).isDigit = false by decide) rest)
      rw [readItems?, read]
      rfl
  | cons next items ih =>
    cases fuel with
    | zero => exact absurd enough (Nat.not_lt_zero _)
    | succ fuel =>
      have comma : ",".toList.length = 1 := by decide
      rw [textItems_cons, String.toList_append, String.toList_append, List.length_append,
        List.length_append] at enough
      have read := first fuel _ (by omega)
        (endsNumber_cons (show (',' : Char).isDigit = false by decide)
          ((textItems true (next :: items)).toList ++ ']' :: rest))
      obtain ⟨second, later⟩ := List.forall_mem_cons.mp others
      have more := ih second later fuel (by omega)
      have cut : (textItems true (item :: next :: items)).toList ++ ']' :: rest =
          item.text.toList ++ ',' :: ((textItems true (next :: items)).toList ++ ']' :: rest) := by
        simp [textItems_cons]
      rw [cut, readItems?, read]
      simp only [Option.bind_eq_bind, Option.bind_some,
        skipSpace_cons (show isSpace ',' = false by decide), more]
      rfl

theorem readMembers?_text (key : String) {value : Json} {members : List (String × Json)}
    (first : ReadsBack value) (others : ∀ m ∈ members, ReadsBack m.2) (fuel : Nat)
    (rest : List Char)
    (enough : (textMembers true ((key, value) :: members)).toList.length < fuel) :
    readMembers? fuel ((textMembers true ((key, value) :: members)).toList ++ '\x7d' :: rest) =
      some ((key, value) :: members, rest) := by
  induction members generalizing key value fuel with
  | nil =>
    cases fuel with
    | zero => exact absurd enough (Nat.not_lt_zero _)
    | succ fuel =>
      have alone : textMembers true [(key, value)] = quoted key ++ ":" ++ value.text := by
        simp [textMembers]
      rw [alone, String.toList_append, List.length_append] at enough
      have read := first fuel _ (by omega)
        (endsNumber_cons (show ('\x7d' : Char).isDigit = false by decide) rest)
      have cut : (textMembers true [(key, value)]).toList ++ '\x7d' :: rest =
          (quoted key).toList ++ ':' :: (value.text.toList ++ '\x7d' :: rest) := by
        simp [alone]
      rw [cut, readMembers?, readKey?_quoted]
      simp only [Option.bind_eq_bind, Option.bind_some, read]
      rfl
  | cons next members ih =>
    obtain ⟨nextKey, nextValue⟩ := next
    cases fuel with
    | zero => exact absurd enough (Nat.not_lt_zero _)
    | succ fuel =>
      have comma : ",".toList.length = 1 := by decide
      rw [textMembers_cons] at enough
      simp only [String.toList_append, List.length_append] at enough
      have read := first fuel _ (by omega)
        (endsNumber_cons (show (',' : Char).isDigit = false by decide)
          ((textMembers true ((nextKey, nextValue) :: members)).toList ++ '\x7d' :: rest))
      obtain ⟨second, later⟩ := List.forall_mem_cons.mp others
      have second : ReadsBack nextValue := second
      have more := ih nextKey second later fuel (by omega)
      have cut : (textMembers true ((key, value) :: (nextKey, nextValue) :: members)).toList ++
            '\x7d' :: rest =
          (quoted key).toList ++ ':' :: (value.text.toList ++
            ',' :: ((textMembers true ((nextKey, nextValue) :: members)).toList ++
              '\x7d' :: rest)) := by
        simp [textMembers_cons]
      rw [cut, readMembers?, readKey?_quoted]
      simp only [Option.bind_eq_bind, Option.bind_some, read,
        skipSpace_cons (show isSpace ',' = false by decide), more]
      rfl

/-- A value is read with one step of fuel for its first character. -/
theorem readsBack_of_succ {value : Json}
    (h : ∀ (fuel : Nat) (rest : List Char), value.text.toList.length ≤ fuel + 1 →
      EndsNumber rest → readValue? (fuel + 1) (value.text.toList ++ rest) = some (value, rest)) :
    ReadsBack value := by
  intro fuel rest enough ends
  cases fuel with
  | zero =>
    obtain ⟨c, tail, head, -⟩ := exists_head_text value
    rw [head] at enough
    exact absurd enough (Nat.not_succ_le_zero _)
  | succ fuel => exact h fuel rest enough ends

theorem readsBack_word {value : Json} {word : List Char} (listed : (word, value) ∈ words)
    (written : value.text.toList = word) : ReadsBack value := by
  refine readsBack_of_succ fun fuel rest _ _ => ?_
  rw [written]
  simp only [words, List.mem_cons, Prod.mk.injEq, List.not_mem_nil, or_false] at listed
  rcases listed with ⟨rfl, rfl⟩ | ⟨rfl, rfl⟩ | ⟨rfl, rfl⟩
  all_goals rfl

theorem readsBack_number (value : Int) : ReadsBack (number value) := by
  refine readsBack_of_succ fun fuel rest _ ends => ?_
  obtain ⟨c, tail, head, starts⟩ := exists_head_number value
  have read := readNumber?_toString value ends
  rw [head, List.cons_append] at read
  rw [text, head, List.cons_append, readValue?, skipSpace_cons (isSpace_of_startsNumber starts)]
  -- No other value starts like a number, so the reader comes to its last question.
  simp only [if_neg (ne_of_startsNumber starts (show startsNumber '"' = false by decide)),
    if_neg (ne_of_startsNumber starts (show startsNumber '[' = false by decide)),
    if_neg (ne_of_startsNumber starts (show startsNumber '\x7b' = false by decide)),
    if_pos starts, read]
  rfl

theorem readsBack_string (s : String) : ReadsBack (string s) := by
  refine readsBack_of_succ fun fuel rest _ _ => ?_
  have cut : (string s).text.toList ++ rest =
      '"' :: (s.toList.flatMap escapedChar ++ '"' :: rest) := by
    simp [text, toList_quoted]
  rw [cut, readValue?, skipSpace_cons (by decide)]
  simp only [readString?_quoted]
  rfl

theorem readsBack_array {items : List Json} (back : ∀ item ∈ items, ReadsBack item) :
    ReadsBack (array items) := by
  refine readsBack_of_succ fun fuel rest enough _ => ?_
  have cut : (array items).text.toList ++ rest =
      '[' :: ((textItems true items).toList ++ ']' :: rest) := by
    simp [text]
  rw [cut, readValue?, skipSpace_cons (by decide)]
  cases items with
  | nil => simp [textItems, skipSpace_cons (show isSpace ']' = false by decide)]
  | cons item items =>
    have brackets : "[".toList.length = 1 ∧ "]".toList.length = 1 := by decide
    simp only [text, String.toList_append, List.length_append] at enough
    obtain ⟨first, others⟩ := List.forall_mem_cons.mp back
    have read := readItems?_text first others fuel rest (by omega)
    simp only [if_neg (show '[' ≠ '"' by decide),
      if_neg (head?_textItems item items (']' :: rest)), read]
    rfl

theorem readsBack_object {members : List (String × Json)}
    (back : ∀ member ∈ members, ReadsBack member.2) : ReadsBack (object members) := by
  refine readsBack_of_succ fun fuel rest enough _ => ?_
  have cut : (object members).text.toList ++ rest =
      '\x7b' :: ((textMembers true members).toList ++ '\x7d' :: rest) := by
    simp [text]
  rw [cut, readValue?, skipSpace_cons (by decide)]
  cases members with
  | nil => simp [textMembers, skipSpace_cons (show isSpace '\x7d' = false by decide)]
  | cons member members =>
    obtain ⟨key, value⟩ := member
    have braces : "\x7b".toList.length = 1 ∧ "\x7d".toList.length = 1 := by decide
    simp only [text, String.toList_append, List.length_append] at enough
    obtain ⟨first, others⟩ := List.forall_mem_cons.mp back
    have first : ReadsBack value := first
    have read := readMembers?_text key first others fuel rest (by omega)
    simp only [if_neg (show '\x7b' ≠ '"' by decide), if_neg (show '\x7b' ≠ '[' by decide),
      if_neg (head?_textMembers (key, value) members ('\x7d' :: rest)), read]
    rfl

mutual

theorem readsBack : (value : Json) → ReadsBack value
  | null => readsBack_word List.mem_cons_self rfl
  | bool true => readsBack_word (List.mem_cons_of_mem _ List.mem_cons_self) rfl
  | bool false =>
    readsBack_word (List.mem_cons_of_mem _ (List.mem_cons_of_mem _ List.mem_cons_self)) rfl
  | number value => readsBack_number value
  | string s => readsBack_string s
  | array items => readsBack_array (readsBack_items items)
  | object members => readsBack_object (readsBack_members members)

theorem readsBack_items : (items : List Json) → ∀ item ∈ items, ReadsBack item
  | [] => fun _ h => absurd h List.not_mem_nil
  | item :: items => List.forall_mem_cons.mpr ⟨readsBack item, readsBack_items items⟩

theorem readsBack_members : (members : List (String × Json)) → ∀ m ∈ members, ReadsBack m.2
  | [] => fun _ h => absurd h List.not_mem_nil
  | (_, value) :: members => List.forall_mem_cons.mpr ⟨readsBack value, readsBack_members members⟩

end

theorem read?_text (value : Json) : read? value.text = some value := by
  have read := readsBack value _ [] (Nat.le_refl _) (by rintro c ⟨⟩)
  rw [List.append_nil] at read
  rw [read?, ← String.length_toList, read]
  rfl

/-! ### Lines -/

theorem newline_not_mem_escaped (c : Char) : '\n' ∉ escapedChar c := by
  unfold escapedChar
  split
  any_goals decide
  rename_i notNewline _ _
  dsimp only
  split
  · rename_i control
    have digits : ∀ n < 0x20, '\n' ∉ '\\' :: 'u' ::
        (List.replicate (4 - (Nat.toDigits 16 n).length) '0' ++ Nat.toDigits 16 n) := by
      decide
    exact digits c.toNat control
  · intro h
    exact notNewline (List.mem_singleton.mp h).symm

theorem newline_not_mem_quoted (s : String) : '\n' ∉ (quoted s).toList := by
  rw [toList_quoted]
  intro h
  rcases List.mem_cons.mp h with quote | h
  · cases quote
  · rcases List.mem_append.mp h with inside | quote
    · obtain ⟨c, -, hc⟩ := List.mem_flatMap.mp inside
      exact newline_not_mem_escaped c hc
    · cases List.mem_singleton.mp quote

theorem newline_not_mem_number (value : Int) : '\n' ∉ (toString value).toList := by
  have noDigit : ∀ n, '\n' ∉ Nat.toDigits 10 n := fun n h => by
    have digit := isDigit_toDigits _ h
    revert digit
    decide
  cases value with
  | ofNat n =>
    rw [toList_ofNat]
    exact noDigit n
  | negSucc n =>
    rw [toList_negSucc]
    exact List.not_mem_cons_of_ne_of_not_mem (by decide) (noDigit (n + 1))

mutual

theorem newline_not_mem_text : (value : Json) → '\n' ∉ value.text.toList
  | null => by decide
  | bool true => by decide
  | bool false => by decide
  | number value => newline_not_mem_number value
  | string s => newline_not_mem_quoted s
  | array items => by
    have inside := newline_not_mem_textItems true items
    simpa [text] using inside
  | object members => by
    have inside := newline_not_mem_textMembers true members
    simpa [text] using inside

theorem newline_not_mem_textItems (first : Bool) :
    (items : List Json) → '\n' ∉ (textItems first items).toList
  | [] => by simp [textItems]
  | item :: items => by
    have here := newline_not_mem_text item
    have later := newline_not_mem_textItems false items
    cases first with
    | true => simp [textItems, here, later]
    | false => simp [textItems, here, later]

theorem newline_not_mem_textMembers (first : Bool) :
    (members : List (String × Json)) → '\n' ∉ (textMembers first members).toList
  | [] => by simp [textMembers]
  | (key, value) :: members => by
    have name := newline_not_mem_quoted key
    have here := newline_not_mem_text value
    have later := newline_not_mem_textMembers false members
    cases first with
    | true => simp [textMembers, name, here, later]
    | false => simp [textMembers, name, here, later]

end

end MediaRange.Json
