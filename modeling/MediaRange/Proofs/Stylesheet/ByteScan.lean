import MediaRange.Proofs.Stylesheet.Bytes
import MediaRange.Proofs.Stylesheet.MediaRules
import MediaRange.Stylesheet.Basic

/-!
# The scan of the bytes

`ByteScan.scan` rewrites a stylesheet by positions in its bytes. It takes single bytes, ranges of
bytes and texts between two positions, and a text that starts or ends within a character is a fault
as much as a position outside. The spec lemmas say where each part of the scan lands in terms of the
tokens of bytes.
-/

namespace MediaRange.ByteScan

open StyleToken Stylesheet

/-! ### What can go wrong -/

inductive Fault where
  /-- There is no byte at the position. -/
  | index (position : Nat)
  /-- The range does not lie within the bytes, or it ends before it starts. -/
  | range (first last : Nat)
  /-- A text would start or end within a character. -/
  | boundary (position : Nat)
  /-- A difference of lengths is negative. -/
  | negative (whole part : Nat)
  /-- A loop would not get on. -/
  | stuck (position : Nat)
  deriving DecidableEq, Repr

section

variable (bytes : List UInt8)

def byteAt (i : Nat) : Except Fault UInt8 :=
  match bytes[i]? with
  | some b => .ok b
  | none => .error (.index i)

def bytesBetween (first last : Nat) : Except Fault (List UInt8) :=
  if first ≤ last ∧ last ≤ bytes.length then .ok ((bytes.take last).drop first)
  else .error (.range first last)

def bytesFrom (first : Nat) : Except Fault (List UInt8) := bytesBetween bytes first bytes.length

end

/-- The texts before and after a position in bytes that is not within a character. -/
def cutAt : List Char → Nat → Except Fault (List Char × List Char)
  | rest, 0 => .ok ([], rest)
  | [], position => .error (.boundary position)
  | c :: rest, position =>
    if c.utf8Size ≤ position then
      (cutAt rest (position - c.utf8Size)).map fun cut => (c :: cut.1, cut.2)
    else .error (.boundary position)

def textBetween (css : List Char) (first last : Nat) : Except Fault (List Char) :=
  if first ≤ last ∧ last ≤ (utf8 css).length then do
    let (_, rest) ← cutAt css first
    let (text, _) ← cutAt rest (last - first)
    return text
  else .error (.range first last)

def difference (whole part : Nat) : Except Fault Nat :=
  if part ≤ whole then .ok (whole - part) else .error (.negative whole part)

/-! ### Where tokens end -/

/-- How far off the end of a comment is. -/
def closing? : List UInt8 → Option Nat
  | a :: b :: rest =>
    if a.toNat = '*'.toNat ∧ b.toNat = '/'.toNat then some 0 else (closing? (b :: rest)).map (· + 1)
  | _ => none

section

variable (bytes : List UInt8)

def commentEnd (start : Nat) : Except Fault Nat := do
  let rest ← bytesFrom bytes (start + 2)
  return (closing? rest).elim bytes.length (start + 2 + · + 2)

/-- The end of a string, from some position in it. A backslash hides the byte after it, even if that
is the first of several or beyond the end. -/
def quotedEnd (quote : UInt8) (i : Nat) : Except Fault Nat :=
  if i < bytes.length then do
    let b ← byteAt bytes i
    if b.toNat = '\\'.toNat then quotedEnd quote (i + 2)
    else if b.toNat = '\n'.toNat then return i
    else if b = quote then return i + 1
    else quotedEnd quote (i + 1)
  else return bytes.length
termination_by bytes.length - i

def stringEnd (start : Nat) : Except Fault Nat := do
  let quote ← byteAt bytes start
  quotedEnd bytes quote (start + 1)

def tokenEnd (i : Nat) (b : UInt8) : Except Fault Nat :=
  if b.toNat = '/'.toNat ∧ bytes[i + 1]?.map UInt8.toNat = some '*'.toNat then commentEnd bytes i
  else if b.toNat = '"'.toNat ∨ b.toNat = '\''.toNat then stringEnd bytes i
  else if b.toNat = '\\'.toNat then return i + 2
  else return i + 1

def preludeEnd (i : Nat) : Except Fault Nat :=
  if i < bytes.length then do
    let b ← byteAt bytes i
    if endsPreludeCode b.toNat then return i
    else
      let next ← tokenEnd bytes i b
      if i < next then preludeEnd next else throw (.stuck i)
  else return bytes.length
termination_by bytes.length - i

/-! ### Rules -/

def startsRule : Nat → Except Fault Bool
  | 0 => return true
  | i + 1 => do
    let b ← byteAt bytes i
    return opensRuleCode b.toNat

def nameEnd (start : Nat) : Except Fault Nat := do
  let rest ← bytesFrom bytes start
  return start + (rest.takeWhile (isNameCode ·.toNat)).length

end

/-- The last position whose line was asked for, and the line ends before it. -/
structure LineCounter where
  position : Nat := 0
  newlines : Nat := 0

def LineCounter.lineAt (counter : LineCounter) (bytes : List UInt8) (position : Nat) :
    Except Fault (Nat × LineCounter) := do
  let passed ← bytesBetween bytes counter.position position
  let newlines := counter.newlines + passed.countP (·.toNat = '\n'.toNat)
  return (newlines + 1, ⟨position, newlines⟩)

/-- The new text so far, up to where the stylesheet has been copied, and the changes. -/
structure Run where
  out : List Char := []
  changes : List RuleChange := []
  copied : Nat := 0
  lines : LineCounter := {}

section

variable (engine : Engine) (css : List Char)

/-- A prelude at its position, after the name of the rule whose `@` is at `start`. -/
def rewritePrelude (start first last : Nat) (name : List Char) (run : Run) : Except Fault Run := do
  let raw ← textBetween css first last
  let params := Unicode.trim raw
  if params.isEmpty then return run
  else
    let blanks ← difference (utf8 raw).length (utf8 (Unicode.trimLeft raw)).length
    let rule : Rule := ⟨name, params⟩
    let outcome := (engine.rewriteRule rule).value
    if outcome.rewrites.isEmpty then return run
    else
      let before ← textBetween css run.copied (first + blanks)
      let (line, lines) ← run.lines.lineAt (utf8 css) start
      let after := (rule.updated outcome).params
      return {
        out := run.out ++ before ++ after
        changes := run.changes ++ [⟨line, name, params, after, outcome.rewrites⟩]
        copied := first + blanks + (utf8 params).length
        lines }

/-- A rule at its `@`. Only a media rule has a prelude to pass. -/
def scanRule (start : Nat) (run : Run) : Except Fault (Nat × Run) := do
  let first ← nameEnd (utf8 css) (start + 1)
  let name ← textBetween css (start + 1) first
  if !isMediaRule name then return (first, run)
  else
    let last ← preludeEnd (utf8 css) first
    return (last, ← rewritePrelude engine css start first last name run)

def scanToken (i : Nat) (run : Run) : Except Fault (Nat × Run) := do
  let b ← byteAt (utf8 css) i
  if b.toNat = '@'.toNat then
    if ← startsRule (utf8 css) i then scanRule engine css i run else return (i + 1, run)
  else return (← tokenEnd (utf8 css) i b, run)

def scanFrom (i : Nat) (run : Run) : Except Fault Run :=
  if i < (utf8 css).length then do
    let (next, run) ← scanToken engine css i run
    if i < next then scanFrom next run else throw (.stuck i)
  else return run
termination_by (utf8 css).length - i

def finish (run : Run) : Except Fault Processed := do
  let rest ← textBetween css run.copied (utf8 css).length
  return ⟨run.out ++ rest, run.changes⟩

/-- Rewrites every media rule of a stylesheet by positions in its bytes. -/
def scan : Except Fault Processed := do finish css (← scanFrom engine css 0 {})

end

/-! ### Where the parts land -/

section

variable {bytes : List UInt8} {i : Nat} {b : UInt8} {rest : List UInt8}

theorem lt_of_drop (h : bytes.drop i = b :: rest) : i < bytes.length :=
  Nat.lt_of_not_le fun beyond => by cases h.symm.trans (List.drop_eq_nil_iff.mpr beyond)

theorem drop_add (h : bytes.drop i = rest) (n : Nat) : bytes.drop (i + n) = rest.drop n := by
  rw [← h, List.drop_drop]

theorem byteAt_of_drop (h : bytes.drop i = b :: rest) : byteAt bytes i = .ok b := by
  rw [byteAt, ← List.head?_drop, h]
  rfl

theorem bytesFrom_of_le (h : i ≤ bytes.length) : bytesFrom bytes i = .ok (bytes.drop i) := by
  rw [bytesFrom, bytesBetween, if_pos ⟨h, Nat.le_refl _⟩, List.take_length]

theorem closing?_some {n : Nat} {text : List UInt8} (h : closing? text = some n) :
    (cutComment UInt8.toNat text).2 = text.drop (n + 2) := by
  fun_induction cutComment UInt8.toNat text generalizing n with
  | case1 | case2 => cases h
  | case3 a b rest ends =>
    rw [closing?, if_pos ends] at h
    obtain rfl := Option.some.inj h
    rfl
  | case4 a b rest goesOn ih =>
    rw [closing?, if_neg goesOn] at h
    obtain ⟨m, hm, rfl⟩ := Option.map_eq_some_iff.mp h
    exact ih hm

theorem closing?_none {text : List UInt8} (h : closing? text = none) :
    (cutComment UInt8.toNat text).2 = [] := by
  fun_induction cutComment UInt8.toNat text with
  | case1 | case2 => rfl
  | case3 a b rest ends =>
    rw [closing?, if_pos ends] at h
    cases h
  | case4 a b rest goesOn ih =>
    rw [closing?, if_neg goesOn] at h
    exact ih (Option.map_eq_none_iff.mp h)

theorem commentEnd_lands {a : UInt8} (h : bytes.drop i = a :: b :: rest) :
    ∃ j, commentEnd bytes i = .ok j ∧ i < j ∧ bytes.drop j = (cutComment UInt8.toNat rest).2 := by
  have body : bytes.drop (i + 2) = rest := drop_add h 2
  have inside : i + 2 ≤ bytes.length := by
    have whole := congrArg List.length h
    rw [List.length_drop, List.length_cons, List.length_cons] at whole
    omega
  have lands : commentEnd bytes i =
      .ok ((closing? rest).elim bytes.length (i + 2 + · + 2)) := by
    rw [commentEnd, bytesFrom_of_le inside, body]
    rfl
  refine ⟨_, lands, ?_⟩
  cases hn : closing? rest with
  | some n =>
    rw [closing?_some hn, Option.elim_some]
    exact ⟨by omega, drop_add body (n + 2)⟩
  | none =>
    rw [closing?_none hn, Option.elim_none]
    exact ⟨by omega, List.drop_length⟩

theorem cutQuoted_backslash {quote a : UInt8} (h : a.toNat = '\\'.toNat) :
    (cutQuoted UInt8.toNat quote (a :: rest)).2 =
      (cutQuoted UInt8.toNat quote (rest.drop 1)).2 := by
  have notNewline : ¬a.toNat = '\n'.toNat := by
    rw [h]
    decide
  cases rest with
  | nil => rw [cutQuoted, if_neg notNewline]; rfl
  | cons b rest => rw [cutQuoted, if_pos h]; rfl

/-- A string ends where it is cut, and at or after the position if that is not beyond the end. -/
theorem quotedEnd_lands (bytes : List UInt8) (quote : UInt8) (i : Nat) :
    ∃ j, quotedEnd bytes quote i = .ok j ∧ min i bytes.length ≤ j ∧
      bytes.drop j = (cutQuoted UInt8.toNat quote (bytes.drop i)).2 := by
  cases h : bytes.drop i with
  | nil =>
    have beyond : ¬i < bytes.length := Nat.not_lt.mpr (List.drop_eq_nil_iff.mp h)
    refine ⟨bytes.length, ?_, Nat.min_le_right _ _, List.drop_length⟩
    rw [quotedEnd, if_neg beyond]
    rfl
  | cons b rest =>
    have inside := lt_of_drop h
    have here : quotedEnd bytes quote i =
        if b.toNat = '\\'.toNat then quotedEnd bytes quote (i + 2)
        else if b.toNat = '\n'.toNat then .ok i
        else if b = quote then .ok (i + 1)
        else quotedEnd bytes quote (i + 1) := by
      rw [quotedEnd, if_pos inside, byteAt_of_drop h]
      rfl
    have after : bytes.drop (i + 1) = rest := drop_add h 1
    rw [here]
    by_cases backslash : b.toNat = '\\'.toNat
    · obtain ⟨j, ends, le, lands⟩ := quotedEnd_lands bytes quote (i + 2)
      rw [drop_add h 2, List.drop_succ_cons] at lands
      rw [if_pos backslash, cutQuoted_backslash backslash]
      exact ⟨j, ends, by omega, lands⟩
    rw [if_neg backslash]
    by_cases newline : b.toNat = '\n'.toNat
    · rw [if_pos newline, cutQuoted_newline newline]
      exact ⟨i, rfl, Nat.min_le_left _ _, h⟩
    rw [if_neg newline]
    by_cases closes : b = quote
    · rw [if_pos closes, cutQuoted_close backslash newline (congrArg _ closes)]
      exact ⟨i + 1, rfl, by omega, after⟩
    · obtain ⟨j, ends, le, lands⟩ := quotedEnd_lands bytes quote (i + 1)
      have goesOn : cutQuoted UInt8.toNat quote ([b] ++ rest) = _ :=
        cutQuoted_append (by simpa using backslash) (by simpa using newline)
          (by simpa [UInt8.toNat_inj] using closes) rest
      rw [after] at lands
      rw [if_neg closes, show b :: rest = [b] ++ rest from rfl, goesOn]
      exact ⟨j, ends, by omega, lands⟩
termination_by bytes.length - i

theorem tokenEnd_lands (h : bytes.drop i = b :: rest) :
    ∃ j, tokenEnd bytes i b = .ok j ∧ i < j ∧ bytes.drop j = (cutFirst UInt8.toNat b rest).2 := by
  have inside := lt_of_drop h
  have after : bytes.drop (i + 1) = rest := drop_add h 1
  have second : bytes[i + 1]? = rest.head? := by rw [← after, List.head?_drop]
  rw [tokenEnd, second, cutFirst]
  split
  · rename_i opens
    cases rest with
    | nil => cases opens.2
    | cons c rest => exact commentEnd_lands h
  · split
    · obtain ⟨j, ends, le, lands⟩ := quotedEnd_lands bytes b (i + 1)
      rw [after] at lands
      rw [stringEnd, byteAt_of_drop h]
      exact ⟨j, ends, by omega, lands⟩
    · split
      · exact ⟨i + 2, rfl, by omega, drop_add h 2⟩
      · exact ⟨i + 1, rfl, by omega, after⟩

theorem isSingle_cutFirst {p : Nat → Bool} (single : ∀ n, opensTokenCode n = true → p n = false)
    (b : UInt8) (rest : List UInt8) :
    (cutFirst UInt8.toNat b rest).1.isSingle UInt8.toNat p = p b.toNat := by
  obtain ⟨a, more, text, same⟩ := exists_text (isCut_cutFirst UInt8.toNat b rest) single
  obtain ⟨others, first⟩ := text_cutFirst UInt8.toNat b rest
  rw [← same, (List.cons.inj (text.symm.trans first)).1]

/-- A prelude ends before the first token that is a brace or a semicolon. -/
theorem preludeEnd_lands (bytes : List UInt8) (i : Nat) :
    ∃ j, preludeEnd bytes i = .ok j ∧ min i bytes.length ≤ j ∧ j ≤ bytes.length ∧
      bytes.drop j = ((tokens UInt8.toNat (bytes.drop i)).dropWhile
        (!isSingle UInt8.toNat endsPreludeCode ·)).flatMap StyleToken.text := by
  cases h : bytes.drop i with
  | nil =>
    have beyond : ¬i < bytes.length := Nat.not_lt.mpr (List.drop_eq_nil_iff.mp h)
    refine ⟨bytes.length, ?_, Nat.min_le_right _ _, Nat.le_refl _, ?_⟩
    · rw [preludeEnd, if_neg beyond]
      rfl
    · rw [tokens]
      exact List.drop_length
  | cons b rest =>
    have inside := lt_of_drop h
    have first := isSingle_cutFirst (fun _ => not_endsPreludeCode_of_opensTokenCode) b rest
    obtain ⟨next, ends, further, lands⟩ := tokenEnd_lands h
    have here : preludeEnd bytes i =
        if endsPreludeCode b.toNat then .ok i else preludeEnd bytes next := by
      rw [preludeEnd, if_pos inside, byteAt_of_drop h]
      show (if endsPreludeCode b.toNat then _ else tokenEnd bytes i b >>= _) = _
      rw [ends]
      show (if endsPreludeCode b.toNat then _ else if i < next then _ else _) = _
      rw [if_pos further]
      rfl
    rw [here, tokens]
    by_cases stops : endsPreludeCode b.toNat = true
    · rw [if_pos stops, List.dropWhile_cons_of_neg (by simp [first, stops]), List.flatMap_cons,
        tokens_text, cutFirst_text]
      exact ⟨i, rfl, Nat.min_le_left _ _, Nat.le_of_lt inside, h⟩
    · obtain ⟨j, ends, le, short, later⟩ := preludeEnd_lands bytes next
      rw [if_neg stops, List.dropWhile_cons_of_pos (by simp [first, stops]), ← lands]
      exact ⟨j, ends, by omega, short, later⟩
termination_by bytes.length - i

end

end MediaRange.ByteScan
