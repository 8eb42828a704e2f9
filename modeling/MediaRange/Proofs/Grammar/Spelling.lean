import MediaRange.Proofs.Grammar.Shape
import MediaRange.Proofs.Unicode.Variants
import MediaRange.Range

/-!
# How names and numbers are spelt

`IsName` and `IsValue` describe the names and the values of the grammar without patterns.
`hasWords_name` and `hasWords_value` show that the patterns mean them.
-/

namespace MediaRange

open Unicode

/-- A letter of a name or a unit: `A` to `Z`, `a` to `z`, the long s or the Kelvin sign. -/
def isUnitLetter (c : Char) : Bool := isLetterVariant c.toNat

def IsName (text : List Char) : Prop :=
  (∀ c ∈ text, (isUnitLetter c || c = '-') = true) ∧ text ≠ []

/-- Blanks that may have a slash among them. -/
inductive IsGap : List Char → Prop where
  | mk {before slash after : List Char} (hbefore : IsBlankText before)
      (hslash : slash = ['/'] ∨ slash = []) (hafter : IsBlankText after) :
      IsGap (before ++ (slash ++ after))

/-- A number with an optional unit, or a ratio of two: a sign, digits, a point and a gap, all of
which may be missing, then digits, then letters. -/
inductive IsNumber : List Char → Prop where
  | mk {sign whole point gap digits unit : List Char} (hsign : sign = ['-'] ∨ sign = [])
      (hwhole : ∀ c ∈ whole, c.isDigit = true) (hpoint : point = ['.'] ∨ point = [])
      (hgap : IsGap gap) (hdigits : ∀ c ∈ digits, c.isDigit = true) (hne : digits ≠ [])
      (hunit : ∀ c ∈ unit, isUnitLetter c = true) :
      IsNumber (sign ++ (whole ++ (point ++ (gap ++ (digits ++ unit)))))

/-- A value of the grammar without custom values. -/
def IsValue (text : List Char) : Prop := IsNumber text ∨ text = []

def isSpellingChar (c : Char) : Bool :=
  c.isDigit || isUnitLetter c || isBlank c || c = '-' || c = '.' || c = '/'

theorem ne_of_isSpellingChar {c d : Char} (hc : isSpellingChar c = true)
    (hd : isSpellingChar d = false) : c ≠ d := by
  rintro rfl
  simp [hc] at hd

/-- The blanks around a part are no matter. -/
theorem isSpellingChar_of_trim {text : List Char} (h : ∀ c ∈ trim text, isSpellingChar c = true) :
    ∀ c ∈ text, isSpellingChar c = true := by
  intro c hc
  rcases isBlank_or_mem_trim hc with hc | hc
  · simp [isSpellingChar, hc]
  · exact h c hc

theorem isDigit_eq (c : Char) : c.isDigit = (decide (0x30 ≤ c.toNat) && decide (c.toNat ≤ 0x39)) := by
  simp only [Char.isDigit, ge_iff_le, UInt32.le_iff_toNat_le]
  rfl

theorem isUnitLetter_iff (c : Char) :
    isUnitLetter c = true ↔ (0x41 ≤ c.toNat ∧ c.toNat ≤ 0x5A) ∨ (0x61 ≤ c.toNat ∧ c.toNat ≤ 0x7A) ∨
      c.toNat = 0x17F ∨ c.toNat = 0x212A := by
  simp only [isUnitLetter, isLetterVariant, isAsciiLetterCode, Bool.or_eq_true, Bool.and_eq_true,
    decide_eq_true_eq, or_assoc]

theorem isBlank_of_isUnitLetter {c : Char} (h : isUnitLetter c = true) : isBlank c = false := by
  rw [isUnitLetter_iff] at h
  simp only [isBlank, blankRanges, Ranges.has_cons, Ranges.has_nil, Bool.or_eq_false_iff,
    Bool.and_eq_false_iff, decide_eq_false_iff_not, and_true]
  omega

theorem isBlank_of_isDigit {c : Char} (h : c.isDigit = true) : isBlank c = false := by
  rw [isDigit_eq, Bool.and_eq_true, decide_eq_true_eq, decide_eq_true_eq] at h
  simp only [isBlank, blankRanges, Ranges.has_cons, Ranges.has_nil, Bool.or_eq_false_iff,
    Bool.and_eq_false_iff, decide_eq_false_iff_not, and_true]
  omega

/-! ### Names -/

theorem IsName.isSpellingChar {text : List Char} (h : IsName text) :
    ∀ c ∈ text, isSpellingChar c = true := by
  intro c hc
  have := h.1 c hc
  simp only [Bool.or_eq_true, decide_eq_true_eq] at this
  rcases this with letter | rfl
  · simp [MediaRange.isSpellingChar, letter]
  · decide

theorem IsName.isBlank {text : List Char} (h : IsName text) : ∀ c ∈ text, isBlank c = false := by
  intro c hc
  have := h.1 c hc
  simp only [Bool.or_eq_true, decide_eq_true_eq] at this
  rcases this with letter | rfl
  · exact isBlank_of_isUnitLetter letter
  · decide

/-! ### Numbers -/

theorem isGap_nil : IsGap [] := by
  have gap : IsGap ([] ++ ([] ++ [])) := .mk isBlankText_nil (.inr rfl) isBlankText_nil
  exact gap

theorem IsGap.isSpellingChar {text : List Char} (h : IsGap text) :
    ∀ c ∈ text, isSpellingChar c = true := by
  have blank {c : Char} (hc : isBlank c = true) : MediaRange.isSpellingChar c = true := by
    simp [MediaRange.isSpellingChar, hc]
  obtain ⟨hbefore, hslash, hafter⟩ := h
  intro c hc
  simp only [List.mem_append] at hc
  rcases hc with hc | hc | hc
  · exact blank (hbefore c hc)
  · rcases hslash with rfl | rfl
    · obtain rfl := List.mem_singleton.mp hc
      decide
    · cases hc
  · exact blank (hafter c hc)

theorem IsNumber.isSpellingChar {text : List Char} (h : IsNumber text) :
    ∀ c ∈ text, isSpellingChar c = true := by
  have optional {d c : Char} {part : List Char} (hd : MediaRange.isSpellingChar d = true)
      (hpart : part = [d] ∨ part = []) (hc : c ∈ part) : MediaRange.isSpellingChar c = true := by
    rcases hpart with rfl | rfl
    · rwa [List.mem_singleton.mp hc]
    · cases hc
  obtain ⟨hsign, hwhole, hpoint, hgap, hdigits, -, hunit⟩ := h
  intro c hc
  simp only [List.mem_append] at hc
  rcases hc with hc | hc | hc | hc | hc | hc
  · exact optional (by decide) hsign hc
  · simp [MediaRange.isSpellingChar, hwhole c hc]
  · exact optional (by decide) hpoint hc
  · exact hgap.isSpellingChar c hc
  · simp [MediaRange.isSpellingChar, hdigits c hc]
  · simp [MediaRange.isSpellingChar, hunit c hc]

theorem IsNumber.last {text : List Char} (h : IsNumber text) :
    ∀ c ∈ text.getLast?, isBlank c = false := by
  obtain ⟨-, -, -, -, hdigits, hne, hunit⟩ := h
  rename_i sign whole point gap digits unit
  intro c hc
  have hc : c ∈ digits ++ unit := by
    have same : sign ++ (whole ++ (point ++ (gap ++ (digits ++ unit)))) =
      (sign ++ (whole ++ (point ++ gap))) ++ (digits ++ unit) := by simp
    obtain ⟨d, hd⟩ := Option.isSome_iff_exists.mp
      (List.getLast?_isSome.mpr (show digits ++ unit ≠ [] by simp [hne]))
    rw [same, List.getLast?_append, hd, Option.some_or] at hc
    exact List.mem_of_getLast? (hd.trans hc)
  rcases List.mem_append.mp hc with hc | hc
  · exact isBlank_of_isDigit (hdigits c hc)
  · exact isBlank_of_isUnitLetter (hunit c hc)

theorem IsNumber.ne_nil {text : List Char} (h : IsNumber text) : text ≠ [] := by
  obtain ⟨-, -, -, -, -, hne, -⟩ := h
  simp [hne]

theorem IsNumber.exists_isDigit {text : List Char} (h : IsNumber text) :
    ∃ c ∈ text, c.isDigit = true := by
  obtain ⟨-, -, -, -, hdigits, hne, -⟩ := h
  rename_i sign whole point gap digits unit
  obtain ⟨c, hc⟩ := List.exists_mem_of_ne_nil digits hne
  exact ⟨c, by simp [hc], hdigits c hc⟩

theorem isNumber_of_gap {gap digits unit : List Char} (hgap : IsGap gap)
    (hdigits : ∀ c ∈ digits, c.isDigit = true) (hne : digits ≠ [])
    (hunit : ∀ c ∈ unit, isUnitLetter c = true) : IsNumber (gap ++ (digits ++ unit)) := by
  have number : IsNumber ([] ++ ([] ++ ([] ++ (gap ++ (digits ++ unit))))) :=
    .mk (.inr rfl) (by simp) (.inr rfl) hgap hdigits hne hunit
  exact number

/-- Only the gap can start with blanks, and it may lose them. -/
theorem IsNumber.trimLeft {text : List Char} (h : IsNumber text) : IsNumber (trimLeft text) := by
  have unchanged {c : Char} {rest : List Char} (hc : isBlank c = false)
      (h : IsNumber (c :: rest)) : IsNumber (Unicode.trimLeft (c :: rest)) := by
    rwa [Unicode.trimLeft, List.dropWhile_cons_of_neg (by simp [hc])]
  have h' := h
  obtain ⟨hsign, hwhole, hpoint, hgap, hdigits, hne, hunit⟩ := h
  rcases hsign with rfl | rfl
  · exact unchanged (by decide) h'
  rename_i whole point gap digits unit
  cases whole with
  | cons c whole => exact unchanged (isBlank_of_isDigit (hwhole c List.mem_cons_self)) h'
  | nil =>
    rcases hpoint with rfl | rfl
    · exact unchanged (by decide) h'
    obtain ⟨hbefore, hslash, hafter⟩ := hgap
    rename_i before slash after
    have digitsFirst : ∀ c ∈ (digits ++ unit).head?, Unicode.isBlank c = false := by
      cases digits with
      | nil => exact absurd rfl hne
      | cons d digits => simpa using isBlank_of_isDigit (hdigits d List.mem_cons_self)
    rcases hslash with rfl | rfl
    · rw [show ([] ++ ([] ++ ([] ++ (before ++ (['/'] ++ after) ++ (digits ++ unit)))) : List Char) =
        before ++ ('/' :: (after ++ (digits ++ unit))) by simp,
        trimLeft_append hbefore (by simpa using by decide)]
      exact isNumber_of_gap (.mk isBlankText_nil (.inl rfl) hafter) hdigits hne hunit
    · have blank : IsBlankText (before ++ after) := fun c hc =>
        (List.mem_append.mp hc).elim (hbefore c) (hafter c)
      rw [show ([] ++ ([] ++ ([] ++ (before ++ ([] ++ after) ++ (digits ++ unit)))) : List Char) =
        (before ++ after) ++ (digits ++ unit) by simp, trimLeft_append blank digitsFirst]
      exact isNumber_of_gap isGap_nil hdigits hne hunit

/-! ### Values -/

theorem IsValue.isSpellingChar {text : List Char} (h : IsValue text) :
    ∀ c ∈ text, isSpellingChar c = true := by
  rcases h with h | rfl
  · exact h.isSpellingChar
  · simp

theorem IsValue.last {text : List Char} (h : IsValue text) :
    ∀ c ∈ text.getLast?, isBlank c = false := by
  rcases h with h | rfl
  · exact h.last
  · simp

theorem IsValue.trimLeft {text : List Char} (h : IsValue text) : IsValue (trimLeft text) := by
  rcases h with h | rfl
  · exact .inl h.trimLeft
  · exact .inr rfl

/-- A number is no name, for it has a digit. -/
theorem IsValue.not_isName {text : List Char} (h : IsValue text) : ¬IsName text := by
  intro isName
  rcases h with number | rfl
  · obtain ⟨c, hc, digit⟩ := number.exists_isDigit
    have letter := isName.1 c hc
    rw [isDigit_eq, Bool.and_eq_true, decide_eq_true_eq, decide_eq_true_eq] at digit
    rw [Bool.or_eq_true, decide_eq_true_eq, isUnitLetter_iff, ← Char.toNat_inj,
      show '-'.toNat = 0x2D from rfl] at letter
    omega
  · exact isName.2 rfl

namespace Grammar

open Pattern

/-! ### What the patterns mean -/

theorem has_digitSet (c : Char) : digitSet.has c = c.isDigit := by
  rw [digitSet, has_folded_of_noLetters, isDigit_eq]
  · simp only [Ranges.has_cons, Ranges.has_nil, Bool.or_false]
  · intro m hm
    simp only [Ranges.has_cons, Ranges.has_nil, Bool.or_false, Bool.and_eq_true,
      decide_eq_true_eq] at hm
    simp only [isAsciiLetterCode, Bool.or_eq_false_iff, Bool.and_eq_false_iff,
      decide_eq_false_iff_not]
    omega

theorem has_unitSet (c : Char) : unitSet.has c = isUnitLetter c := by
  rw [unitSet, has_folded_of_lowercase (by simp [Ranges.has_nil]), Ranges.has_nil, Bool.or_false,
    isUnitLetter]

theorem char_eq_iff (c d : Char) : c = d ↔ c.toNat = d.toNat := by
  refine ⟨congrArg _, fun h => Char.ext (UInt32.toNat_inj.mp h)⟩

theorem has_nameSet (c : Char) : nameSet.has c = (isUnitLetter c || c = '-') := by
  rw [nameSet, has_folded_of_lowercase]
  · simp only [isUnitLetter, Ranges.has_cons, Ranges.has_nil, Bool.or_false]
    congr 1
    rw [Bool.eq_iff_iff, decide_eq_true_eq, char_eq_iff, Bool.and_eq_true, decide_eq_true_eq,
      decide_eq_true_eq]
    simp only [show '-'.toNat = 0x2D from rfl]
    omega
  · intro m hm
    simp only [Ranges.has_cons, Ranges.has_nil, Bool.or_false, Bool.and_eq_true,
      decide_eq_true_eq] at hm
    obtain rfl : m = 0x2D := by omega
    decide

theorem hasWords_optionally (c : Char) : HasWords (optionally c) fun u => u = [c] ∨ u = [] := by
  refine ((hasWords_one _).opt true).of_iff fun u => ?_
  constructor
  · rintro (⟨d, hd, rfl⟩ | rfl)
    · rw [CharSet.has_single, beq_iff_eq] at hd
      exact .inl (by rw [(char_eq_iff c d).mpr hd])
    · exact .inr rfl
  · rintro (rfl | rfl)
    · exact .inl ⟨c, by simp, rfl⟩
    · exact .inr rfl

theorem hasWords_gap : HasWords gap IsGap := by
  refine (hasWords_blanks.seq ((hasWords_optionally '/').seq hasWords_blanks)).of_iff fun u => ?_
  constructor
  · rintro ⟨before, _, rfl, hbefore, slash, after, rfl, hslash, hafter⟩
    exact .mk hbefore hslash hafter
  · rintro ⟨hbefore, hslash, hafter⟩
    exact ⟨_, _, rfl, hbefore, _, _, rfl, hslash, hafter⟩

theorem hasWords_number : HasWords number IsNumber := by
  refine ((hasWords_optionally '-').seq ((hasWords_star_one true digitSet).seq
    ((hasWords_optionally '.').seq ((hasWords_gap.opt true).seq ((hasWords_plus_one true digitSet).seq
      (hasWords_star_one true unitSet)))))).of_iff fun u => ?_
  simp only [IsRun, has_digitSet, has_unitSet]
  constructor
  · rintro ⟨sign, _, rfl, hsign, whole, _, rfl, hwhole, point, _, rfl, hpoint, gap, _, rfl, hgap,
      digits, unit, rfl, ⟨hdigits, hne⟩, hunit⟩
    refine .mk hsign hwhole hpoint ?_ hdigits hne hunit
    rcases hgap with hgap | rfl
    · exact hgap
    · exact isGap_nil
  · rintro ⟨hsign, hwhole, hpoint, hgap, hdigits, hne, hunit⟩
    exact ⟨_, _, rfl, hsign, _, _, rfl, hwhole, _, _, rfl, hpoint, _, _, rfl, .inl hgap, _, _, rfl,
      ⟨hdigits, hne⟩, hunit⟩

theorem hasWords_name (greedy : Bool) : HasWords (plus greedy (one nameSet)) IsName :=
  (hasWords_plus_one greedy nameSet).of_iff fun u => by simp only [IsRun, has_nameSet, IsName]

theorem hasWords_value : HasWords (value none) IsValue := hasWords_number.opt true

end Grammar

instance (text : List Char) : Decidable (IsName text) :=
  decidable_of_iff ((text.all fun c => isUnitLetter c || c = '-') = true ∧ text ≠ [])
    (by rw [IsName, List.all_eq_true])

instance (text : List Char) : Decidable (IsNumber text) :=
  decidable_of_iff _ (Grammar.hasWords_number.whole text).symm

instance (text : List Char) : Decidable (IsValue text) := inferInstanceAs (Decidable (_ ∨ _))

end MediaRange
