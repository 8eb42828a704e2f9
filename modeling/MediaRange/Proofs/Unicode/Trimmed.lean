import MediaRange.Unicode.Blank
import MediaRange.Unicode.Word

/-!
# Trimmed texts

`IsTrimmed` texts neither start nor end with a blank. `trim_eq_iff` shows that `trim` finds the one
trimmed text in the middle of some blanks. No blank is a character of a word.
-/

namespace MediaRange.Unicode

def IsBlankText (text : List Char) : Prop := ∀ c ∈ text, isBlank c = true

theorem isBlankText_nil : IsBlankText [] := by simp [IsBlankText]

/-- A text without blanks at its ends. -/
structure IsTrimmed (text : List Char) : Prop where
  first : ∀ c ∈ text.head?, isBlank c = false
  last : ∀ c ∈ text.getLast?, isBlank c = false

theorem isTrimmed_of_forall {text : List Char} (h : ∀ c ∈ text, isBlank c = false) :
    IsTrimmed text :=
  ⟨fun c hc => h c (List.mem_of_mem_head? hc), fun c hc => h c (List.mem_of_mem_getLast? hc)⟩

theorem isBlankText_leadingBlanks (text : List Char) : IsBlankText (leadingBlanks text) :=
  fun _ hc => List.all_eq_true.mp (List.all_takeWhile) _ hc

theorem isBlankText_trailingBlanks (text : List Char) : IsBlankText (trailingBlanks text) :=
  fun c hc => isBlankText_leadingBlanks text.reverse c (List.mem_reverse.mp hc)

theorem trimLeft_append {blanks text : List Char} (hb : IsBlankText blanks)
    (ht : ∀ c ∈ text.head?, isBlank c = false) : trimLeft (blanks ++ text) = text := by
  rw [trimLeft, List.dropWhile_append_of_pos hb]
  cases text with
  | nil => rfl
  | cons c text => simp [ht c (by simp)]

theorem trimRight_append {blanks text : List Char} (hb : IsBlankText blanks)
    (ht : ∀ c ∈ text.getLast?, isBlank c = false) : trimRight (text ++ blanks) = text := by
  rw [trimRight, List.reverse_append, trimLeft_append, List.reverse_reverse]
  · exact fun c hc => hb c (List.mem_reverse.mp hc)
  · simpa using ht

theorem head_trimLeft (text : List Char) : ∀ c ∈ (trimLeft text).head?, isBlank c = false := by
  intro c hc
  have h := List.head?_dropWhile_not isBlank text
  rw [trimLeft] at hc
  rw [Option.mem_def.mp hc] at h
  simpa using h

theorem trimRight_prefix (text : List Char) : trimRight text <+: text :=
  ⟨_, trimRight_append_trailingBlanks text⟩

theorem isTrimmed_trim (text : List Char) : IsTrimmed (trim text) := by
  constructor
  · intro c hc
    obtain ⟨rest, hrest⟩ := trimRight_prefix (trimLeft text)
    refine head_trimLeft text c ?_
    rw [← hrest]
    rw [trim] at hc
    cases h : trimRight (trimLeft text) with
    | nil => simp [h] at hc
    | cons d ds => simpa [h] using hc
  · intro c hc
    rw [trim, trimRight, List.getLast?_reverse] at hc
    exact head_trimLeft _ c hc

theorem trim_padded {blanks text others : List Char} (hb : IsBlankText blanks)
    (ht : IsTrimmed text) (ho : IsBlankText others) : trim (blanks ++ (text ++ others)) = text := by
  cases text with
  | nil =>
    have all : IsBlankText (blanks ++ others) := by
      intro c hc
      rcases List.mem_append.mp hc with hc | hc
      · exact hb c hc
      · exact ho c hc
    rw [List.nil_append, trim, ← List.append_nil (blanks ++ others), trimLeft_append all (by simp)]
    rfl
  | cons c text =>
    rw [trim, trimLeft_append hb (by simpa using ht.first c), trimRight_append ho ht.last]

/-- The trimmed text is the one between some blanks. -/
theorem trim_eq_iff {text middle : List Char} :
    trim text = middle ↔
      IsTrimmed middle ∧ ∃ blanks others, IsBlankText blanks ∧ IsBlankText others ∧
        text = blanks ++ (middle ++ others) := by
  constructor
  · rintro rfl
    exact ⟨isTrimmed_trim text, _, _, isBlankText_leadingBlanks text,
      isBlankText_trailingBlanks _, (leading_append_trim_append_trailing text).symm⟩
  · rintro ⟨ht, blanks, others, hb, ho, rfl⟩
    exact trim_padded hb ht ho

theorem isBlank_or_mem_trim {c : Char} {text : List Char} (h : c ∈ text) :
    isBlank c = true ∨ c ∈ trim text := by
  rw [← leading_append_trim_append_trailing text, List.mem_append, List.mem_append] at h
  rcases h with h | h | h
  · exact .inl (isBlankText_leadingBlanks text c h)
  · exact .inr h
  · exact .inl (isBlankText_trailingBlanks _ c h)

/-- A text of blanks only has all of them at its start. -/
theorem trailingBlanks_eq_nil (text : List Char) (h : trim text = []) :
    trailingBlanks (trimLeft text) = [] := by
  have parts := trimRight_append_trailingBlanks (trimLeft text)
  rw [← trim, h, List.nil_append] at parts
  cases left : trailingBlanks (trimLeft text) with
  | nil => rfl
  | cons c rest =>
    have notBlank := head_trimLeft text c (by rw [← parts, left]; rfl)
    have blank := isBlankText_trailingBlanks (trimLeft text) c (by rw [left]; exact List.mem_cons_self)
    simp [blank] at notBlank

theorem trim_of_isTrimmed {text : List Char} (h : IsTrimmed text) : trim text = text := by
  simpa using trim_padded isBlankText_nil h isBlankText_nil

/-! ### Blanks and words -/

def blankCodes : List Nat :=
  blankRanges.flatMap fun range => List.range' range.1 (range.2 + 1 - range.1)

theorem isWord_blankCodes : blankCodes.all (fun n => !isWord (Char.ofNat n)) = true := by
  decide +kernel

theorem isWord_of_isBlank {c : Char} (h : isBlank c = true) : isWord c = false := by
  obtain ⟨range, hrange, inside⟩ := List.any_eq_true.mp h
  have code : c.toNat ∈ blankCodes := by
    simp only [Bool.and_eq_true, decide_eq_true_eq] at inside
    refine List.mem_flatMap.mpr ⟨range, hrange, List.mem_range'_1.mpr ⟨inside.1, ?_⟩⟩
    omega
  simpa [Char.ofNat_toNat] using List.all_eq_true.mp isWord_blankCodes _ code

end MediaRange.Unicode
