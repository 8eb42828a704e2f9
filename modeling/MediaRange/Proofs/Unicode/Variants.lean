import MediaRange.Pattern.CharSet

/-!
# Case variants of ASCII characters

Of the ASCII characters only letters have case variants, and only two of these are not ASCII: the
long s and the Kelvin sign. `has_folded_of_noLetters` and `has_folded_of_lowercase` say so of sets.
-/

namespace MediaRange.Unicode

def isAsciiLetterCode (n : Nat) : Bool := (0x41 ≤ n && n ≤ 0x5A) || (0x61 ≤ n && n ≤ 0x7A)

/-- The code points that fold to an ASCII letter. -/
def isLetterVariant (n : Nat) : Bool := isAsciiLetterCode n || n = 0x17F || n = 0x212A

/-- Beyond ASCII, folding leads to ASCII in two places only. -/
theorem foldRows_ascii : ∀ row ∈ foldRows, 0x80 ≤ row.first ∧
    (0x80 ≤ (row.first : Int) + row.shift ∨ row.first = 0x17F ∧ row.last = 0x17F ∨
      row.first = 0x212A ∧ row.last = 0x212A) := by decide +kernel

theorem isAlpha_ofNat : ∀ n < 0x80, (Char.ofNat n).isAlpha = isAsciiLetterCode n := by decide

theorem fold_ascii {n : Nat} (h : fold n < 0x80) : n < 0x80 ∨ n = 0x17F ∨ n = 0x212A := by
  by_cases hn : n < 0x80
  · exact .inl hn
  · right
    rw [fold, if_neg hn] at h
    split at h
    · rename_i row hrow
      have covers : row.first ≤ n ∧ n ≤ row.last := by
        have := List.find?_some hrow
        simp only [FoldRow.covers, Bool.and_eq_true, decide_eq_true_eq] at this
        exact this.1
      have := (foldRows_ascii row (List.mem_of_find?_eq_some hrow)).2
      omega
    · omega

theorem source_ge {row : FoldRow} (hrow : row ∈ foldRows) {n m : Nat} (h : row.source? n = some m) :
    0x80 ≤ m := by
  have first := (foldRows_ascii row hrow).1
  simp only [FoldRow.source?, FoldRow.covers, Bool.and_eq_true, decide_eq_true_eq] at h
  split at h
  · rename_i covers
    obtain rfl := Option.some.inj h
    omega
  · cases h

/-- An ASCII character is a variant of itself or, if it is a letter, of letters. -/
theorem variantCodes_ascii {n m : Nat} (h : m ∈ variantCodes n) (hm : m < 0x80) :
    m = n ∨ isAsciiLetterCode m = true ∧ isLetterVariant n = true := by
  unfold variantCodes at h
  split at h
  · exact .inl (by simpa using h)
  · rename_i letter
    have base (hb : fold n < 0x80) : isAsciiLetterCode (fold n) = true ∧ isLetterVariant n = true := by
      rcases fold_ascii hb with hn | rfl | rfl
      · have alpha : isAsciiLetterCode n = true := by
          rw [← isAlpha_ofNat n hn]; simpa [hn] using letter
        refine ⟨?_, by simp [isLetterVariant, alpha]⟩
        simp only [fold, isAsciiLetterCode, hn, if_true, Bool.or_eq_true, Bool.and_eq_true,
          decide_eq_true_eq] at alpha ⊢
        split <;> omega
      · decide
      · decide
    simp only [List.mem_cons, List.mem_append] at h
    rcases h with (rfl | h) | h
    · exact .inr (base hm)
    · split at h
      · rename_i lower
        obtain rfl := List.mem_singleton.mp h
        simp only [Bool.and_eq_true, decide_eq_true_eq] at lower
        refine .inr ⟨?_, (base (by omega)).2⟩
        simp only [isAsciiLetterCode, Bool.or_eq_true, Bool.and_eq_true, decide_eq_true_eq]
        omega
      · cases h
    · obtain ⟨row, hrow, hsource⟩ := List.mem_filterMap.mp h
      have := source_ge hrow hsource
      omega

theorem toNat_ofNat (n : Nat) : (Char.ofNat n).toNat = n ∨ (Char.ofNat n).toNat = 0 := by
  by_cases valid : n.isValidChar
  · left
    rw [Char.ofNat, dif_pos valid]
    rfl
  · right
    rw [Char.ofNat, dif_neg valid]
    rfl

/-- A variant in a set of ASCII characters is the character itself or a letter. -/
theorem has_folded_ascii {list : Ranges} (ascii : ∀ m, list.has m = true → 0 < m ∧ m < 0x80)
    {c : Char} (h : (CharSet.folded (.ranges list)).has c = true) :
    list.has c.toNat = true ∨
      isLetterVariant c.toNat = true ∧ ∃ m, isAsciiLetterCode m = true ∧ list.has m = true := by
  simp only [CharSet.has, Bool.or_eq_true, List.any_eq_true, caseVariants, List.mem_map] at h
  rcases h with h | ⟨d, ⟨m, hm, rfl⟩, hd⟩
  · exact .inl h
  · have small := ascii _ hd
    have same : (Char.ofNat m).toNat = m := (toNat_ofNat m).resolve_right (by omega)
    rw [same] at hd small
    rcases variantCodes_ascii hm small.2 with rfl | ⟨letter, variant⟩
    · exact .inl hd
    · exact .inr ⟨variant, m, letter, hd⟩

theorem has_folded_of_noLetters {list : Ranges}
    (h : ∀ m, list.has m = true → 0 < m ∧ m < 0x80 ∧ isAsciiLetterCode m = false) (c : Char) :
    (CharSet.folded (.ranges list)).has c = list.has c.toNat := by
  rw [Bool.eq_iff_iff]
  constructor
  · intro hc
    refine (has_folded_ascii (fun m hm => ⟨(h m hm).1, (h m hm).2.1⟩) hc).resolve_right ?_
    rintro ⟨-, m, letter, hm⟩
    simp [(h m hm).2.2] at letter
  · intro hc
    simp [CharSet.has, hc]

/-- Every variant of a letter folds to a small letter. -/
theorem exists_lowercase_variant {n : Nat} (h : isLetterVariant n = true) :
    ∃ m ∈ variantCodes n, 0x61 ≤ m ∧ m ≤ 0x7A := by
  simp only [isLetterVariant, Bool.or_eq_true, decide_eq_true_eq] at h
  rcases h with (h | rfl) | rfl
  · have hn : n < 0x80 := by
      simp only [isAsciiLetterCode, Bool.or_eq_true, Bool.and_eq_true, decide_eq_true_eq] at h
      omega
    refine ⟨fold n, by simp [variantCodes, isAlpha_ofNat n hn, h], ?_⟩
    simp only [isAsciiLetterCode, Bool.or_eq_true, Bool.and_eq_true, decide_eq_true_eq] at h
    simp only [fold, hn, if_true, Bool.and_eq_true, decide_eq_true_eq]
    split <;> omega
  · exact ⟨0x73, by decide, by decide⟩
  · exact ⟨0x6B, by decide, by decide⟩

theorem has_folded_of_lowercase {others : Ranges}
    (h : ∀ m, others.has m = true → 0 < m ∧ m < 0x80 ∧ isAsciiLetterCode m = false) (c : Char) :
    (CharSet.folded (.ranges ((0x61, 0x7A) :: others))).has c =
      (isLetterVariant c.toNat || others.has c.toNat) := by
  rw [Bool.eq_iff_iff, Bool.or_eq_true]
  have lower {n : Nat} (hn : 0x61 ≤ n ∧ n ≤ 0x7A) : isLetterVariant n = true := by
    simp [isLetterVariant, isAsciiLetterCode, hn]
  constructor
  · intro hc
    have ascii : ∀ m, Ranges.has ((0x61, 0x7A) :: others) m = true → 0 < m ∧ m < 0x80 := by
      intro m hm
      simp only [Ranges.has_cons, Bool.or_eq_true, Bool.and_eq_true, decide_eq_true_eq] at hm
      rcases hm with hm | hm
      · omega
      · exact ⟨(h m hm).1, (h m hm).2.1⟩
    rcases has_folded_ascii ascii hc with hc | ⟨variant, -⟩
    · simp only [Ranges.has_cons, Bool.or_eq_true, Bool.and_eq_true, decide_eq_true_eq] at hc
      exact hc.imp_left lower
    · exact .inl variant
  · rintro (variant | hc)
    · obtain ⟨m, hm, range⟩ := exists_lowercase_variant variant
      have same : (Char.ofNat m).toNat = m := by
        have valid : m.isValidChar := .inl (by omega)
        rw [Char.ofNat, dif_pos valid]
        rfl
      simp only [CharSet.has, Bool.or_eq_true, List.any_eq_true, caseVariants, List.mem_map]
      refine .inr ⟨_, ⟨m, hm, rfl⟩, ?_⟩
      simp [Ranges.has_cons, same, range]
    · simp [CharSet.has, Ranges.has_cons, hc]

end MediaRange.Unicode
