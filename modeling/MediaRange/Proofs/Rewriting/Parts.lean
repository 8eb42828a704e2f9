import MediaRange.Proofs.Grammar.Spelling
import MediaRange.Proofs.Number.Written
import MediaRange.Query

/-!
# Values cut at their numbers

`ValueParts.of?` cuts a value at its first maximal run of digits, dashes and points
(`ValueParts.of?_eq_some_iff`). In a value of the grammar the run has no digit, or a numeral is
spelt out in it that `Numeral.read?` reads (`exists_isSplit`).
-/

namespace MediaRange

namespace ValueParts

/-- The parts of a value at its first maximal run of digits, dashes and points. -/
structure IsSplit (p : ValueParts) (value : List Char) : Prop where
  text : value = p.lead ++ (p.run ++ p.tail)
  lead : ∀ c ∈ p.lead, isNumeric c = false
  run : ∀ c ∈ p.run, isNumeric c = true
  run_ne : p.run ≠ []
  tail : ∀ c ∈ p.tail.head?, isNumeric c = false

theorem IsSplit.of?_eq {p : ValueParts} {value : List Char} (h : p.IsSplit value) :
    of? value = some p := by
  obtain ⟨lead, run, tail⟩ := p
  obtain ⟨rfl, hlead, hrun, run_ne, htail⟩ := h
  dsimp only at *
  obtain ⟨c, run, rfl⟩ := List.exists_cons_of_ne_nil run_ne
  have notNumeric : ∀ c ∈ lead, (!isNumeric c) = true := fun c hc => by rw [hlead c hc]; rfl
  obtain ⟨taken, dropped⟩ := takeWhile_append_of_head? (v := c :: run ++ tail) notNumeric
    fun d hd => by
      obtain rfl := Option.some.inj hd
      rw [hrun c List.mem_cons_self]
      rfl
  obtain ⟨taken', dropped'⟩ := takeWhile_append_of_head? hrun htail
  rw [of?, dropped, taken, taken', dropped']
  rfl

theorem of?_eq_some_iff {value : List Char} {p : ValueParts} :
    of? value = some p ↔ p.IsSplit value := by
  refine ⟨fun h => ?_, IsSplit.of?_eq⟩
  unfold of? at h
  dsimp only at h
  split at h
  · cases h
  · rename_i some
    obtain rfl := Option.some.inj h
    refine ⟨?_, fun c hc => ?_, fun c hc => List.mem_takeWhile_imp hc, ?_, fun c hc => ?_⟩
    · simp only [List.takeWhile_append_dropWhile]
    · simpa using List.mem_takeWhile_imp hc
    · obtain ⟨c, rest, cut⟩ := List.exists_cons_of_ne_nil (List.isEmpty_eq_false_iff.mp
        (Bool.eq_false_iff.mpr some))
      have first := List.head?_dropWhile_not (!isNumeric ·) value
      rw [cut] at first ⊢
      have numeric : isNumeric c = true := by simpa using first
      rw [List.takeWhile_cons_of_pos numeric]
      simp
    · have first := List.head?_dropWhile_not isNumeric (value.dropWhile (!isNumeric ·))
      rw [hc] at first
      simpa using first

end ValueParts

/-! ### Numerals in a run -/

namespace Numeral

/-- The numeral is written in the text, perhaps with a point and no digits after it. -/
structure IsSpelt (n : Numeral) (text : List Char) : Prop where
  digits : ∀ c ∈ n.whole ++ n.fraction, c.isDigit = true
  digits_ne : n.whole ++ n.fraction ≠ []
  text : ∃ point, (point = ['.'] ∨ point = [] ∧ n.fraction = []) ∧
    text = (if n.negative then ['-'] else []) ++ (n.whole ++ (point ++ n.fraction))

theorem isSpelt_text {n : Numeral} (h : n.IsPlain) : n.IsSpelt n.text := by
  refine ⟨h.digits, fun none => h.whole_ne (List.append_eq_nil_iff.mp none).1, ?_⟩
  rw [text, List.append_assoc]
  by_cases none : n.fraction = []
  · exact ⟨[], .inr ⟨rfl, none⟩, by rw [if_pos none, none]; rfl⟩
  · exact ⟨['.'], .inl rfl, by rw [if_neg none]; rfl⟩

theorem isNumeric_of_isSpelt {n : Numeral} {text : List Char} (h : n.IsSpelt text) :
    ∀ c ∈ text, ValueParts.isNumeric c = true := by
  obtain ⟨digits, -, point, hpoint, rfl⟩ := h
  have digit {c : Char} (hc : c ∈ n.whole ++ n.fraction) : ValueParts.isNumeric c = true := by
    simp [ValueParts.isNumeric, digits c hc]
  have sign : ∀ c ∈ if n.negative then ['-'] else [], ValueParts.isNumeric c = true := by
    split_ifs
    · exact List.forall_mem_singleton.mpr (by decide)
    · simp
  have point : ∀ c ∈ point, ValueParts.isNumeric c = true := by
    rcases hpoint with rfl | ⟨rfl, -⟩
    · exact List.forall_mem_singleton.mpr (by decide)
    · simp
  simp only [List.forall_mem_append]
  exact ⟨sign, fun c hc => digit (List.mem_append_left _ hc), point,
    fun c hc => digit (List.mem_append_right _ hc)⟩

/-- The sign of a text, and the rest of it. -/
theorem read?_eq {negative : Bool} {unsigned : List Char}
    (h : negative = false → unsigned.head? ≠ some '-') :
    read? ((if negative then ['-'] else []) ++ unsigned) =
      let whole := unsigned.takeWhile Char.isDigit
      let fraction := match unsigned.dropWhile Char.isDigit with
        | '.' :: rest => rest.takeWhile Char.isDigit
        | _ => []
      if whole.isEmpty && fraction.isEmpty then none else some ⟨negative, whole, fraction⟩ := by
  cases negative with
  | true => rfl
  | false =>
    cases unsigned with
    | nil => rfl
    | cons c rest =>
      have positive : c ≠ '-' := fun dash => h rfl (congrArg some dash)
      simp only [Bool.false_eq_true, if_false, List.nil_append, read?]
      split
      · rename_i dash
        exact absurd (List.cons.inj dash).1 positive
      · rfl

theorem read?_of_isSpelt {n : Numeral} {text : List Char} (h : n.IsSpelt text) :
    read? text = some n := by
  obtain ⟨negative, whole, fraction⟩ := n
  obtain ⟨digits, digits_ne, point, hpoint, rfl⟩ := h
  obtain ⟨hwhole, hfraction⟩ := List.forall_mem_append.mp digits
  dsimp only at *
  have stop : ∀ c ∈ (point ++ fraction).head?, c.isDigit = false := by
    rcases hpoint with rfl | ⟨rfl, rfl⟩
    · intro c hc
      obtain rfl := Option.some.inj hc
      rfl
    · simp
  have unsigned : (whole ++ (point ++ fraction)).head? ≠ some '-' := by
    intro dash
    have member := List.mem_of_head? dash
    simp only [List.mem_append] at member
    rcases member with digit | point | digit
    · exact absurd (hwhole _ digit) (by decide)
    · rcases hpoint with rfl | ⟨rfl, -⟩
      · exact absurd (List.mem_singleton.mp point) (by decide)
      · cases point
    · exact absurd (hfraction _ digit) (by decide)
  obtain ⟨taken, dropped⟩ := takeWhile_append_of_head? hwhole stop
  have places : (match point ++ fraction with
      | '.' :: rest => rest.takeWhile Char.isDigit
      | _ => []) = fraction := by
    rcases hpoint with rfl | ⟨rfl, rfl⟩
    · exact List.takeWhile_eq_self_iff.mpr hfraction
    · rfl
  rw [read?_eq fun _ => unsigned, taken, dropped]
  dsimp only
  rw [places, if_neg]
  simpa using digits_ne

theorem read?_eq_none {text : List Char} (h : ∀ c ∈ text, c.isDigit = false) : read? text = none := by
  have empty {rest : List Char} (hrest : ∀ c ∈ rest, c.isDigit = false) :
      rest.takeWhile Char.isDigit = [] ∧ rest.dropWhile Char.isDigit = rest :=
    takeWhile_append_of_head? (u := []) (by simp) fun c hc => hrest c (List.mem_of_head? hc)
  have unsigned (negative : Bool) {rest : List Char} (hrest : ∀ c ∈ rest, c.isDigit = false)
      (hsign : negative = false → rest.head? ≠ some '-') :
      read? ((if negative then ['-'] else []) ++ rest) = none := by
    obtain ⟨taken, dropped⟩ := empty hrest
    have places : (match rest with
        | '.' :: rest => rest.takeWhile Char.isDigit
        | _ => []) = [] := by
      split
      · exact (empty fun c hc => hrest c (List.mem_cons_of_mem _ hc)).1
      · rfl
    rw [read?_eq hsign, taken, dropped]
    dsimp only
    rw [places]
    rfl
  by_cases dash : text.head? = some '-'
  · obtain ⟨rest, rfl⟩ := List.head?_eq_some_iff.mp dash
    exact unsigned true (fun c hc => h c (List.mem_cons_of_mem _ hc)) (by simp)
  · exact unsigned false h fun _ => dash

end Numeral

/-! ### Values of the grammar -/

section

variable {value : List Char}

theorem isNumeric_of_isUnitLetter {c : Char} (h : isUnitLetter c = true) :
    ValueParts.isNumeric c = false := by
  rw [isUnitLetter_iff] at h
  have dash : c ≠ '-' := by rintro rfl; revert h; decide
  have point : c ≠ '.' := by rintro rfl; revert h; decide
  rw [ValueParts.isNumeric, isDigit_eq]
  simp only [dash, point, decide_false, Bool.or_false, Bool.and_eq_false_iff,
    decide_eq_false_iff_not]
  omega

theorem isNumeric_of_isGap {gap : List Char} (h : IsGap gap) :
    ∀ c ∈ gap, ValueParts.isNumeric c = false := by
  have blank {c : Char} (hc : Unicode.isBlank c = true) : ValueParts.isNumeric c = false := by
    have digit : c.isDigit = false := Bool.eq_false_iff.mpr fun digit => by
      rw [isBlank_of_isDigit digit] at hc
      cases hc
    have dash : c ≠ '-' := by rintro rfl; revert hc; decide
    have point : c ≠ '.' := by rintro rfl; revert hc; decide
    simp [ValueParts.isNumeric, digit, dash, point]
  obtain ⟨hbefore, hslash, hafter⟩ := h
  simp only [List.forall_mem_append]
  refine ⟨fun c hc => blank (hbefore c hc), ?_, fun c hc => blank (hafter c hc)⟩
  rcases hslash with rfl | rfl
  · exact List.forall_mem_singleton.mpr (by decide)
  · simp

/-- A numeral that is followed by something else is the run of a value. -/
theorem Numeral.IsSpelt.isSplit {n : Numeral} {lead run tail : List Char} (h : n.IsSpelt run)
    (hlead : ∀ c ∈ lead, ValueParts.isNumeric c = false)
    (htail : ∀ c ∈ tail.head?, ValueParts.isNumeric c = false) :
    (⟨lead, run, tail⟩ : ValueParts).IsSplit (lead ++ (run ++ tail)) := by
  refine ⟨rfl, hlead, isNumeric_of_isSpelt h, ?_, htail⟩
  rintro rfl
  have none := read?_of_isSpelt h
  rw [read?_eq_none (by simp)] at none
  cases none

/-- A value of the grammar has a run. It holds no digit, or a numeral is spelt in it. -/
theorem exists_isSplit (h : IsNumber value) :
    ∃ p : ValueParts, p.IsSplit value ∧
      ((∀ c ∈ p.run, c.isDigit = false) ∨ ∃ n : Numeral, n.IsSpelt p.run) := by
  obtain ⟨hsign, hwhole, hpoint, hgap, hdigits, hne, hunit⟩ := h
  rename_i sign whole point gap digits unit
  have letters : ∀ c ∈ unit.head?, ValueParts.isNumeric c = false := fun c hc =>
    isNumeric_of_isUnitLetter (hunit c (List.mem_of_head? hc))
  have blanks : ∀ c ∈ gap, ValueParts.isNumeric c = false := isNumeric_of_isGap hgap
  obtain ⟨negative, rfl⟩ : ∃ negative : Bool, sign = if negative then ['-'] else [] := by
    rcases hsign with rfl | rfl
    · exact ⟨true, rfl⟩
    · exact ⟨false, rfl⟩
  generalize hsign' : (if negative then ['-'] else []) = sign at *
  by_cases together : gap = []
  · -- All digits are in one run.
    subst together
    have spelt : ∃ n : Numeral, n.IsSpelt (sign ++ (whole ++ (point ++ digits))) := by
      have all := List.forall_mem_append.mpr ⟨hwhole, hdigits⟩
      rcases hpoint with rfl | rfl
      · exact ⟨⟨negative, whole, digits⟩, all, by simp [hne], ['.'], .inl rfl, by rw [hsign']⟩
      · refine ⟨⟨negative, whole ++ digits, []⟩, ?_, by simp [hne], [], .inr ⟨rfl, rfl⟩, ?_⟩
        · rwa [List.append_nil]
        · rw [hsign', List.append_nil, List.append_nil]
          rfl
    obtain ⟨n, hn⟩ := spelt
    refine ⟨⟨[], sign ++ (whole ++ (point ++ digits)), unit⟩, ?_, .inr ⟨n, hn⟩⟩
    have split := hn.isSplit (List.forall_mem_nil _) letters
    simpa only [List.nil_append, List.append_assoc] using split
  · have first : ∀ c ∈ (gap ++ (digits ++ unit)).head?, ValueParts.isNumeric c = false := by
      rw [List.head?_append_of_ne_nil _ together]
      exact fun c hc => blanks c (List.mem_of_head? hc)
    by_cases noWhole : whole = []
    · subst noWhole
      by_cases nothing : sign ++ point = []
      · -- The gap stands before the only digits.
        obtain ⟨rfl, rfl⟩ := List.append_eq_nil_iff.mp nothing
        have spelt : Numeral.IsSpelt ⟨false, digits, []⟩ digits :=
          ⟨by simpa using hdigits, by simpa using hne, [], .inr ⟨rfl, rfl⟩, by simp⟩
        exact ⟨⟨gap, digits, unit⟩, spelt.isSplit blanks letters, .inr ⟨_, spelt⟩⟩
      · -- A sign or a point alone is no number.
        have signs : ∀ c ∈ sign ++ point, c = '-' ∨ c = '.' := by
          refine List.forall_mem_append.mpr ⟨?_, ?_⟩
          · rw [← hsign']
            split_ifs <;> simp
          · rcases hpoint with rfl | rfl <;> simp
        refine ⟨⟨[], sign ++ point, gap ++ (digits ++ unit)⟩, ⟨?_, by simp, ?_, nothing, first⟩, .inl ?_⟩
        · simp
        · exact fun c hc => by rcases signs c hc with rfl | rfl <;> decide
        · exact fun c hc => by rcases signs c hc with rfl | rfl <;> decide
    · -- The gap ends the run.
      have spelt : Numeral.IsSpelt ⟨negative, whole, []⟩ (sign ++ (whole ++ point)) :=
        ⟨by simpa using hwhole, by simpa using noWhole, point, hpoint.imp_right (⟨·, rfl⟩),
          by rw [hsign', List.append_nil]⟩
      have split := spelt.isSplit (List.forall_mem_nil _) first
      refine ⟨⟨[], sign ++ (whole ++ point), gap ++ (digits ++ unit)⟩, ?_, .inr ⟨_, spelt⟩⟩
      simpa only [List.nil_append, List.append_assoc] using split

end

end MediaRange
