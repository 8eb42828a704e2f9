import MediaRange.Proofs.Grammar.Spelling

/-!
# The forms of a range

The inside of a range is cut at its comparison signs. `SingleForm.read?` and `DoubleForm.read?` read
the parts between them; a part is a name or a value, with blanks around it.
-/

namespace MediaRange

open Unicode

def isSign (c : Char) : Bool := c = '<' || c = '>'

theorem isSign_symbol (s : Comparison) : isSign s.symbol = true := by cases s <;> rfl

theorem isSign_iff {c : Char} : isSign c = true ↔ ∃ s : Comparison, c = s.symbol := by
  constructor
  · intro h
    simp only [isSign, Bool.or_eq_true, decide_eq_true_eq] at h
    rcases h with rfl | rfl
    · exact ⟨.less, rfl⟩
    · exact ⟨.greater, rfl⟩
  · rintro ⟨s, rfl⟩
    exact isSign_symbol s

theorem ofText?_of_not_isSign {c : Char} (h : isSign c = false) : Comparison.ofText? [c] = none := by
  simp only [isSign, Bool.or_eq_false_iff, decide_eq_false_iff_not] at h
  simp [Comparison.ofText?, h.1, h.2]

theorem isSign_of_isSpellingChar {c : Char} (h : isSpellingChar c = true) : isSign c = false := by
  cases hc : isSign c with
  | false => rfl
  | true =>
    obtain ⟨s, rfl⟩ := isSign_iff.mp hc
    cases s <;> revert h <;> decide

def signText (comparison : Comparison) (inclusive : Bool) : List Char :=
  comparison.symbol :: if inclusive then ['='] else []

/-- A text cut at a comparison sign. -/
structure SignCut where
  before : List Char
  comparison : Comparison
  inclusive : Bool
  after : List Char

namespace SignCut

def text (cut : SignCut) : List Char :=
  cut.before ++ (signText cut.comparison cut.inclusive ++ cut.after)

/-- The cut is at the first comparison sign, and its equality sign is not left behind. -/
structure IsFirst (cut : SignCut) : Prop where
  before : ∀ c ∈ cut.before, isSign c = false
  after : cut.inclusive = false → cut.after.head? ≠ some '='

/-- The cut at the first comparison sign of a text. -/
def of? : List Char → Option SignCut
  | [] => none
  | c :: rest =>
    match Comparison.ofText? [c], rest with
    | some comparison, '=' :: after => some ⟨[], comparison, true, after⟩
    | some comparison, after => some ⟨[], comparison, false, after⟩
    | none, _ => (of? rest).map fun cut => { cut with before := c :: cut.before }

theorem of?_symbol (s : Comparison) (inclusive : Bool) (after : List Char)
    (h : inclusive = false → after.head? ≠ some '=') :
    of? (signText s inclusive ++ after) = some ⟨[], s, inclusive, after⟩ := by
  cases inclusive with
  | true => simp [of?, signText, Comparison.ofText?_symbol]
  | false =>
    simp only [signText, of?, List.cons_append, Comparison.ofText?_symbol]
    split
    · rename_i heq
      simp only [Bool.false_eq_true, if_false, List.nil_append] at heq
      simp [heq] at h
    · simp_all
    · simp_all

theorem of?_cons {c : Char} (h : isSign c = false) (rest : List Char) :
    of? (c :: rest) = (of? rest).map fun cut => { cut with before := c :: cut.before } := by
  simp [of?, ofText?_of_not_isSign h]

theorem of?_text {cut : SignCut} (h : cut.IsFirst) : of? cut.text = some cut := by
  obtain ⟨before, s, inclusive, after⟩ := cut
  obtain ⟨hbefore, hafter⟩ := h
  dsimp only at hbefore hafter
  induction before with
  | nil => exact of?_symbol s inclusive after hafter
  | cons c before ih =>
    obtain ⟨hc, hbefore⟩ := List.forall_mem_cons.mp hbefore
    have h := ih hbefore
    simp only [text] at h
    simp [text, of?_cons hc, h]

theorem of?_eq_some_iff {text : List Char} {cut : SignCut} :
    of? text = some cut ↔ text = cut.text ∧ cut.IsFirst := by
  constructor
  · intro h
    induction text generalizing cut with
    | nil => cases h
    | cons c rest ih =>
      cases hc : isSign c with
      | false =>
        rw [of?_cons hc, Option.map_eq_some_iff] at h
        obtain ⟨cut, h, rfl⟩ := h
        obtain ⟨rfl, hfirst⟩ := ih h
        exact ⟨rfl, ⟨List.forall_mem_cons.mpr ⟨hc, hfirst.before⟩, hfirst.after⟩⟩
      | true =>
        obtain ⟨s, rfl⟩ := isSign_iff.mp hc
        by_cases heq : rest.head? = some '='
        · obtain ⟨after, rfl⟩ := List.head?_eq_some_iff.mp heq
          have cut_eq := of?_symbol s true after (by simp)
          obtain rfl := Option.some.inj (h.symm.trans cut_eq)
          exact ⟨rfl, ⟨by simp, by simp⟩⟩
        · have cut_eq := of?_symbol s false rest (fun _ => heq)
          obtain rfl := Option.some.inj (h.symm.trans cut_eq)
          exact ⟨rfl, ⟨by simp, fun _ => heq⟩⟩
  · rintro ⟨rfl, h⟩
    exact of?_text h

/-- A text without comparison signs has no cut. -/
theorem of?_eq_none {text : List Char} (h : ∀ c ∈ text, isSign c = false) : of? text = none := by
  cases hcut : of? text with
  | none => rfl
  | some cut =>
    obtain ⟨rfl, -⟩ := of?_eq_some_iff.mp hcut
    have := h cut.comparison.symbol (by simp [SignCut.text, signText])
    simp [isSign_symbol] at this

end SignCut

/-! ### Forms -/

/-- A name before a comparison sign and a value after it. -/
structure SignCut.IsSingle (cut : SignCut) : Prop where
  name : IsName (trim cut.before)
  value : IsValue (trim cut.after)

theorem isSign_of_trim {text : List Char} (h : ∀ c ∈ trim text, isSpellingChar c = true) :
    ∀ c ∈ text, isSign c = false := fun c hc =>
  isSign_of_isSpellingChar (isSpellingChar_of_trim h c hc)

theorem head_ne_eq_of_trim {text : List Char} (h : ∀ c ∈ trim text, isSpellingChar c = true) :
    text.head? ≠ some '=' := fun heq =>
  absurd (isSpellingChar_of_trim h '=' (List.mem_of_mem_head? heq)) (by decide)

theorem SignCut.IsSingle.isFirst {cut : SignCut} (h : cut.IsSingle) : cut.IsFirst :=
  ⟨isSign_of_trim h.name.isSpellingChar, fun _ => head_ne_eq_of_trim h.value.isSpellingChar⟩

theorem SignCut.IsSingle.head_ne_eq {cut : SignCut} (h : cut.IsSingle) :
    cut.text.head? ≠ some '=' := by
  intro heq
  obtain ⟨_ | ⟨c, before⟩, s, inclusive, after⟩ := cut
  · exact absurd rfl h.name.2
  · exact head_ne_eq_of_trim h.name.isSpellingChar (by simpa [SignCut.text] using heq)

/-- A value before two comparison signs, a name between them and a value after them. -/
structure SignCut.IsDouble (first second : SignCut) : Prop where
  after : first.after = second.text
  left : IsValue (trim first.before)
  isSingle : second.IsSingle

theorem SignCut.IsDouble.isFirst {first second : SignCut} (h : first.IsDouble second) :
    first.IsFirst :=
  ⟨isSign_of_trim h.left.isSpellingChar, fun _ => h.after ▸ h.isSingle.head_ne_eq⟩

structure SingleForm where
  name : List Char
  comparison : Comparison
  inclusive : Bool
  value : List Char

namespace SingleForm

def ofCut (cut : SignCut) : SingleForm :=
  ⟨trim cut.before, cut.comparison, cut.inclusive, trim cut.after⟩

/-- The form that the inside of a range has. -/
def read? (inside : List Char) : Option SingleForm :=
  ((SignCut.of? inside).map ofCut).filter fun f => IsName f.name ∧ IsValue f.value

theorem read?_eq_some_iff {inside : List Char} {f : SingleForm} :
    read? inside = some f ↔ ∃ cut : SignCut, inside = cut.text ∧ cut.IsSingle ∧ f = ofCut cut := by
  simp only [read?, Option.filter_eq_some_iff, Option.map_eq_some_iff, SignCut.of?_eq_some_iff,
    decide_eq_true_eq]
  constructor
  · rintro ⟨⟨cut, ⟨rfl, -⟩, rfl⟩, hname, hvalue⟩
    exact ⟨cut, rfl, ⟨hname, hvalue⟩, rfl⟩
  · rintro ⟨cut, rfl, h, rfl⟩
    exact ⟨⟨cut, ⟨rfl, h.isFirst⟩, rfl⟩, h.name, h.value⟩

end SingleForm

structure DoubleForm where
  left : List Char
  leftComparison : Comparison
  leftInclusive : Bool
  name : List Char
  rightComparison : Comparison
  rightInclusive : Bool
  right : List Char

namespace DoubleForm

def ofCuts (first second : SignCut) : DoubleForm :=
  ⟨trim first.before, first.comparison, first.inclusive, trim second.before, second.comparison,
    second.inclusive, trim second.after⟩

/-- The form that the inside of a range has. -/
def read? (inside : List Char) : Option DoubleForm :=
  ((SignCut.of? inside).bind fun first => (SignCut.of? first.after).map (ofCuts first)).filter
    fun f => IsValue f.left ∧ IsName f.name ∧ IsValue f.right

theorem read?_eq_some_iff {inside : List Char} {f : DoubleForm} :
    read? inside = some f ↔ ∃ first second : SignCut, inside = first.text ∧
      first.IsDouble second ∧ f = ofCuts first second := by
  simp only [read?, Option.filter_eq_some_iff, Option.bind_eq_some_iff, Option.map_eq_some_iff,
    SignCut.of?_eq_some_iff, decide_eq_true_eq]
  constructor
  · rintro ⟨⟨first, ⟨rfl, -⟩, second, ⟨hafter, -⟩, rfl⟩, hleft, hname, hright⟩
    exact ⟨first, second, rfl, ⟨hafter, hleft, hname, hright⟩, rfl⟩
  · rintro ⟨first, second, rfl, h, rfl⟩
    exact ⟨⟨first, ⟨rfl, h.isFirst⟩, second, ⟨h.after, h.isSingle.isFirst⟩, rfl⟩, h.left,
      h.isSingle.name, h.isSingle.value⟩

end DoubleForm

end MediaRange
