import MediaRange.Proofs.Grammar.Forms
import MediaRange.Query

/-!
# What a range says

`Spells` relates the inside of a range to the comparisons that it stands for. `reading?` reads them,
and `reading?_eq_some_iff` shows that it finds exactly what is spelt.
-/

namespace MediaRange

open Unicode

/-! ### Readings -/

/-- A feature between two values, compared with both in the same direction. -/
structure DoubleRange where
  feature : Feature
  comparison : Comparison
  leftInclusive : Bool
  left : List Char
  rightInclusive : Bool
  right : List Char

namespace DoubleRange

/-- The lower bound: the value on the left of `<` or on the right of `>`. -/
def lower (d : DoubleRange) : RangeExpression :=
  match d.comparison with
  | .less => ⟨d.feature, .greater, d.leftInclusive, d.left⟩
  | .greater => ⟨d.feature, .greater, d.rightInclusive, d.right⟩

/-- The upper bound: the value on the right of `<` or on the left of `>`. -/
def upper (d : DoubleRange) : RangeExpression :=
  match d.comparison with
  | .less => ⟨d.feature, .less, d.rightInclusive, d.right⟩
  | .greater => ⟨d.feature, .less, d.leftInclusive, d.left⟩

def query (settings : Settings) (d : DoubleRange) : List Char :=
  d.lower.query settings ++ " and ".toList ++ d.upper.query settings

end DoubleRange

inductive Reading where
  | single (e : RangeExpression)
  | double (d : DoubleRange)

def Reading.query (settings : Settings) : Reading → List Char
  | single e => e.query settings
  | double d => d.query settings

/-! ### Spellings -/

/-- A token with blanks around it. -/
def IsPadded (text token : List Char) : Prop :=
  ∃ blanks others, IsBlankText blanks ∧ IsBlankText others ∧ text = blanks ++ (token ++ others)

/-- A number that does not start with a blank. -/
structure IsValueToken (text : List Char) : Prop where
  number : IsNumber text
  first : ∀ c ∈ text.head?, isBlank c = false

/-- The inside of a range spells a reading: a name, a comparison sign and a value, or a value, a
sign, a name, the same sign and a value. A sign is followed at once by its equality sign. -/
inductive Spells : List Char → Reading → Prop where
  | single {name value : List Char} {e : RangeExpression}
    (hname : IsPadded name e.feature.name.toList)
    (hvalue : IsPadded value e.value) (token : IsValueToken e.value) :
    Spells (name ++ (signText e.comparison e.inclusive ++ value)) (.single e)
  | double {left name right : List Char} {d : DoubleRange}
    (hleft : IsPadded left d.left) (leftToken : IsValueToken d.left)
    (hname : IsPadded name d.feature.name.toList)
    (hright : IsPadded right d.right) (rightToken : IsValueToken d.right) :
    Spells (left ++ (signText d.comparison d.leftInclusive ++
      (name ++ (signText d.comparison d.rightInclusive ++ right)))) (.double d)

theorem isName_name (f : Feature) : IsName f.name.toList := by
  cases f <;> decide

theorem IsPadded.isSpellingChar {text token : List Char} (h : IsPadded text token)
    (htoken : ∀ c ∈ token, isSpellingChar c = true) : ∀ c ∈ text, isSpellingChar c = true := by
  obtain ⟨blanks, others, hblanks, hothers, rfl⟩ := h
  have blank {c : Char} (hc : isBlank c = true) : MediaRange.isSpellingChar c = true := by
    simp [MediaRange.isSpellingChar, hc]
  intro c hc
  rcases List.mem_append.mp hc with hc | hc
  · exact blank (hblanks c hc)
  · rcases List.mem_append.mp hc with hc | hc
    · exact htoken c hc
    · exact blank (hothers c hc)

/-- A character of a name, of a value or of a comparison. -/
def isRangeChar (c : Char) : Bool := isSpellingChar c || isSign c || c = '='

theorem ne_of_isRangeChar {c d : Char} (hc : isRangeChar c = true) (hd : isRangeChar d = false) :
    c ≠ d := by
  rintro rfl
  rw [hc] at hd
  cases hd

theorem isRangeChar_signText (s : Comparison) (inclusive : Bool) :
    ∀ c ∈ signText s inclusive, isRangeChar c = true :=
  List.all_eq_true.mp (by cases s <;> cases inclusive <;> decide)

theorem Spells.isRangeChar {inside : List Char} {r : Reading} (h : Spells inside r) :
    ∀ c ∈ inside, isRangeChar c = true := by
  have padded {text token : List Char} (h : IsPadded text token)
      (htoken : ∀ c ∈ token, isSpellingChar c = true) :
      ∀ c ∈ text, MediaRange.isRangeChar c = true := by
    intro c hc
    simp [MediaRange.isRangeChar, h.isSpellingChar htoken c hc]
  cases h with
  | @single _ _ e hname hvalue token =>
    have name := padded hname (isName_name e.feature).isSpellingChar
    have value := padded hvalue token.number.isSpellingChar
    exact List.forall_mem_append.mpr
      ⟨name, List.forall_mem_append.mpr ⟨isRangeChar_signText _ _, value⟩⟩
  | @double _ _ _ d hleft leftToken hname hright rightToken =>
    have left := padded hleft leftToken.number.isSpellingChar
    have name := padded hname (isName_name d.feature).isSpellingChar
    have right := padded hright rightToken.number.isSpellingChar
    exact List.forall_mem_append.mpr
      ⟨left, List.forall_mem_append.mpr ⟨isRangeChar_signText _ _, List.forall_mem_append.mpr
        ⟨name, List.forall_mem_append.mpr ⟨isRangeChar_signText _ _, right⟩⟩⟩⟩

theorem IsName.isTrimmed {text : List Char} (h : IsName text) : IsTrimmed text :=
  isTrimmed_of_forall h.isBlank

theorem IsValueToken.isTrimmed {text : List Char} (h : IsValueToken text) : IsTrimmed text :=
  ⟨h.first, h.number.last⟩

theorem isPadded_iff {text token : List Char} (h : IsTrimmed token) :
    IsPadded text token ↔ trim text = token := by
  rw [trim_eq_iff]
  exact ⟨fun padded => ⟨h, padded⟩, And.right⟩

theorem isPadded_name {text : List Char} {f : Feature} :
    IsPadded text f.name.toList ↔ trim text = f.name.toList :=
  isPadded_iff (isName_name f).isTrimmed

theorem isValueToken_trim_iff {text : List Char} :
    IsValueToken (trim text) ↔ IsValue (trim text) ∧ (trim text).isEmpty = false := by
  constructor
  · intro h
    exact ⟨.inl h.number, by simpa using h.number.ne_nil⟩
  · rintro ⟨h, hne⟩
    exact ⟨h.resolve_right (by simpa using hne), (isTrimmed_trim text).first⟩

theorem named?_eq_some_iff {name : List Char} {f : Feature} :
    Feature.named? name = some f ↔ name = f.name.toList := by
  constructor
  · intro h
    simpa [eq_comm] using List.find?_some h
  · rintro rfl
    exact Feature.named?_name f

/-! ### Reading -/

/-- The expression of a form with a known feature and a value. -/
def SingleForm.range? (f : SingleForm) : Option RangeExpression :=
  (Feature.named? f.name).bind fun feature =>
    if f.value.isEmpty then none else some ⟨feature, f.comparison, f.inclusive, f.value⟩

theorem SingleForm.range?_eq_some_iff {f : SingleForm} {e : RangeExpression} :
    f.range? = some e ↔
      f = ⟨e.feature.name.toList, e.comparison, e.inclusive, e.value⟩ ∧ e.value ≠ [] := by
  obtain ⟨name, comparison, inclusive, value⟩ := f
  simp only [range?, Option.bind_eq_some_iff, named?_eq_some_iff]
  constructor
  · rintro ⟨feature, rfl, h⟩
    split at h
    · cases h
    · rename_i hne
      obtain rfl := Option.some.inj h
      exact ⟨rfl, by simpa using hne⟩
  · rintro ⟨h, hne⟩
    cases h
    exact ⟨e.feature, rfl, if_neg (by simpa using hne)⟩

/-- The range of a form with a known feature, two values and one direction. -/
def DoubleForm.range? (f : DoubleForm) : Option DoubleRange :=
  (Feature.named? f.name).bind fun feature =>
    if f.leftComparison ≠ f.rightComparison then none
    else if f.left.isEmpty || f.right.isEmpty then none
    else some ⟨feature, f.leftComparison, f.leftInclusive, f.left, f.rightInclusive, f.right⟩

theorem DoubleForm.range?_eq_some_iff {f : DoubleForm} {d : DoubleRange} :
    f.range? = some d ↔
      f = ⟨d.left, d.comparison, d.leftInclusive, d.feature.name.toList, d.comparison,
        d.rightInclusive, d.right⟩ ∧ d.left ≠ [] ∧ d.right ≠ [] := by
  obtain ⟨left, comparison, leftInclusive, name, rightComparison, rightInclusive, right⟩ := f
  simp only [range?, Option.bind_eq_some_iff, named?_eq_some_iff]
  constructor
  · rintro ⟨feature, rfl, h⟩
    split at h
    · cases h
    · rename_i hsame
      obtain rfl : comparison = rightComparison := Decidable.not_not.mp hsame
      split at h
      · cases h
      · rename_i hne
        obtain rfl := Option.some.inj h
        exact ⟨rfl, by simpa using hne⟩
  · rintro ⟨h, hne⟩
    cases h
    exact ⟨d.feature, rfl, by rw [if_neg (by simp), if_neg (by simpa using hne)]⟩

def singleRange? (inside : List Char) : Option RangeExpression :=
  (SingleForm.read? inside).bind SingleForm.range?

def doubleRange? (inside : List Char) : Option DoubleRange :=
  (DoubleForm.read? inside).bind DoubleForm.range?

/-- What the inside of a range says, if it spells anything. -/
def reading? (inside : List Char) : Option Reading :=
  ((doubleRange? inside).map .double).or ((singleRange? inside).map .single)

theorem singleRange?_eq_some_iff {inside : List Char} {e : RangeExpression} :
    singleRange? inside = some e ↔ Spells inside (.single e) := by
  simp only [singleRange?, Option.bind_eq_some_iff, SingleForm.read?_eq_some_iff,
    SingleForm.range?_eq_some_iff]
  constructor
  · rintro ⟨_, ⟨⟨name, s, inclusive, value⟩, rfl, hcut, rfl⟩, hform, hne⟩
    obtain ⟨hname, rfl, rfl, hvalue⟩ := SingleForm.mk.inj hform
    have token : IsValueToken e.value :=
      hvalue ▸ isValueToken_trim_iff.mpr ⟨hcut.value, by simpa [← hvalue] using hne⟩
    exact .single (isPadded_name.mpr hname) ((isPadded_iff token.isTrimmed).mpr hvalue) token
  · intro h
    cases h with
    | @single name value _ hname hvalue token =>
      have hname := isPadded_name.mp hname
      have hvalue := (isPadded_iff token.isTrimmed).mp hvalue
      refine ⟨_, ⟨⟨name, e.comparison, e.inclusive, value⟩, rfl, ⟨hname ▸ isName_name _,
        .inl (hvalue ▸ token.number)⟩, rfl⟩, ?_, token.number.ne_nil⟩
      simp only [SingleForm.ofCut, hname, hvalue]

theorem doubleRange?_eq_some_iff {inside : List Char} {d : DoubleRange} :
    doubleRange? inside = some d ↔ Spells inside (.double d) := by
  simp only [doubleRange?, Option.bind_eq_some_iff, DoubleForm.read?_eq_some_iff,
    DoubleForm.range?_eq_some_iff]
  constructor
  · rintro ⟨_, ⟨⟨left, s, leftInclusive, _⟩, ⟨name, t, rightInclusive, right⟩, rfl, ⟨rfl, hleft, hcut⟩,
      rfl⟩, hform, leftNe, rightNe⟩
    obtain ⟨hleft', rfl, rfl, hname, rfl, rfl, hright⟩ := DoubleForm.mk.inj hform
    have leftToken : IsValueToken d.left :=
      hleft' ▸ isValueToken_trim_iff.mpr ⟨hleft, by simpa [← hleft'] using leftNe⟩
    have rightToken : IsValueToken d.right :=
      hright ▸ isValueToken_trim_iff.mpr ⟨hcut.value, by simpa [← hright] using rightNe⟩
    exact .double ((isPadded_iff leftToken.isTrimmed).mpr hleft') leftToken
      (isPadded_name.mpr hname) ((isPadded_iff rightToken.isTrimmed).mpr hright) rightToken
  · intro h
    cases h with
    | @double left name right _ hleft leftToken hname hright rightToken =>
      have hleft := (isPadded_iff leftToken.isTrimmed).mp hleft
      have hname := isPadded_name.mp hname
      have hright := (isPadded_iff rightToken.isTrimmed).mp hright
      let second : SignCut := ⟨name, d.comparison, d.rightInclusive, right⟩
      refine ⟨_, ⟨⟨left, d.comparison, d.leftInclusive, second.text⟩, second, rfl,
        ⟨rfl, .inl (hleft ▸ leftToken.number), hname ▸ isName_name _,
          .inl (hright ▸ rightToken.number)⟩, rfl⟩, ?_, leftToken.number.ne_nil,
        rightToken.number.ne_nil⟩
      simp only [DoubleForm.ofCuts, second, hleft, hname, hright]

/-- The inside of a double comparison has no form of a single one: its value would have a sign. -/
theorem SingleForm.read?_of_isDouble {first second : SignCut} (h : first.IsDouble second) :
    read? first.text = none := by
  cases hf : read? first.text with
  | none => rfl
  | some f =>
    obtain ⟨cut, same, hcut, -⟩ := read?_eq_some_iff.mp hf
    have hcuts := SignCut.of?_text h.isFirst
    rw [same, SignCut.of?_text hcut.isFirst] at hcuts
    obtain rfl := Option.some.inj hcuts
    have noSign := isSign_of_trim hcut.value.isSpellingChar second.comparison.symbol
      (by simp [h.after, SignCut.text, signText])
    simp [isSign_symbol] at noSign

theorem SingleForm.read?_of_double {inside : List Char} {f : DoubleForm}
    (h : DoubleForm.read? inside = some f) : read? inside = none := by
  obtain ⟨first, second, rfl, hcut, -⟩ := DoubleForm.read?_eq_some_iff.mp h
  exact read?_of_isDouble hcut

theorem DoubleForm.read?_of_single {inside : List Char} {f : SingleForm}
    (h : SingleForm.read? inside = some f) : read? inside = none := by
  cases hd : read? inside with
  | none => rfl
  | some d =>
    rw [SingleForm.read?_of_double hd] at h
    cases h

theorem singleRange?_of_double {inside : List Char} {f : DoubleForm}
    (h : DoubleForm.read? inside = some f) : singleRange? inside = none := by
  rw [singleRange?, SingleForm.read?_of_double h]; rfl

/-- What is spelt is what is read. -/
theorem reading?_eq_some_iff {inside : List Char} {r : Reading} :
    reading? inside = some r ↔ Spells inside r := by
  cases hd : doubleRange? inside with
  | none =>
    rw [reading?, hd, Option.map_none, Option.none_or]
    cases r with
    | single e => simp [← singleRange?_eq_some_iff]
    | double d => simp [← doubleRange?_eq_some_iff, hd]
  | some d =>
    obtain ⟨f, hf, -⟩ := Option.bind_eq_some_iff.mp hd
    rw [reading?, hd, Option.map_some, Option.some_or]
    cases r with
    | single e => simp [← singleRange?_eq_some_iff, singleRange?_of_double hf]
    | double d => simp [← doubleRange?_eq_some_iff, hd]

/-- A text spells one reading at most. -/
theorem Spells.unique {inside : List Char} {r s : Reading} (hr : Spells inside r)
    (hs : Spells inside s) : r = s :=
  Option.some.inj ((reading?_eq_some_iff.mpr hr).symm.trans (reading?_eq_some_iff.mpr hs))

end MediaRange
