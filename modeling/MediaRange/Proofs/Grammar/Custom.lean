import MediaRange.Proofs.Grammar.Shape
import MediaRange.Proofs.Pattern.Splicing

/-!
# The grammar with custom values

`build_some` shows that a grammar with a custom value has the same shape as one without, and that the
pattern of the custom value in it is the text of that value read without regard to case.
-/

namespace MediaRange.Grammar

open Pattern

def grammarFlags : PatternFlags := { ignoreCase := true }

/-! ### The texts around a custom value -/

def valueBefore : List Char := optional valueTemplate.toList ++ '|' :: "(?:".toList

def singleBefore : List Char :=
  "\\(\\s*(?P<feature>[a-z-]+?)\\s*(?P<op>[<>])(?P<eq>=?)\\s*(?P<value>".toList ++ valueBefore

def doubleBefore : List Char := "\\(\\s*(?P<left>".toList ++ valueBefore

def doubleBetween : List Char :=
  '?' :: (")\\s*(?P<left_op><|>)(?P<left_eq>=?)\\s*(?P<feature>[a-z-]+)".toList ++
    "\\s*(?P<right_op><|>)(?P<right_eq>=?)\\s*(?P<right>".toList ++ valueBefore)

def valueAfter : List Char := '?' :: ")\\s*\\)".toList

theorem append_valuePattern (custom : CustomValue) (before after : List Char) :
    before ++ valuePattern (some custom) ++ after =
      (before ++ valueBefore) ++ (custom.body ++ ')' :: '?' :: after) := by
  have closed : ")?".toList = [')', '?'] := rfl
  rw [valuePattern, optional, optional, valueBefore, optional, closed]
  simp only [List.append_assoc, List.cons_append, List.nil_append]

theorem append_valuePattern_twice (custom : CustomValue) (before first second after : List Char) :
    before ++ valuePattern (some custom) ++ first ++ second ++ valuePattern (some custom) ++ after =
      (before ++ valueBefore) ++ (custom.body ++ ')' ::
        ('?' :: (first ++ second ++ valueBefore) ++ (custom.body ++ ')' :: '?' :: after))) := by
  rw [append_valuePattern, List.append_assoc _ first, append_valuePattern]
  simp only [List.append_assoc, List.cons_append]

theorem singlePattern_some (custom : CustomValue) : singlePattern (valuePattern (some custom)) =
    singleBefore ++ (custom.body ++ ')' :: valueAfter) :=
  append_valuePattern custom _ _

theorem doublePattern_some (custom : CustomValue) : doublePattern (valuePattern (some custom)) =
    doubleBefore ++ (custom.body ++ ')' ::
      (doubleBetween ++ (custom.body ++ ')' :: valueAfter))) :=
  append_valuePattern_twice custom _ _ _ _

/-! ### The templates -/

def readSingleTemplate : Except PatternError Pattern := do
  let r ← singleBefore.foldlM Reader.step { flags := grammarFlags }
  let r ← r.closeWith grammarFlags ⟨hole, 0⟩
  let r ← valueAfter.foldlM Reader.step r
  r.finish

def readDoubleTemplate : Except PatternError Pattern := do
  let r ← doubleBefore.foldlM Reader.step { flags := grammarFlags }
  let r ← r.closeWith grammarFlags ⟨hole, 0⟩
  let r ← doubleBetween.foldlM Reader.step r
  let r ← r.closeWith grammarFlags ⟨hole, 0⟩
  let r ← valueAfter.foldlM Reader.step r
  r.finish

theorem readSingleTemplate_eq : readSingleTemplate = .ok (singleOf (value (some hole))) :=
  eq_ok_of_toOption (by decide +kernel)

theorem readDoubleTemplate_eq : readDoubleTemplate = .ok (doubleOf (value (some hole))) :=
  eq_ok_of_toOption (by decide +kernel)

theorem fill_single (p : Pattern) :
    fill p (singleOf (value (some hole))) = singleOf (value (some p)) := rfl

theorem fill_double (p : Pattern) :
    fill p (doubleOf (value (some hole))) = doubleOf (value (some p)) := rfl

theorem read?_eq_ok {text : List Char} {p : Pattern} (h : Grammar.read? text = .ok p) :
    Pattern.read? grammarFlags text = .ok p := by
  cases hread : Pattern.read? grammarFlags text with
  | ok q =>
    have same : Pattern.read? { ignoreCase := true } text = .ok q := hread
    rw [Grammar.read?, same] at h
    cases h
    rfl
  | error cause =>
    have failed : Pattern.read? { ignoreCase := true } text = .error cause := hread
    rw [Grammar.read?, failed] at h
    cases h

/-- The custom value of a grammar has no named groups: in the double pattern each of them would occur
twice. -/
theorem build_some {custom : CustomValue} {p : Pattern} {r : Reader} {grammar : Grammar}
    (hr : custom.body.foldlM Reader.step { flags := grammarFlags } = .ok r)
    (hp : r.finish = .ok p) (h : Grammar.build (some custom) = .ok grammar) :
    r.names = [] ∧ grammar = ofBody (some p) := by
  obtain ⟨single, hsingle, h⟩ := bind_eq_ok_iff.mp h
  obtain ⟨double, hdouble, h⟩ := bind_eq_ok_iff.mp h
  cases h
  obtain ⟨s, hs, hsingle⟩ := read?_eq_ok_iff.mp (read?_eq_ok hsingle)
  obtain ⟨d, hd, hdouble⟩ := read?_eq_ok_iff.mp (read?_eq_ok hdouble)
  rw [singlePattern_some] at hs
  rw [doublePattern_some] at hd
  obtain ⟨t₁, ht₁, h⟩ := bind_eq_ok_iff.mp readSingleTemplate_eq
  obtain ⟨t₂, ht₂, h⟩ := bind_eq_ok_iff.mp h
  obtain ⟨t₃, ht₃, htemplate⟩ := bind_eq_ok_iff.mp h
  obtain ⟨u₁, hu₁, h⟩ := bind_eq_ok_iff.mp readDoubleTemplate_eq
  obtain ⟨u₂, hu₂, h⟩ := bind_eq_ok_iff.mp h
  obtain ⟨u₃, hu₃, h⟩ := bind_eq_ok_iff.mp h
  obtain ⟨u₄, hu₄, h⟩ := bind_eq_ok_iff.mp h
  obtain ⟨u₅, hu₅, htemplate'⟩ := bind_eq_ok_iff.mp h
  have start := filling_start p grammarFlags
  have comment : r.comment = false :=
    comment_eq_false hr hp start ht₁ ht₂ hs (by decide) hsingle
  obtain ⟨s', hs', like, -⟩ := fill_hole hr hp comment start ht₁ ht₂ hs
  obtain ⟨d', hd', like', -⟩ := fill_hole hr hp comment start hu₁ hu₂ hd
  obtain ⟨d'', hd'', like'', fresh⟩ := fill_hole hr hp comment like' hu₃ hu₄ hd'
  have single_eq := (like.run_ok ht₃ hs').finish_ok rfl htemplate hsingle
  have double_eq := (like''.run_ok hu₅ hd'').finish_ok rfl htemplate' hdouble
  refine ⟨List.eq_nil_iff_forall_not_mem.mpr fun name hname => fresh name hname hname, ?_⟩
  rw [ofBody, ← fill_single, ← fill_double]
  exact congrArg₂ Grammar.mk single_eq double_eq

end MediaRange.Grammar
