import MediaRange.Proofs.Pattern.Literals
import MediaRange.Proofs.Rewriting.Captures

/-!
# Custom values in the grammar

The grammar reads the text of a custom value without regard to case, whatever the flags of its
literal are. So what it captures is recognized if case is ignored, and `captured_value` shows that
case is all that can make a difference.
-/

namespace MediaRange

open Pattern Grammar

namespace CustomValue

/-! ### The literal with one more flag -/

/-- The same pattern with the flag that ignores case. -/
def ignoringCase (pattern : List Char) : List Char :=
  '/' :: ((parts pattern).1 ++ '/' :: 'i' :: (parts pattern).2)

theorem parts_ignoringCase {pattern : List Char} (h : '/' ∉ (parts pattern).2) :
    parts (ignoringCase pattern) = ((parts pattern).1, 'i' :: (parts pattern).2) := by
  apply parts_literal
  simp [h]

theorem read?_eq_ok_iff {pattern : List Char} {custom : CustomValue} :
    read? pattern = .ok custom ↔ (parts pattern).1 ≠ [] ∧ custom.body = (parts pattern).1 ∧
      ∃ set, flags pattern {} (parts pattern).2 = .ok set ∧
        Pattern.read? set custom.body = .ok custom.recognizer := by
  obtain ⟨body, recognizer⟩ := custom
  unfold read? parts
  generalize (splitLiteral? pattern).getD (pattern, []) = parts
  obtain ⟨text, flagText⟩ := parts
  dsimp only
  split
  · rename_i empty
    simp [List.isEmpty_iff.mp empty]
  · rename_i nonempty
    have ne : text ≠ [] := by simpa using nonempty
    cases hflags : flags pattern {} flagText with
    | error e => simp
    | ok set =>
      dsimp only
      cases hread : Pattern.read? set text with
      | error e =>
        simp only [reduceCtorEq, false_iff, not_and, not_exists, Except.ok.injEq]
        rintro - rfl _ rfl h
        cases hread.symm.trans h
      | ok p =>
        simp only [Except.ok.injEq, CustomValue.mk.injEq]
        constructor
        · rintro ⟨rfl, rfl⟩
          exact ⟨ne, rfl, set, rfl, hread⟩
        · rintro ⟨-, rfl, _, rfl, h⟩
          exact ⟨rfl, Except.ok.inj (hread.symm.trans h)⟩

/-- The flags of a literal: case, lines and the notation. -/
theorem flags_eq_ok {pattern text : List Char} {set set' : PatternFlags}
    (h : flags pattern set text = .ok set') :
    '/' ∉ text ∧ set'.swapGreed = set.swapGreed ∧ set'.extended = set.extended ∧
      ('i' ∈ text ∨ set.ignoreCase = true → set'.ignoreCase = true) ∧
      ∀ other, flags other { set with ignoreCase := true } text =
        .ok { set' with ignoreCase := true } := by
  rw [flags_eq_match] at h
  cases first : unknownFlag? text with
  | some flag =>
    rw [first] at h
    cases h
  | none =>
    rw [first] at h
    cases h
    refine ⟨(unknownFlag?_eq_none_iff.mp first).slash_notMem, rfl, rfl, ?_, ?_⟩
    · rintro (flag | given)
      · simp [flagSet, flag]
      · simp [given]
    · intro other
      rw [flags_eq_match, first]
      rfl

/-- In the grammar a custom value is narrower than the pattern that ignores case. -/
theorem exists_caseless {pattern : List Char} {custom : CustomValue} {grammar : Grammar}
    (hread : read? pattern = .ok custom) (hbuild : Grammar.build (some custom) = .ok grammar) :
    ∃ caseless p, read? (ignoringCase pattern) = .ok caseless ∧
      ('i' ∈ (parts pattern).2 → caseless = custom) ∧ grammar = ofBody (some p) ∧
      Narrower [] p caseless.recognizer := by
  obtain ⟨ne, body, set, hflags, hrecognizer⟩ := read?_eq_ok_iff.mp hread
  obtain ⟨slash, swapGreed, extended, ignoreCase, more⟩ := flags_eq_ok hflags
  obtain ⟨recognizer, hq⟩ := read?_of_flags (f := set)
    (g := { set with ignoreCase := true }) rfl rfl hrecognizer
  obtain ⟨p, hp⟩ := read?_of_flags (g := grammarFlags) swapGreed extended hrecognizer
  obtain ⟨r, hr, hp⟩ := Pattern.read?_eq_ok_iff.mp hp
  obtain ⟨noNames, shape⟩ := build_some hr hp hbuild
  have lines : narrowing.Flags grammarFlags { set with ignoreCase := true } :=
    ⟨rfl, fun h => (Bool.false_ne_true h).elim, fun h => (Bool.false_ne_true h).elim,
      swapGreed.symm, extended.symm⟩
  refine ⟨⟨custom.body, recognizer⟩, p, read?_eq_ok_iff.mpr ?_, fun flag => ?_, shape,
    noNames ▸ narrower_of_read? lines hr hp hq⟩
  · rw [parts_ignoringCase slash]
    exact ⟨ne, body, _, more _, hq⟩
  · have same : { set with ignoreCase := true } = set := by
      rw [← ignoreCase (.inl flag)]
    rw [same] at hq
    exact congrArg (CustomValue.mk custom.body) (Except.ok.inj (hq.symm.trans hrecognizer))

/-- The grammar of any custom value, whatever it recognizes. -/
theorem exists_body {pattern : List Char} {custom : CustomValue} {grammar : Grammar}
    (hread : read? pattern = .ok custom) (hbuild : Grammar.build (some custom) = .ok grammar) :
    ∃ body, grammar = ofBody body ∧ Recognizes body fun _ => True := by
  obtain ⟨caseless, p, -, -, same, narrower⟩ := exists_caseless hread hbuild
  refine ⟨some p, same, ?_⟩
  rintro _ ⟨⟩
  exact ⟨_, narrower, fun _ _ => trivial⟩

end CustomValue

/-! ### Variables -/

def varPattern (ignoreCase : Bool) : Pattern :=
  sequence ("var(--".toList.map (fun c => one (literalSet ignoreCase c)) ++
    [plus true (one (.foldedIf ignoreCase (.ranges [(0x61, 0x7A), (0x2D, 0x2D)]))),
      one (literalSet ignoreCase ')')])

def varValue : CustomValue := ⟨"var\\(--[a-z-]+\\)".toList, varPattern false⟩

def varEngine : Engine := ⟨ofBody (some (varPattern true)), { customValue := some varValue }⟩

theorem read?_varValue : CustomValue.read? "/var\\(--[a-z-]+\\)/".toList = .ok varValue :=
  CustomValue.read?_eq_ok_iff.mpr ⟨by decide, by rfl, {}, rfl, eq_ok_of_toOption (by decide +kernel)⟩

theorem build_varEngine : Engine.build { customValue := some varValue } = .ok varEngine := by
  have single : Grammar.read? (singlePattern (valuePattern (some varValue))) =
      .ok (singleOf (value (some (varPattern true)))) := eq_ok_of_toOption (by decide +kernel)
  have double : Grammar.read? (doublePattern (valuePattern (some varValue))) =
      .ok (doubleOf (value (some (varPattern true)))) := eq_ok_of_toOption (by decide +kernel)
  simp only [Engine.build, Grammar.build, single, double]
  rfl

/-! ### Captured values -/

inductive Grammar.Captures (grammar : Grammar) (params : List Char) : List Char → Prop where
  | value {m : Match} (h : m ∈ grammar.single.matchesIn params) :
      Captures grammar params (m.group "value")
  | left {m : Match} (h : m ∈ grammar.double.matchesIn params) :
      Captures grammar params (m.group "left")
  | right {m : Match} (h : m ∈ grammar.double.matchesIn params) :
      Captures grammar params (m.group "right")

theorem Grammar.Captures.isCaptured {body : Option Pattern} {recognized : List Char → Prop}
    (hbody : Recognizes body recognized) {params x : List Char}
    (h : (ofBody body).Captures params x) : IsCaptured recognized x := by
  cases h with
  | value h => exact (single_captures hbody h).1
  | left h => exact (double_captures hbody h).1.1
  | right h => exact (double_captures hbody h).1.2

theorem Grammar.captures_of_map_group {grammar : Grammar} {params x : List Char}
    (h : x ∈ (grammar.single.matchesIn params).map (·.group "value")) : grammar.Captures params x := by
  obtain ⟨m, hm, rfl⟩ := List.mem_map.mp h
  exact .value hm

/-- A captured value is empty, a number, or recognized by the custom value pattern with case
ignored. It is treated as a custom value exactly if ignoring case makes no difference to it, as under
the flag for that. -/
theorem captured_value {pattern : List Char} {settings : Settings}
    (accepted : ∀ custom ∈ settings.customValue, CustomValue.read? pattern = .ok custom)
    {engine : Engine} (built : Engine.build settings = .ok engine) {params value : List Char}
    (captured : engine.grammar.Captures params value) :
    value = [] ∨ IsNumber value ∨ ∃ custom caseless, settings.customValue = some custom ∧
      CustomValue.read? (CustomValue.ignoringCase pattern) = .ok caseless ∧
      caseless.recognizes value = true ∧
      ('i' ∈ (CustomValue.parts pattern).2 → caseless = custom) ∧
      ∀ e : RangeExpression, e.value = value → e.boundValue settings =
        if custom.recognizes value = caseless.recognizes value then e.customBound settings.useCalc
        else e.numericBound := by
  obtain ⟨grammar, hgrammar, h⟩ := bind_eq_ok_iff.mp built
  cases h
  obtain ⟨customValue, useCalc⟩ := settings
  cases customValue with
  | none =>
    obtain rfl := Except.ok.inj (hgrammar.symm.trans build_none)
    have none : Recognizes none fun _ => False := by simp [Recognizes]
    rcases captured.isCaptured none with empty | number | never
    · exact .inl empty
    · exact .inr (.inl number)
    · exact never.elim
  | some custom =>
    obtain ⟨caseless, p, hread, same, rfl, narrower⟩ :=
      CustomValue.exists_caseless (accepted custom rfl) hgrammar
    have recognizes : Recognizes (some p) fun x => caseless.recognizes x = true := by
      rintro _ ⟨⟩
      exact ⟨_, narrower, fun _ => id⟩
    rcases captured.isCaptured recognizes with empty | number | recognized
    · exact .inl empty
    · exact .inr (.inl number)
    · refine .inr (.inr ⟨custom, caseless, rfl, hread, recognized, same, ?_⟩)
      rintro e rfl
      rw [recognized]
      rfl

theorem captured_value_var :
    CustomValue.read? "/var\\(--[a-z-]+\\)/".toList = .ok varValue ∧
      Engine.build { customValue := some varValue } = .ok varEngine ∧
      varEngine.grammar.Captures "(width > var(--bp))".toList "var(--bp)".toList ∧
      ("var(--bp)".toList = [] ∨ IsNumber "var(--bp)".toList ∨ ∃ custom caseless,
        some varValue = some custom ∧
        CustomValue.read? (CustomValue.ignoringCase "/var\\(--[a-z-]+\\)/".toList) = .ok caseless ∧
        caseless.recognizes "var(--bp)".toList = true ∧
        ('i' ∈ (CustomValue.parts "/var\\(--[a-z-]+\\)/".toList).2 → caseless = custom) ∧
        ∀ e : RangeExpression, e.value = "var(--bp)".toList →
          e.boundValue { customValue := some varValue } =
            if custom.recognizes "var(--bp)".toList = caseless.recognizes "var(--bp)".toList then
              e.customBound false
            else e.numericBound) := by
  have captures : varEngine.grammar.Captures "(width > var(--bp))".toList "var(--bp)".toList :=
    captures_of_map_group (by decide +kernel)
  refine ⟨read?_varValue, build_varEngine, captures, captured_value ?_ build_varEngine captures⟩
  rintro _ ⟨⟩
  exact read?_varValue

/-- The same variable in capitals is in the grammar, but it is taken for a number. -/
theorem captured_value_capitals :
    CustomValue.read? "/var\\(--[a-z-]+\\)/".toList = .ok varValue ∧
      Engine.build { customValue := some varValue } = .ok varEngine ∧
      varEngine.grammar.Captures "(width > VAR(--BP))".toList "VAR(--BP)".toList ∧
      ¬("VAR(--BP)".toList = [] ∨ IsNumber "VAR(--BP)".toList ∨
        varValue.recognizes "VAR(--BP)".toList = true) ∧
      (varEngine.rewriteParams "(width > VAR(--BP))".toList).value =
        .rewritten "(min-width: VAR(1BP))".toList
          [⟨"(width > VAR(--BP))".toList, "(min-width: VAR(1BP))".toList⟩] := by
  refine ⟨read?_varValue, build_varEngine, captures_of_map_group (by decide +kernel), ?_,
    by decide +kernel⟩
  rintro (empty | number | recognized)
  · revert empty
    decide
  · revert number
    decide +kernel
  · revert recognized
    decide +kernel

end MediaRange
