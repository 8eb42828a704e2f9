import MediaRange.CustomValue
import MediaRange.Proofs.Results

/-!
# Literals of custom values

A literal `/body/flags` is divided by its first and last slash, whatever slashes its body has, and its
flags are a set. `literals_as_written` says what becomes of each literal, that the order and number of
flags play no part in it, and that a bare pattern is the literal without flags.
-/

namespace MediaRange

/-- The same error of another pattern. -/
def SettingsError.naming (pattern : String) : SettingsError → SettingsError
  | emptyCustomValue => emptyCustomValue
  | customValueFlag flag _ => customValueFlag flag pattern
  | customValuePattern _ cause => customValuePattern pattern cause
  | grammar cause => grammar cause

namespace CustomValue

variable {pattern body flagText : List Char}

/-! ### The parts of a literal -/

theorem splitAtLast?_eq_none_iff {separator : Char} {text : List Char} :
    splitAtLast? separator text = none ↔ separator ∉ text := by
  induction text with
  | nil => simp [splitAtLast?]
  | cons c rest ih =>
    rw [splitAtLast?, List.mem_cons, not_or, ← ih]
    cases splitAtLast? separator rest with
    | some parts => simp
    | none => simp [eq_comm]

theorem splitAtLast?_append {separator : Char} {u v : List Char} (h : separator ∉ v) :
    splitAtLast? separator (u ++ separator :: v) = some (u, v) := by
  induction u with
  | nil => simp [splitAtLast?, splitAtLast?_eq_none_iff.mpr h]
  | cons c u ih => rw [List.cons_append, splitAtLast?, ih]

/-- The body and the flags of a pattern; a bare one has no flags. -/
def parts (pattern : List Char) : List Char × List Char :=
  (splitLiteral? pattern).getD (pattern, [])

def literal (body flagText : List Char) : List Char := '/' :: (body ++ '/' :: flagText)

/-- A pattern that no slashes divide into a body and flags. -/
def IsBare (pattern : List Char) : Prop := ∀ body flagText, pattern ≠ literal body flagText

theorem parts_literal (h : '/' ∉ flagText) : parts (literal body flagText) = (body, flagText) := by
  rw [parts, literal, splitLiteral?, splitAtLast?_append h, Option.getD_some]

theorem isBare_iff : IsBare pattern ↔ splitLiteral? pattern = none := by
  constructor
  · intro bare
    unfold splitLiteral?
    split
    · rename_i rest
      rw [splitAtLast?_eq_none_iff]
      intro slash
      obtain ⟨body, flagText, divided⟩ := List.append_of_mem slash
      exact bare body flagText (congrArg (List.cons '/') divided)
    · rfl
  · rintro undivided body flagText rfl
    rw [literal, splitLiteral?, splitAtLast?_eq_none_iff] at undivided
    simp at undivided

/-! ### Flags -/

/-- The characters that may stand behind a literal. -/
def flagCharacters : List Char := ['i', 'm', 's', 'g', 'u', 'y']

def AreFlags (text : List Char) : Prop := ∀ c ∈ text, c ∈ flagCharacters

def unknownFlag? (text : List Char) : Option Char := text.find? fun c => c ∉ flagCharacters

/-- The flags of a recogniser that a text switches on. -/
def flagSet (flagText : List Char) : PatternFlags where
  ignoreCase := 'i' ∈ flagText
  multiLine := 'm' ∈ flagText
  dotAll := 's' ∈ flagText

theorem unknownFlag?_eq_none_iff : unknownFlag? flagText = none ↔ AreFlags flagText := by
  simp [unknownFlag?, AreFlags, List.find?_eq_none]

theorem unknownFlag?_eq_some_iff {flag : Char} :
    unknownFlag? flagText = some flag ↔
      ∃ before after, flagText = before ++ flag :: after ∧ AreFlags before ∧
        flag ∉ flagCharacters := by
  rw [unknownFlag?, List.find?_eq_some_iff_append]
  simp only [decide_not, Bool.not_not, Bool.not_eq_true', decide_eq_false_iff_not,
    decide_eq_true_eq]
  constructor
  · rintro ⟨unknown, before, after, divided, known⟩
    exact ⟨before, after, divided, known, unknown⟩
  · rintro ⟨before, after, divided, known, unknown⟩
    exact ⟨unknown, before, after, divided, known⟩

theorem unknownFlag?_cons (flag : Char) (rest : List Char) :
    unknownFlag? (flag :: rest) =
      if flag ∈ flagCharacters then unknownFlag? rest else some flag := by
  by_cases known : flag ∈ flagCharacters
  · rw [if_pos known]
    exact List.find?_cons_of_neg (by simpa using known)
  · rw [if_neg known]
    exact List.find?_cons_of_pos (by simpa using known)

theorem AreFlags.slash_notMem (known : AreFlags flagText) : '/' ∉ flagText :=
  fun slash => absurd (known _ slash) (by decide)

theorem flagSet_congr {u v : List Char} (same : ∀ c ∈ ['i', 'm', 's'], c ∈ u ↔ c ∈ v) :
    flagSet u = flagSet v := by
  unfold flagSet
  rw [PatternFlags.mk.injEq]
  exact ⟨decide_eq_decide.mpr (same 'i' (by decide)), decide_eq_decide.mpr (same 'm' (by decide)),
    decide_eq_decide.mpr (same 's' (by decide)), rfl, rfl⟩

/-- The order of the flags only matters for the one that is unknown. -/
theorem flags_eq_match (set : PatternFlags) :
    flags pattern set flagText = match unknownFlag? flagText with
      | some flag => .error (.customValueFlag flag (String.ofList pattern))
      | none => .ok { set with
          ignoreCase := set.ignoreCase || (flagSet flagText).ignoreCase
          multiLine := set.multiLine || (flagSet flagText).multiLine
          dotAll := set.dotAll || (flagSet flagText).dotAll } := by
  induction flagText generalizing set with
  | nil => simp [flags, flagSet, unknownFlag?]
  | cons flag rest ih =>
    rw [flags.eq_def]
    dsimp only
    split
    case h_7 i m s g u y =>
      have unknown : flag ∉ flagCharacters := by
        simp only [flagCharacters, List.mem_cons, List.not_mem_nil, or_false, not_or]
        exact ⟨i, m, s, g, u, y⟩
      rw [unknownFlag?_cons, if_neg unknown]
    all_goals
      rw [ih, unknownFlag?_cons, if_pos (by decide)]
      cases unknownFlag? rest with
      | some other => rfl
      | none => simp [flagSet]

/-! ### Reading -/

/-- A custom value from the parts of its pattern. -/
def ofParts (pattern body flagText : List Char) : Except SettingsError CustomValue :=
  if body = [] then .error .emptyCustomValue
  else match unknownFlag? flagText with
    | some flag => .error (.customValueFlag flag (String.ofList pattern))
    | none => match Pattern.read? (flagSet flagText) body with
      | .error cause => .error (.customValuePattern (String.ofList pattern) cause)
      | .ok recognizer => .ok ⟨body, recognizer⟩

theorem read?_eq_ofParts (h : parts pattern = (body, flagText)) :
    read? pattern = ofParts pattern body flagText := by
  unfold parts at h
  unfold read? ofParts
  rw [h]
  dsimp only
  rw [flags_eq_match]
  simp only [List.isEmpty_iff]
  split
  · rfl
  · cases unknownFlag? flagText with
    | some flag => rfl
    | none => simp only [Bool.false_or]; rfl

theorem read?_literal (h : '/' ∉ flagText) :
    read? (literal body flagText) = ofParts (literal body flagText) body flagText :=
  read?_eq_ofParts (parts_literal h)

theorem IsBare.read? (bare : IsBare pattern) :
    CustomValue.read? pattern = ofParts pattern pattern [] := by
  apply read?_eq_ofParts
  rw [parts, isBare_iff.mp bare, Option.getD_none]

theorem ofParts_naming {other u v : List Char} (hu : AreFlags u) (hv : AreFlags v)
    (same : flagSet u = flagSet v) :
    ofParts other body v = (ofParts pattern body u).mapError (.naming (String.ofList other)) := by
  unfold ofParts
  rw [unknownFlag?_eq_none_iff.mpr hu, unknownFlag?_eq_none_iff.mpr hv, same]
  dsimp only
  split
  · rfl
  · cases Pattern.read? (flagSet v) body <;> rfl

/-- What a literal is read as: its body may not be empty, then all its flags have to be known, and then
the body has to be a pattern under them. -/
inductive ReadsAs (body flagText : List Char) : Except SettingsError CustomValue → Prop where
  | empty (h : body = []) : ReadsAs body flagText (.error .emptyCustomValue)
  | unknownFlag {before after : List Char} {flag : Char} (h : body ≠ [])
      (first : flagText = before ++ flag :: after ∧ AreFlags before ∧ flag ∉ flagCharacters) :
      ReadsAs body flagText
        (.error (.customValueFlag flag (String.ofList (literal body flagText))))
  | noPattern {cause : PatternError} (h : body ≠ []) (known : AreFlags flagText)
      (refused : Pattern.read? (flagSet flagText) body = .error cause) :
      ReadsAs body flagText
        (.error (.customValuePattern (String.ofList (literal body flagText)) cause))
  | value {recognizer : Pattern} (h : body ≠ []) (known : AreFlags flagText)
      (compiled : Pattern.read? (flagSet flagText) body = .ok recognizer) :
      ReadsAs body flagText (.ok ⟨body, recognizer⟩)

theorem readsAs_ofParts : ReadsAs body flagText (ofParts (literal body flagText) body flagText) := by
  unfold ofParts
  split
  · rename_i empty
    exact .empty empty
  · rename_i nonempty
    cases first : unknownFlag? flagText with
    | some flag =>
      obtain ⟨before, after, first⟩ := unknownFlag?_eq_some_iff.mp first
      exact .unknownFlag nonempty first
    | none =>
      have known := unknownFlag?_eq_none_iff.mp first
      dsimp only
      cases compiled : Pattern.read? (flagSet flagText) body with
      | error cause => exact .noPattern nonempty known compiled
      | ok recognizer => exact .value nonempty known compiled

theorem ReadsAs.eq_ofParts {result : Except SettingsError CustomValue}
    (h : ReadsAs body flagText result) : ofParts (literal body flagText) body flagText = result := by
  unfold ofParts
  cases h with
  | empty empty => rw [if_pos empty]
  | unknownFlag nonempty first =>
    rw [if_neg nonempty, unknownFlag?_eq_some_iff.mpr ⟨_, _, first⟩]
  | noPattern nonempty known refused =>
    rw [if_neg nonempty, unknownFlag?_eq_none_iff.mpr known, refused]
  | value nonempty known compiled =>
    rw [if_neg nonempty, unknownFlag?_eq_none_iff.mpr known, compiled]

theorem read?_literal_eq_iff (h : '/' ∉ flagText) {result : Except SettingsError CustomValue} :
    read? (literal body flagText) = result ↔ ReadsAs body flagText result := by
  rw [read?_literal h]
  constructor
  · rintro rfl
    exact readsAs_ofParts
  · exact ReadsAs.eq_ofParts

/-- Literals are read by their body and the set of their flags, the first unknown flag being the error
if there is one. Flags that only differ in what says nothing about a recogniser give the same custom
value, and so does a bare pattern, which is the body of a literal without flags; what differs is the
text that an error names. -/
theorem literals_as_written :
    (∀ body flagText : List Char, '/' ∉ flagText → ∀ result,
      read? (literal body flagText) = result ↔ ReadsAs body flagText result) ∧
    (∀ body u v : List Char, AreFlags u → AreFlags v →
      (∀ c ∈ ['i', 'm', 's'], c ∈ u ↔ c ∈ v) →
      read? (literal body v) =
        (read? (literal body u)).mapError (.naming (String.ofList (literal body v)))) ∧
    ∀ pattern : List Char, IsBare pattern →
      read? (literal pattern []) =
        (read? pattern).mapError (.naming (String.ofList (literal pattern []))) := by
  refine ⟨fun _ _ h _ => read?_literal_eq_iff h, ?_, ?_⟩
  · intro body u v hu hv same
    rw [read?_literal hu.slash_notMem, read?_literal hv.slash_notMem]
    exact ofParts_naming hu hv (flagSet_congr same)
  · intro pattern bare
    rw [read?_literal (List.not_mem_nil), bare.read?]
    exact ofParts_naming (List.forall_mem_nil _) (List.forall_mem_nil _) rfl

theorem literals_as_written_slashes :
    '/' ∉ "gi".toList ∧
      ReadsAs "/a/b/".toList "gi".toList (read? "//a/b//gi".toList) ∧
      (read? "//a/b//gi".toList).toOption.map CustomValue.body = some "/a/b/".toList ∧
      AreFlags "gi".toList ∧ AreFlags "iyi".toList ∧
      (∀ c ∈ ['i', 'm', 's'], c ∈ "gi".toList ↔ c ∈ "iyi".toList) ∧
      read? "//a/b//iyi".toList =
        (read? "//a/b//gi".toList).mapError (.naming (String.ofList "//a/b//iyi".toList)) ∧
      IsBare "/a".toList ∧
      read? "//a/".toList = (read? "/a".toList).mapError (.naming (String.ofList "//a/".toList)) := by
  have noSlash : '/' ∉ "gi".toList := by decide
  have bare : IsBare "/a".toList := isBare_iff.mpr (by decide)
  have same : ∀ c ∈ ['i', 'm', 's'], c ∈ "gi".toList ↔ c ∈ "iyi".toList := by simp
  have first : AreFlags "gi".toList := unknownFlag?_eq_none_iff.mp (by decide)
  have second : AreFlags "iyi".toList := unknownFlag?_eq_none_iff.mp (by decide)
  obtain ⟨literals, flags, patterns⟩ := literals_as_written
  have reads := (literals "/a/b/".toList "gi".toList noSlash _).mp rfl
  have sameFlags := flags "/a/b/".toList _ _ first second same
  exact ⟨noSlash, reads, by decide +kernel, first, second, same, sameFlags, bare, patterns _ bare⟩

end CustomValue

end MediaRange
