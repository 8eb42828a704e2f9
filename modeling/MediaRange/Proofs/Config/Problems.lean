import MediaRange.Proofs.Config.Soundness
import MediaRange.Proofs.Grammar.Shape
import Mathlib.Data.List.Induction
import Mathlib.Data.List.Pairwise
import Mathlib.Data.String.Basic

/-!
# Reported problems

Verifying a configuration reports all keys without a meaning, but only one problem of the values.
`problems_of_object` shows that a pattern that is refused is reported exactly if all fields can be
read: a value of the wrong type or a second key for a field hides it.
-/

namespace MediaRange

open Json5

/-! ### Refused patterns -/

/-- Why a pattern gives no engine: it cannot be read, or it breaks the grammar around it. -/
inductive PatternRefused (pattern : String) : SettingsError → Prop where
  | unreadable {cause : SettingsError} (h : CustomValue.read? pattern.toList = .error cause) :
    PatternRefused pattern cause
  | unbuildable {custom : CustomValue} {useCalc : Bool} {cause : SettingsError}
    (h : CustomValue.read? pattern.toList = .ok custom)
    (hbuild : Engine.build ⟨some custom, useCalc⟩ = .error cause) : PatternRefused pattern cause

/-- Whether an engine can be built does not depend on how bounds are written. -/
theorem build_error_of {custom : Option CustomValue} {useCalc useCalc' : Bool}
    {cause : SettingsError} (h : Engine.build ⟨custom, useCalc⟩ = .error cause) :
    Engine.build ⟨custom, useCalc'⟩ = .error cause := by
  rw [Engine.build, bind_eq_error_iff] at h ⊢
  rcases h with grammar | ⟨_, -, done⟩
  · exact .inl grammar
  · cases done

namespace Config

theorem settingsError?_iff {config : Config} {cause : SettingsError} :
    config.settingsError? = some cause ↔ config.settings.bind Engine.build = .error cause := by
  unfold settingsError?
  cases config.settings.bind Engine.build <;> simp

/-- Only its pattern keeps a configuration from giving an engine. -/
theorem settingsError?_eq_some_iff {config : Config} {cause : SettingsError} :
    config.settingsError? = some cause ↔
      ∃ pattern, config.customValue = some pattern ∧ PatternRefused pattern cause := by
  obtain ⟨customValue, useCalc⟩ := config
  refine (settingsError?_iff.trans bind_eq_error_iff).trans ?_
  cases customValue with
  | none =>
    have built : Engine.build ⟨none, useCalc⟩ = .ok ⟨.ofBody none, ⟨none, useCalc⟩⟩ := by
      rw [Engine.build, Grammar.build_none]
      rfl
    simp [settings, built]
  | some pattern =>
    unfold settings
    dsimp only
    rw [map_eq_error_iff]
    constructor
    · rintro (unread | ⟨_, read, unbuilt⟩)
      · exact ⟨pattern, rfl, .unreadable unread⟩
      · obtain ⟨custom, hcustom, rfl⟩ := map_eq_ok_iff.mp read
        exact ⟨pattern, rfl, .unbuildable hcustom unbuilt⟩
    · rintro ⟨_, same, refused⟩
      obtain rfl := Option.some.inj same
      cases refused with
      | unreadable unread => exact .inl unread
      | unbuildable hcustom unbuilt =>
        exact .inr ⟨_, map_eq_ok_iff.mpr ⟨_, hcustom, rfl⟩, build_error_of unbuilt⟩

end Config

/-! ### Filled fields -/

namespace ConfigField

theorem ofKey?_eq_some_iff {key : String} {field : ConfigField} :
    ofKey? key = some field ↔ key ∈ field.keys := by
  constructor
  · intro h
    have found := List.find?_some h
    simpa using found
  · intro h
    have known : ∀ key ∈ field.keys, ofKey? key = some field := by
      cases field <;> decide
    exact known key h

/-- The values that a field may have. -/
def accepts : ConfigField → Value → Bool
  | customValue, .null | customValue, .string _ | useCalc, .bool _ => true
  | _, _ => false

end ConfigField

theorem ConfigDraft.exists_set_iff {draft : ConfigDraft} {field : ConfigField} {value : Value} :
    (∃ filled, draft.set field value = .ok filled) ↔ field.accepts value = true := by
  cases field <;> cases value <;> simp [set, ConfigField.accepts]

namespace Config

/-- Members fill the fields exactly if their values have the right types and no two of them belong to
one field. -/
theorem exists_fill_iff {ms : List (String × Value)} {draft : ConfigDraft} :
    (∃ filled, fill draft ms = .ok filled) ↔
      (∀ m ∈ ms, ∀ field, ConfigField.ofKey? m.1 = some field →
        draft.has field = false ∧ field.accepts m.2 = true) ∧
      ms.Pairwise fun m n => ∀ field, ConfigField.ofKey? m.1 = some field →
        ConfigField.ofKey? n.1 ≠ some field := by
  induction ms generalizing draft with
  | nil => simp [fill]
  | cons m ms ih =>
    simp only [fill_cons, bind_eq_ok_iff]
    rw [List.forall_mem_cons, List.pairwise_cons]
    cases hm : ConfigField.ofKey? m.1 with
    | none =>
      simp only [ConfigDraft.setMember_none hm, Except.ok.injEq, exists_eq_left', ih, reduceCtorEq,
        false_imp_iff, implies_true, true_and]
    | some field =>
      constructor
      · rintro ⟨filled, next, hnext, hfill⟩
        obtain ⟨fresh, hset⟩ := (ConfigDraft.setMember_some hm).mp hnext
        obtain ⟨typed, apart⟩ := ih.mp ⟨filled, hfill⟩
        have later : ∀ n ∈ ms, ∀ other, ConfigField.ofKey? n.1 = some other →
            draft.has other = false ∧ other ≠ field := by
          intro n hn other hother
          have free := (typed n hn other hother).1
          rw [ConfigDraft.has_set hset] at free
          simpa using free
        refine ⟨⟨?_, fun n hn other hother => ?_⟩, fun n hn other same hother => ?_, apart⟩
        · intro other same
          obtain rfl := Option.some.inj same
          exact ⟨fresh, ConfigDraft.exists_set_iff.mp ⟨next, hset⟩⟩
        · exact ⟨(later n hn other hother).1, (typed n hn other hother).2⟩
        · exact (later n hn other hother).2 (Option.some.inj same).symm
      · rintro ⟨⟨here, typed⟩, first, apart⟩
        obtain ⟨fresh, accepted⟩ := here field rfl
        obtain ⟨next, hset⟩ : ∃ next, draft.set field m.2 = .ok next :=
          ConfigDraft.exists_set_iff.mpr accepted
        have free : ∀ n ∈ ms, ∀ other, ConfigField.ofKey? n.1 = some other →
            next.has other = false ∧ other.accepts n.2 = true := by
          intro n hn other hother
          obtain ⟨unset, accepted⟩ := typed n hn other hother
          refine ⟨?_, accepted⟩
          rw [ConfigDraft.has_set hset, unset]
          have different : other ≠ field := fun same => first n hn field rfl (same ▸ hother)
          simpa using different
        obtain ⟨filled, hfill⟩ := ih.mpr ⟨free, apart⟩
        exact ⟨filled, next, (ConfigDraft.setMember_some hm).mpr ⟨fresh, hset⟩, hfill⟩

theorem customValue_setMember {m : String × Value} {draft next : ConfigDraft}
    (h : draft.setMember m = .ok next) (pattern : String) :
    next.customValue.join = some pattern ↔ draft.customValue.join = some pattern ∨
      ConfigField.ofKey? m.1 = some .customValue ∧ m.2 = .string pattern := by
  cases hm : ConfigField.ofKey? m.1 with
  | none =>
    rw [ConfigDraft.setMember_none hm] at h
    obtain rfl := Except.ok.inj h
    simp
  | some field =>
    obtain ⟨fresh, hset⟩ := (ConfigDraft.setMember_some hm).mp h
    cases field with
    | useCalc =>
      obtain ⟨flag, set⟩ := ConfigDraft.set_useCalc hset
      obtain rfl := Except.ok.inj ((set draft).symm.trans hset)
      simp
    | customValue =>
      have empty : draft.customValue = none := by simpa [ConfigDraft.has] using fresh
      cases hv : m.2 with
      | null | string _ =>
        rw [hv] at hset
        obtain rfl := Except.ok.inj hset
        simp [empty]
      | bool _ | number _ | array | object =>
        rw [hv] at hset
        cases hset

/-- The pattern is that of a member that gives one. -/
theorem customValue_of_fill {ms : List (String × Value)} {draft filled : ConfigDraft}
    (h : fill draft ms = .ok filled) (pattern : String) :
    filled.customValue.join = some pattern ↔ draft.customValue.join = some pattern ∨
      ∃ m ∈ ms, ConfigField.ofKey? m.1 = some .customValue ∧ m.2 = .string pattern := by
  induction ms generalizing draft with
  | nil =>
    obtain rfl := Except.ok.inj h
    simp
  | cons m ms ih =>
    rw [fill_cons, bind_eq_ok_iff] at h
    obtain ⟨next, hnext, h⟩ := h
    rw [ih h, customValue_setMember hnext pattern, or_assoc, List.exists_mem_cons_iff]

/-! ### The members that count -/

/-- The value that counts for a key: that of its last member. -/
def lastValue? (ms : List (String × Value)) (key : String) : Option Value := ms.reverse.lookup key

theorem lastValue?_concat (ms : List (String × Value)) (m : String × Value) (key : String) :
    lastValue? (ms ++ [m]) key = if key = m.1 then some m.2 else lastValue? ms key := by
  unfold lastValue?
  rw [List.reverse_concat, List.lookup_cons]
  by_cases same : key = m.1
  · simp [same]
  · simp [same, beq_false_of_ne same]

theorem exists_lastValue?_iff {ms : List (String × Value)} {key : String} :
    (∃ value, lastValue? ms key = some value) ↔ key ∈ ms.map Prod.fst := by
  rw [← Option.isSome_iff_exists, lastValue?, List.lookup_isSome_iff]
  simp only [List.mem_reverse, beq_iff_eq, List.mem_map]
  exact exists_congr fun m => and_congr_right fun _ => eq_comm

def KeySorted (ms : List (String × Value)) : Prop := ms.Pairwise fun m n => m.1 < n.1

theorem mem_insertMember {key : String} {value : Value} {sorted : List (String × Value)}
    (h : KeySorted sorted) (m : String × Value) :
    m ∈ insertMember key value sorted ↔ m = (key, value) ∨ m ∈ sorted ∧ m.1 ≠ key := by
  induction sorted with
  | nil => simp [insertMember]
  | cons next sorted ih =>
    obtain ⟨nextKey, nextValue⟩ := next
    obtain ⟨first, later⟩ := List.pairwise_cons.mp h
    rw [insertMember]
    split
    · rename_i before
      have ne : ∀ n ∈ (nextKey, nextValue) :: sorted, n.1 ≠ key :=
        List.forall_mem_cons.mpr
          ⟨before.ne', fun n hn => (before.trans (first n hn)).ne'⟩
      rw [List.mem_cons]
      exact or_congr_right ⟨fun hm => ⟨hm, ne m hm⟩, And.left⟩
    · split
      · rename_i same
        subst same
        have ne : ∀ n ∈ sorted, n.1 ≠ key := fun n hn => (first n hn).ne'
        rw [List.mem_cons, List.mem_cons]
        constructor
        · rintro (rfl | hm)
          · exact .inl rfl
          · exact .inr ⟨.inr hm, ne m hm⟩
        · rintro (rfl | ⟨rfl | hm, different⟩)
          · exact .inl rfl
          · exact absurd rfl different
          · exact .inr hm
      · rename_i different
        rw [List.mem_cons, List.mem_cons, ih later]
        constructor
        · rintro (rfl | rfl | ⟨hm, hne⟩)
          · exact .inr ⟨.inl rfl, Ne.symm different⟩
          · exact .inl rfl
          · exact .inr ⟨.inr hm, hne⟩
        · rintro (rfl | ⟨rfl | hm, hne⟩)
          · exact .inr (.inl rfl)
          · exact .inl rfl
          · exact .inr (.inr ⟨hm, hne⟩)

theorem KeySorted.insertMember {sorted : List (String × Value)} (h : KeySorted sorted)
    (key : String) (value : Value) : KeySorted (insertMember key value sorted) := by
  induction sorted with
  | nil => exact List.pairwise_singleton _ _
  | cons next sorted ih =>
    obtain ⟨nextKey, nextValue⟩ := next
    obtain ⟨first, later⟩ := List.pairwise_cons.mp h
    rw [Config.insertMember]
    split
    · rename_i before
      refine List.pairwise_cons.mpr ⟨List.forall_mem_cons.mpr ⟨before, fun n hn => ?_⟩, h⟩
      exact before.trans (first n hn)
    · rename_i notBefore
      split
      · rename_i same
        subst same
        exact List.pairwise_cons.mpr ⟨first, later⟩
      · rename_i different
        refine List.pairwise_cons.mpr ⟨fun n hn => ?_, ih later⟩
        rcases (mem_insertMember later n).mp hn with rfl | ⟨hn, -⟩
        · exact lt_of_le_of_ne (not_lt.mp notBefore) (Ne.symm different)
        · exact first n hn

theorem sortedMembers_concat (ms : List (String × Value)) (m : String × Value) :
    sortedMembers [] (ms ++ [m]) = insertMember m.1 (finiteValue m.2) (sortedMembers [] ms) :=
  List.foldl_append

theorem keySorted_sortedMembers (ms : List (String × Value)) :
    KeySorted (sortedMembers [] ms) := by
  induction ms using List.reverseRecOn with
  | nil => exact List.Pairwise.nil
  | append_singleton ms m ih =>
    rw [sortedMembers_concat]
    exact ih.insertMember _ _

/-- The members in the order of their keys are those that count. -/
theorem mem_sortedMembers {ms : List (String × Value)} {key : String} {value : Value} :
    (key, value) ∈ sortedMembers [] ms ↔ (lastValue? ms key).map finiteValue = some value := by
  induction ms using List.reverseRecOn with
  | nil => simp [sortedMembers, lastValue?]
  | append_singleton ms m ih =>
    rw [sortedMembers_concat, mem_insertMember (keySorted_sortedMembers ms), ih,
      lastValue?_concat]
    by_cases same : key = m.1
    · simp [same, eq_comm]
    · simp [same]

/-! ### What is reported -/

/-- Each field has a value of its type, as far as one counts for it, and is given by one key. -/
structure FieldsReadable (ms : List (String × Value)) : Prop where
  typed : ∀ field : ConfigField, ∀ key ∈ field.keys, ∀ value, lastValue? ms key = some value →
    field.accepts (finiteValue value) = true
  oneKey : ∀ field : ConfigField, ∀ key ∈ field.keys, ∀ other ∈ field.keys,
    key ∈ ms.map Prod.fst → other ∈ ms.map Prod.fst → key = other

theorem exists_fill_sortedMembers_iff {ms : List (String × Value)} :
    (∃ draft, fill {} (sortedMembers [] ms) = .ok draft) ↔ FieldsReadable ms := by
  have present {key : String} (h : key ∈ ms.map Prod.fst) :
      ∃ value, (key, value) ∈ sortedMembers [] ms := by
    obtain ⟨value, hvalue⟩ := exists_lastValue?_iff.mpr h
    exact ⟨finiteValue value, mem_sortedMembers.mpr (by rw [hvalue]; rfl)⟩
  have counts {m : String × Value} (h : m ∈ sortedMembers [] ms) :
      ∃ value, lastValue? ms m.1 = some value ∧ finiteValue value = m.2 :=
    Option.map_eq_some_iff.mp (mem_sortedMembers.mp h)
  rw [exists_fill_iff]
  constructor
  · rintro ⟨typed, apart⟩
    constructor
    · intro field key hkey value hvalue
      have hmem : (key, finiteValue value) ∈ sortedMembers [] ms :=
        mem_sortedMembers.mpr (by rw [hvalue]; rfl)
      exact (typed _ hmem field (ConfigField.ofKey?_eq_some_iff.mpr hkey)).2
    · intro field key hkey other hother hpresent hpresent'
      obtain ⟨value, hvalue⟩ := present hpresent
      obtain ⟨value', hvalue'⟩ := present hpresent'
      have hfield := ConfigField.ofKey?_eq_some_iff.mpr hkey
      have hfield' := ConfigField.ofKey?_eq_some_iff.mpr hother
      by_contra different
      have symm : Std.Symm fun m n : String × Value => ∀ field,
          ConfigField.ofKey? m.1 = some field → ConfigField.ofKey? n.1 ≠ some field :=
        ⟨fun m n h field hn hm => h field hm hn⟩
      exact apart.forall hvalue hvalue' (fun same => different (congrArg Prod.fst same)) field hfield
        hfield'
  · rintro ⟨typed, oneKey⟩
    constructor
    · intro m hm field hfield
      obtain ⟨value, hvalue, same⟩ := counts hm
      have empty : ({} : ConfigDraft).has field = false := by cases field <;> rfl
      rw [← same]
      exact ⟨empty, typed field m.1 (ConfigField.ofKey?_eq_some_iff.mp hfield) value hvalue⟩
    · refine (keySorted_sortedMembers ms).imp_of_mem fun {m n} hm hn before field hm' hn' => ?_
      obtain ⟨value, hvalue, -⟩ := counts hm
      obtain ⟨value', hvalue', -⟩ := counts hn
      have same := oneKey field m.1 (ConfigField.ofKey?_eq_some_iff.mp hm') n.1
        (ConfigField.ofKey?_eq_some_iff.mp hn') (exists_lastValue?_iff.mp ⟨value, hvalue⟩)
        (exists_lastValue?_iff.mp ⟨value', hvalue'⟩)
      exact before.ne same

theorem finiteValue_eq_string_iff {value : Value} {text : String} :
    finiteValue value = .string text ↔ value = .string text := by
  constructor
  · intro h
    unfold finiteValue at h
    split at h
    · cases h
    · cases h
    · exact h
  · rintro rfl
    rfl

/-- A pattern that counts for its key and is refused. -/
def HasRefusedPattern (ms : List (String × Value)) (cause : SettingsError) : Prop :=
  ∃ key ∈ ConfigField.customValue.keys, ∃ pattern,
    lastValue? ms key = some (.string pattern) ∧ PatternRefused pattern cause

theorem settingsError?_of_fill {ms : List (String × Value)} {draft : ConfigDraft}
    (h : fill {} (sortedMembers [] ms) = .ok draft) (cause : SettingsError) :
    draft.config.settingsError? = some cause ↔ HasRefusedPattern ms cause := by
  rw [settingsError?_eq_some_iff]
  have given (pattern : String) : draft.config.customValue = some pattern ↔
      ∃ key ∈ ConfigField.customValue.keys, lastValue? ms key = some (.string pattern) := by
    refine (customValue_of_fill h pattern).trans ?_
    constructor
    · rintro (none | ⟨⟨key, value⟩, hm, hfield, rfl⟩)
      · cases none
      · obtain ⟨value, hvalue, same⟩ := Option.map_eq_some_iff.mp (mem_sortedMembers.mp hm)
        obtain rfl := finiteValue_eq_string_iff.mp same
        exact ⟨key, ConfigField.ofKey?_eq_some_iff.mp hfield, hvalue⟩
    · rintro ⟨key, hkey, hvalue⟩
      have hm : (key, .string pattern) ∈ sortedMembers [] ms :=
        mem_sortedMembers.mpr (by rw [hvalue]; rfl)
      exact .inr ⟨_, hm, ConfigField.ofKey?_eq_some_iff.mpr hkey, rfl⟩
  constructor
  · rintro ⟨pattern, hpattern, refused⟩
    obtain ⟨key, hkey, hvalue⟩ := (given pattern).mp hpattern
    exact ⟨key, hkey, pattern, hvalue, refused⟩
  · rintro ⟨key, hkey, pattern, hvalue, refused⟩
    exact ⟨pattern, (given pattern).mpr ⟨key, hkey, hvalue⟩, refused⟩

theorem valueProblem?_unreadable_iff {ms : List (String × Value)} :
    (∃ cause, valueProblem? (sortedMembers [] ms) = some (.unreadable cause)) ↔
      ¬FieldsReadable ms := by
  rw [← exists_fill_sortedMembers_iff, valueProblem?]
  cases fill {} (sortedMembers [] ms) <;> simp

theorem valueProblem?_settings_iff {ms : List (String × Value)} {cause : SettingsError} :
    valueProblem? (sortedMembers [] ms) = some (.settings cause) ↔
      FieldsReadable ms ∧ HasRefusedPattern ms cause := by
  rw [← exists_fill_sortedMembers_iff, valueProblem?]
  cases hfill : fill {} (sortedMembers [] ms) with
  | error cause' => simp
  | ok draft => simp [settingsError?_of_fill hfill]

theorem valueProblem?_ne_unknownKey (ms : List (String × Value)) (key : String) :
    valueProblem? ms ≠ some (.unknownKey key) := by
  unfold valueProblem?
  cases fill {} ms <;> simp

/-- What is reported about an object: its keys without a meaning, and a problem of its values. -/
theorem problems_eq {text : List Char} {members : List (Key × Document)}
    {ms : List (String × Value)} (object : Document.read text = .ok (.object members))
    (checked : Document.checkMembers members = .ok ()) (values : memberValues members = .ok ms) :
    problems text = .ok ((unknownKeys (sortedMembers [] ms)).map .unknownKey ++
      (valueProblem? (sortedMembers [] ms)).toList) := by
  have check : (Document.object members).check = .ok () := checked
  rw [problems, object]
  simp only [Except.mapError, ok_bind, check, sortMembers_eq values]
  rfl

theorem mem_unknownKeys {ms : List (String × Value)} {key : String} :
    key ∈ unknownKeys (sortedMembers [] ms) ↔ key ∈ ms.map Prod.fst ∧ key ∉ knownKeys := by
  rw [unknownKeys, List.mem_filter, mem_keys_sortedMembers]
  simp

end Config

/-- The entries that begin with the key of the pattern are those of refused patterns. -/
theorem ConfigProblem.isPrefix_message_iff (p : ConfigProblem) :
    "customValueRegExp:".toList <+: p.message.toList ↔ ∃ cause, p = .settings cause := by
  cases p with
  | unknownKey key =>
    have words : (unknownKey key).message = "unknown key '" ++ key ++ "'" := rfl
    rw [words]
    simp
  | unreadable cause =>
    cases cause with
    | value cause =>
      have words : (unreadable (.value cause)).message = cause.message := rfl
      rw [words]
      cases cause <;> simp [ValueError.message]
    | duplicate field =>
      have words : (unreadable (.duplicate field)).message =
          "duplicate field \x60" ++ field.key ++ "\x60" := rfl
      rw [words]
      simp
    | unexpected found place =>
      have words : (unreadable (.unexpected found place)).message =
          "invalid type: " ++ found.description .json ++ ", expected " ++ place.description := rfl
      rw [words]
      simp
  | settings cause =>
    have words : (settings cause).message = "customValueRegExp" ++ ": " ++ cause.message := rfl
    rw [words]
    simp

namespace Config

/-- If all values of an object can be read, every key without a meaning is reported. A pattern that
counts and is refused is reported exactly if all fields can be read; if not, the list has the first
problem of a field instead. -/
theorem problems_of_object {text : List Char} {members : List (Key × Document)}
    (object : Document.read text = .ok (.object members)) :
    (∀ cause, Document.checkMembers members = .error cause → problems text = .error (.value cause)) ∧
      (Document.checkMembers members = .ok () → ∃ ms found, memberValues members = .ok ms ∧
        problems text = .ok found ∧
        (∀ key, .unknownKey key ∈ found ↔ key ∈ ms.map Prod.fst ∧ key ∉ knownKeys) ∧
        ((∃ cause, .unreadable cause ∈ found) ↔ ¬FieldsReadable ms) ∧
        (∀ cause, .settings cause ∈ found ↔ FieldsReadable ms ∧ HasRefusedPattern ms cause) ∧
        ((∃ p ∈ found, "customValueRegExp:".toList <+: p.message.toList) ↔
          FieldsReadable ms ∧ ∃ cause, HasRefusedPattern ms cause)) := by
  constructor
  · intro cause unchecked
    have check : (Document.object members).check = .error cause := unchecked
    rw [problems, object]
    simp only [Except.mapError, ok_bind, check]
    rfl
  · intro checked
    obtain ⟨ms, values⟩ := exists_memberValues checked
    have settings (cause : SettingsError) :
        .settings cause ∈ (unknownKeys (sortedMembers [] ms)).map .unknownKey ++
          (valueProblem? (sortedMembers [] ms)).toList ↔
          FieldsReadable ms ∧ HasRefusedPattern ms cause := by
      rw [← valueProblem?_settings_iff]
      simp
    refine ⟨ms, _, values, problems_eq object checked values, fun key => ?_, ?_, settings, ?_⟩
    · rw [← mem_unknownKeys]
      simp [valueProblem?_ne_unknownKey]
    · rw [← valueProblem?_unreadable_iff]
      simp
    · simp only [ConfigProblem.isPrefix_message_iff]
      constructor
      · rintro ⟨_, reported, cause, rfl⟩
        obtain ⟨readable, refused⟩ := (settings cause).mp reported
        exact ⟨readable, cause, refused⟩
      · rintro ⟨readable, cause, refused⟩
        exact ⟨_, (settings cause).mpr ⟨readable, refused⟩, cause, rfl⟩

theorem unreadable_open : ∃ cause, CustomValue.read? "(".toList = .error cause := by
  have refused : (CustomValue.read? "(".toList).toOption.isNone = true := by decide +kernel
  cases hread : CustomValue.read? "(".toList with
  | error cause => exact ⟨cause, rfl⟩
  | ok custom =>
    rw [hread] at refused
    cases refused

/-- A key without a meaning does not hide a pattern. -/
theorem problems_of_object_unknown :
    let text := "\x7bextra: true, customValueRegExp: \"(\"\x7d".toList
    ∃ found, problems text = .ok found ∧ .unknownKey "extra" ∈ found ∧
      ∃ p ∈ found, "customValueRegExp:".toList <+: p.message.toList := by
  intro text
  obtain ⟨members, object, checked, values⟩ : ∃ members,
      Document.read text = .ok (.object members) ∧ Document.checkMembers members = .ok () ∧
        memberValues members = .ok [("extra", .bool true), ("customValueRegExp", .string "(")] :=
    ⟨[("extra".toList.map .literal, .bool true),
      ("customValueRegExp".toList.map .literal, .string ("(".toList.map .literal))], rfl, rfl, rfl⟩
  obtain ⟨-, reports⟩ := problems_of_object object
  obtain ⟨ms, found, hms, hfound, unknown, -, -, pattern⟩ := reports checked
  obtain rfl := Except.ok.inj (hms.symm.trans values)
  have readable : FieldsReadable [("extra", .bool true), ("customValueRegExp", .string "(")] :=
    exists_fill_sortedMembers_iff.mp ⟨⟨some (some "("), none⟩, rfl⟩
  obtain ⟨cause, unread⟩ := unreadable_open
  have reported := pattern.mpr
    ⟨readable, cause, "customValueRegExp", by decide, "(", rfl, .unreadable unread⟩
  exact ⟨found, hfound, (unknown "extra").mpr (by decide), reported⟩

/-- A value of the wrong type hides the pattern beside it, which is refused. -/
theorem problems_hides_pattern :
    let text := "\x7bcustomValueRegExp: \"(\", useCalc: \"yes\"\x7d".toList
    (∃ members, Document.read text = .ok (.object members) ∧
      Document.checkMembers members = .ok () ∧ memberValues members =
        .ok [("customValueRegExp", .string "("), ("useCalc", .string "yes")]) ∧
      (∃ cause, CustomValue.read? "(".toList = .error cause) ∧
      ∃ found, problems text = .ok found ∧
        ¬∃ p ∈ found, "customValueRegExp:".toList <+: p.message.toList := by
  intro text
  obtain ⟨members, object, checked, values⟩ : ∃ members,
      Document.read text = .ok (.object members) ∧ Document.checkMembers members = .ok () ∧
        memberValues members = .ok [("customValueRegExp", .string "("), ("useCalc", .string "yes")] :=
    ⟨[("customValueRegExp".toList.map .literal, .string ("(".toList.map .literal)),
      ("useCalc".toList.map .literal, .string ("yes".toList.map .literal))], rfl, rfl, rfl⟩
  have noUnknown : unknownKeys (sortedMembers []
      [("customValueRegExp", .string "("), ("useCalc", .string "yes")]) = [] := rfl
  have wrongType : valueProblem? (sortedMembers []
      [("customValueRegExp", .string "("), ("useCalc", .string "yes")]) =
        some (.unreadable (.unexpected (.string "yes") (.field .useCalc))) := rfl
  have found := problems_eq object checked values
  rw [noUnknown, wrongType] at found
  refine ⟨⟨members, object, checked, values⟩, unreadable_open, _, found, ?_⟩
  rintro ⟨p, hp, about⟩
  obtain ⟨cause, rfl⟩ := p.isPrefix_message_iff.mp about
  simp at hp

end Config

end MediaRange
