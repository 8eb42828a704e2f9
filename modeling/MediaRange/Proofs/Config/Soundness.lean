import MediaRange.Config.Verification
import MediaRange.Proofs.Results

/-!
# Verified configurations

A text is verified by its members in the order of their keys, of which the last one counts for each
key, and read by all its members in their own order. `verified_usable_iff` shows that a verified text
gives an engine if both see the same members, and `verified_duplicate` that they need not.
-/

namespace MediaRange

open Json5

/-! ### Filling fields in any order -/

namespace ConfigDraft

/-- Fills the field of a member, if it has one. -/
def setMember (draft : ConfigDraft) (m : String × Value) : Except ConfigError ConfigDraft :=
  match ConfigField.ofKey? m.1 with
  | none => .ok draft
  | some field => if draft.has field then .error (.duplicate field) else draft.set field m.2

theorem setMember_none {m : String × Value} (h : ConfigField.ofKey? m.1 = none)
    (draft : ConfigDraft) : draft.setMember m = .ok draft := by
  rw [setMember, h]

theorem setMember_some {m : String × Value} {field : ConfigField}
    (h : ConfigField.ofKey? m.1 = some field) {draft filled : ConfigDraft} :
    draft.setMember m = .ok filled ↔ draft.has field = false ∧ draft.set field m.2 = .ok filled := by
  rw [setMember, h]
  cases hhas : draft.has field <;> simp [hhas]

theorem set_customValue {draft filled : ConfigDraft} {value : Value}
    (h : draft.set .customValue value = .ok filled) :
    ∃ pattern, ∀ other : ConfigDraft,
      other.set .customValue value = .ok { other with customValue := some pattern } := by
  cases value with
  | null => exact ⟨none, fun _ => rfl⟩
  | string text => exact ⟨some text, fun _ => rfl⟩
  | bool _ | number _ | array | object => cases h

theorem set_useCalc {draft filled : ConfigDraft} {value : Value}
    (h : draft.set .useCalc value = .ok filled) :
    ∃ flag, ∀ other : ConfigDraft,
      other.set .useCalc value = .ok { other with useCalc := some flag } := by
  cases value with
  | bool flag => exact ⟨flag, fun _ => rfl⟩
  | null | string _ | number _ | array | object => cases h

theorem has_set {draft filled : ConfigDraft} {field : ConfigField} {value : Value}
    (h : draft.set field value = .ok filled) (other : ConfigField) :
    filled.has other = (draft.has other || decide (other = field)) := by
  cases field with
  | customValue =>
    obtain ⟨pattern, hset⟩ := set_customValue h
    obtain rfl := Except.ok.inj ((hset draft).symm.trans h)
    cases other <;> simp [has]
  | useCalc =>
    obtain ⟨flag, hset⟩ := set_useCalc h
    obtain rfl := Except.ok.inj ((hset draft).symm.trans h)
    cases other <;> simp [has]

theorem set_comm {draft next filled : ConfigDraft} {first second : ConfigField} {v w : Value}
    (different : first ≠ second) (hfirst : draft.set first v = .ok next)
    (hsecond : next.set second w = .ok filled) :
    ∃ other, draft.set second w = .ok other ∧ other.set first v = .ok filled := by
  cases first with
  | customValue =>
    cases second with
    | customValue => exact absurd rfl different
    | useCalc =>
      obtain ⟨pattern, setPattern⟩ := set_customValue hfirst
      obtain ⟨flag, setFlag⟩ := set_useCalc hsecond
      obtain rfl := Except.ok.inj ((setPattern draft).symm.trans hfirst)
      exact ⟨_, setFlag draft, (setPattern _).trans ((setFlag _).symm.trans hsecond)⟩
  | useCalc =>
    cases second with
    | customValue =>
      obtain ⟨flag, setFlag⟩ := set_useCalc hfirst
      obtain ⟨pattern, setPattern⟩ := set_customValue hsecond
      obtain rfl := Except.ok.inj ((setFlag draft).symm.trans hfirst)
      exact ⟨_, setPattern draft, (setFlag _).trans ((setPattern _).symm.trans hsecond)⟩
    | useCalc => exact absurd rfl different

theorem setMember_comm {draft next filled : ConfigDraft} {a b : String × Value}
    (ha : draft.setMember a = .ok next) (hb : next.setMember b = .ok filled) :
    ∃ other, draft.setMember b = .ok other ∧ other.setMember a = .ok filled := by
  cases fa : ConfigField.ofKey? a.1 with
  | none =>
    rw [setMember_none fa] at ha
    obtain rfl := Except.ok.inj ha
    exact ⟨filled, hb, setMember_none fa filled⟩
  | some first =>
    cases fb : ConfigField.ofKey? b.1 with
    | none =>
      rw [setMember_none fb] at hb
      obtain rfl := Except.ok.inj hb
      exact ⟨draft, setMember_none fb draft, ha⟩
    | some second =>
      obtain ⟨freshA, setA⟩ := (setMember_some fa).mp ha
      obtain ⟨freshB, setB⟩ := (setMember_some fb).mp hb
      -- The second of two members with one key would have been refused.
      have different : first ≠ second := by
        rintro rfl
        rw [has_set setA] at freshB
        simp at freshB
      obtain ⟨other, setB', setA'⟩ := set_comm different setA setB
      have freshB' : draft.has second = false := by
        rw [has_set setA] at freshB
        exact (Bool.or_eq_false_iff.mp freshB).1
      have freshA' : other.has first = false := by
        rw [has_set setB', freshA]
        simpa using different
      exact ⟨other, (setMember_some fb).mpr ⟨freshB', setB'⟩,
        (setMember_some fa).mpr ⟨freshA', setA'⟩⟩

end ConfigDraft

namespace Config

theorem fill_cons (draft : ConfigDraft) (m : String × Value) (ms : List (String × Value)) :
    fill draft (m :: ms) = draft.setMember m >>= fun next => fill next ms := by
  obtain ⟨key, value⟩ := m
  rw [fill, ConfigDraft.setMember]
  cases ConfigField.ofKey? key with
  | none => rfl
  | some field =>
    dsimp only
    split <;> rfl

theorem fill_perm {u v : List (String × Value)} (h : u.Perm v) {draft filled : ConfigDraft}
    (hu : fill draft u = .ok filled) : fill draft v = .ok filled := by
  induction h generalizing draft with
  | nil => exact hu
  | cons m _ ih =>
    rw [fill_cons, bind_eq_ok_iff] at hu ⊢
    obtain ⟨next, hnext, hu⟩ := hu
    exact ⟨next, hnext, ih hu⟩
  | swap a b ms =>
    rw [fill_cons, bind_eq_ok_iff] at hu ⊢
    obtain ⟨next, hb, hu⟩ := hu
    rw [fill_cons, bind_eq_ok_iff] at hu
    obtain ⟨last, ha, hu⟩ := hu
    obtain ⟨other, ha, hb⟩ := ConfigDraft.setMember_comm hb ha
    refine ⟨other, ha, ?_⟩
    rw [fill_cons, bind_eq_ok_iff]
    exact ⟨last, hb, hu⟩
  | trans _ _ ih₁ ih₂ => exact ih₂ (ih₁ hu)

theorem has_of_fill {ms : List (String × Value)} {draft filled : ConfigDraft}
    (h : fill draft ms = .ok filled) {m : String × Value} (hm : m ∈ ms) {field : ConfigField}
    (hfield : ConfigField.ofKey? m.1 = some field) : draft.has field = false := by
  induction ms generalizing draft with
  | nil => cases hm
  | cons first ms ih =>
    rw [fill_cons, bind_eq_ok_iff] at h
    obtain ⟨next, hnext, h⟩ := h
    rcases List.mem_cons.mp hm with rfl | hm
    · exact ((ConfigDraft.setMember_some hfield).mp hnext).1
    · have later := ih h hm
      cases hfirst : ConfigField.ofKey? first.1 with
      | none =>
        rw [ConfigDraft.setMember_none hfirst] at hnext
        obtain rfl := Except.ok.inj hnext
        exact later
      | some other =>
        rw [ConfigDraft.has_set ((ConfigDraft.setMember_some hfirst).mp hnext).2] at later
        exact (Bool.or_eq_false_iff.mp later).1

theorem finiteValue_of_set {draft filled : ConfigDraft} {field : ConfigField} {value : Value}
    (h : draft.set field value = .ok filled) : finiteValue value = value := by
  cases value with
  | number _ => cases field <;> cases h
  | null | bool _ | string _ | array | object => rfl

/-- Members that fill fields have different keys, and no numbers as their values. -/
theorem lossless_of_fill {ms : List (String × Value)} {draft filled : ConfigDraft}
    (h : fill draft ms = .ok filled)
    (known : ∀ m ∈ ms, ∃ field, ConfigField.ofKey? m.1 = some field) :
    (ms.map Prod.fst).Nodup ∧ ∀ m ∈ ms, finiteValue m.2 = m.2 := by
  induction ms generalizing draft with
  | nil => exact ⟨List.nodup_nil, List.forall_mem_nil _⟩
  | cons m ms ih =>
    obtain ⟨⟨field, hfield⟩, later⟩ := List.forall_mem_cons.mp known
    rw [fill_cons, bind_eq_ok_iff] at h
    obtain ⟨next, hnext, h⟩ := h
    obtain ⟨nodup, finite⟩ := ih h later
    have hset := ((ConfigDraft.setMember_some hfield).mp hnext).2
    refine ⟨?_, List.forall_mem_cons.mpr ⟨finiteValue_of_set hset, finite⟩⟩
    rw [List.map_cons, List.nodup_cons]
    refine ⟨?_, nodup⟩
    intro twice
    obtain ⟨other, hother, sameKey⟩ := List.mem_map.mp twice
    have fresh := has_of_fill h hother (sameKey ▸ hfield)
    rw [ConfigDraft.has_set hset] at fresh
    simp at fresh

/-! ### Members in the order of their keys -/

theorem insertMember_perm {key : String} {value : Value} {sorted : List (String × Value)}
    (fresh : key ∉ sorted.map Prod.fst) :
    (insertMember key value sorted).Perm ((key, value) :: sorted) := by
  induction sorted with
  | nil => exact .refl _
  | cons next sorted ih =>
    obtain ⟨nextKey, nextValue⟩ := next
    rw [List.map_cons, List.mem_cons, not_or] at fresh
    rw [insertMember]
    split
    · exact .refl _
    · rw [if_neg fresh.1]
      exact ((ih fresh.2).cons _).trans (.swap _ _ _)

theorem mem_keys_insertMember (key : String) (value : Value) (sorted : List (String × Value))
    (k : String) :
    k ∈ (insertMember key value sorted).map Prod.fst ↔ k = key ∨ k ∈ sorted.map Prod.fst := by
  induction sorted with
  | nil => simp [insertMember]
  | cons next sorted ih =>
    obtain ⟨nextKey, nextValue⟩ := next
    rw [insertMember]
    split
    · simp
    · split
      · rename_i same
        subst same
        simp
      · rw [List.map_cons, List.mem_cons, ih, List.map_cons, List.mem_cons]
        exact or_left_comm

/-- The members of a text in the order of their keys, as far as JSON has them. -/
def sortedMembers (sorted ms : List (String × Value)) : List (String × Value) :=
  ms.foldl (fun sorted m => insertMember m.1 (finiteValue m.2) sorted) sorted

theorem mem_keys_sortedMembers (sorted ms : List (String × Value)) (k : String) :
    k ∈ (sortedMembers sorted ms).map Prod.fst ↔
      k ∈ ms.map Prod.fst ∨ k ∈ sorted.map Prod.fst := by
  induction ms generalizing sorted with
  | nil => simp [sortedMembers]
  | cons m ms ih =>
    show k ∈ (sortedMembers (insertMember m.1 (finiteValue m.2) sorted) ms).map Prod.fst ↔ _
    rw [ih, mem_keys_insertMember, List.map_cons, List.mem_cons]
    exact or_left_comm.trans or_assoc.symm

theorem sortedMembers_perm {ms sorted : List (String × Value)}
    (nodup : (ms.map Prod.fst).Nodup) (fresh : ∀ m ∈ ms, m.1 ∉ sorted.map Prod.fst)
    (finite : ∀ m ∈ ms, finiteValue m.2 = m.2) :
    (sortedMembers sorted ms).Perm (ms ++ sorted) := by
  induction ms generalizing sorted with
  | nil => exact .refl _
  | cons m ms ih =>
    obtain ⟨freshHere, freshLater⟩ := List.forall_mem_cons.mp fresh
    obtain ⟨finiteHere, finiteLater⟩ := List.forall_mem_cons.mp finite
    rw [List.map_cons, List.nodup_cons] at nodup
    have inserted : (insertMember m.1 (finiteValue m.2) sorted).Perm (m :: sorted) := by
      rw [finiteHere]
      exact insertMember_perm freshHere
    have freshNext : ∀ other ∈ ms,
        other.1 ∉ (insertMember m.1 (finiteValue m.2) sorted).map Prod.fst := by
      intro other hother
      rw [mem_keys_insertMember, not_or]
      refine ⟨?_, freshLater other hother⟩
      intro same
      exact nodup.1 (same ▸ List.mem_map_of_mem hother)
    exact (ih nodup.2 freshNext finiteLater).trans
      ((inserted.append_left ms).trans List.perm_middle)

/-! ### Both ways to read a text -/

def memberValues : List (Key × Document) → Except ValueError (List (String × Value))
  | [] => .ok []
  | (key, document) :: members => do
    let key ← stringValue key
    let value ← document.value
    return (key, value) :: (← memberValues members)

theorem memberValues_cons {key : Key} {document : Document} {members : List (Key × Document)}
    {ms : List (String × Value)} :
    memberValues ((key, document) :: members) = .ok ms ↔
      ∃ name value rest, stringValue key = .ok name ∧ document.value = .ok value ∧
        memberValues members = .ok rest ∧ ms = (name, value) :: rest := by
  rw [memberValues]
  simp only [bind_eq_ok_iff, pure, Except.pure, Except.ok.injEq]
  constructor
  · rintro ⟨name, hname, value, hvalue, rest, hrest, rfl⟩
    exact ⟨name, value, rest, hname, hvalue, hrest, rfl⟩
  · rintro ⟨name, value, rest, hname, hvalue, hrest, rfl⟩
    exact ⟨name, hname, value, hvalue, rest, hrest, rfl⟩

theorem checkMembers_cons {key : Key} {document : Document} {members : List (Key × Document)}
    (h : Document.checkMembers ((key, document) :: members) = .ok ()) :
    (∃ name, stringValue key = .ok name) ∧ document.check = .ok () ∧
      Document.checkMembers members = .ok () := by
  rw [Document.checkMembers] at h
  obtain ⟨name, hname, h⟩ := bind_eq_ok_iff.mp h
  obtain ⟨_, hcheck, h⟩ := bind_eq_ok_iff.mp h
  exact ⟨⟨name, hname⟩, hcheck, h⟩

theorem exists_value {document : Document} (h : document.check = .ok ()) :
    ∃ value, document.value = .ok value := by
  cases document with
  | null | bool _ | array _ | object _ => exact ⟨_, rfl⟩
  | number literal =>
    rw [Document.check, map_eq_ok_iff] at h
    obtain ⟨number, hnumber, -⟩ := h
    exact ⟨.number number, map_eq_ok_iff.mpr ⟨number, hnumber, rfl⟩⟩
  | string parts =>
    rw [Document.check, map_eq_ok_iff] at h
    obtain ⟨text, htext, -⟩ := h
    exact ⟨.string text, map_eq_ok_iff.mpr ⟨text, htext, rfl⟩⟩

theorem exists_memberValues {members : List (Key × Document)}
    (h : Document.checkMembers members = .ok ()) : ∃ ms, memberValues members = .ok ms := by
  induction members with
  | nil => exact ⟨[], rfl⟩
  | cons member members ih =>
    obtain ⟨key, document⟩ := member
    obtain ⟨⟨name, hname⟩, hcheck, h⟩ := checkMembers_cons h
    obtain ⟨value, hvalue⟩ := exists_value hcheck
    obtain ⟨rest, hrest⟩ := ih h
    exact ⟨_, memberValues_cons.mpr ⟨name, value, rest, hname, hvalue, hrest, rfl⟩⟩

theorem sortMembers_eq {members : List (Key × Document)} {ms : List (String × Value)}
    (h : memberValues members = .ok ms) (sorted : List (String × Value)) :
    sortMembers sorted members = .ok (sortedMembers sorted ms) := by
  induction members generalizing ms sorted with
  | nil =>
    obtain rfl := Except.ok.inj h
    rfl
  | cons member members ih =>
    obtain ⟨key, document⟩ := member
    obtain ⟨name, value, rest, hname, hvalue, hrest, rfl⟩ := memberValues_cons.mp h
    rw [sortMembers, hname, hvalue]
    exact ih hrest _

/-- All members of a checked object are read, also those without a meaning. -/
theorem readMembers_eq {members : List (Key × Document)} {ms : List (String × Value)}
    (h : memberValues members = .ok ms) (hcheck : Document.checkMembers members = .ok ())
    (draft : ConfigDraft) : readMembers draft members = fill draft ms := by
  induction members generalizing ms draft with
  | nil =>
    obtain rfl := Except.ok.inj h
    rfl
  | cons member members ih =>
    obtain ⟨key, document⟩ := member
    obtain ⟨name, value, rest, hname, hvalue, hrest, rfl⟩ := memberValues_cons.mp h
    obtain ⟨-, hdocument, hlater⟩ := checkMembers_cons hcheck
    have sameRest (draft : ConfigDraft) : readMembers draft members = fill draft rest :=
      ih hrest hlater draft
    have sameValue : valueOf document = .ok value := mapError_eq_ok_iff.mpr hvalue
    have sameKey : (stringValue key).mapError ConfigError.value = .ok name :=
      mapError_eq_ok_iff.mpr hname
    have sameCheck : document.check.mapError ConfigError.value = .ok () :=
      mapError_eq_ok_iff.mpr hdocument
    rw [readMembers, fill, sameKey, sameCheck, sameValue]
    show (match ConfigField.ofKey? name with
      | none => readMembers draft members
      | some field =>
        if draft.has field then .error (.duplicate field)
        else draft.set field value >>= fun next => readMembers next members) = _
    cases ConfigField.ofKey? name with
    | none => exact sameRest draft
    | some field =>
      dsimp only
      split
      · rfl
      · exact congrArg (draft.set field value >>= ·) (funext sameRest)

theorem exists_field {key : String} (h : key ∈ knownKeys) :
    ∃ field, ConfigField.ofKey? key = some field := by
  obtain ⟨field, hfield, hkey⟩ := List.mem_flatMap.mp h
  refine Option.isSome_iff_exists.mp (List.find?_isSome.mpr ⟨field, hfield, ?_⟩)
  exact decide_eq_true hkey

theorem exists_engine {config : Config} (h : config.settingsError? = none) :
    ∃ settings engine, config.settings = .ok settings ∧ Engine.build settings = .ok engine := by
  unfold settingsError? at h
  cases hbuilt : config.settings.bind Engine.build with
  | error cause =>
    rw [hbuilt] at h
    cases h
  | ok engine =>
    obtain ⟨settings, hsettings, hengine⟩ := bind_eq_ok_iff.mp hbuilt
    exact ⟨settings, engine, hsettings, hengine⟩

/-- What verifying a text without a problem has seen. -/
theorem problems_eq_nil {text : List Char} (h : problems text = .ok []) :
    ∃ members ms draft, Document.read text = .ok (.object members) ∧
      Document.checkMembers members = .ok () ∧ memberValues members = .ok ms ∧
      (∀ m ∈ ms, ∃ field, ConfigField.ofKey? m.1 = some field) ∧
      fill {} (sortedMembers [] ms) = .ok draft ∧ draft.config.settingsError? = none := by
  rw [problems] at h
  obtain ⟨document, hdocument, h⟩ := bind_eq_ok_iff.mp h
  obtain ⟨_, hcheck, h⟩ := bind_eq_ok_iff.mp h
  rw [mapError_eq_ok_iff] at hdocument hcheck
  cases document with
  | object members =>
    have hcheck : Document.checkMembers members = .ok () := hcheck
    obtain ⟨ms, hms⟩ := exists_memberValues hcheck
    obtain ⟨sorted, hsorted, h⟩ := bind_eq_ok_iff.mp h
    rw [mapError_eq_ok_iff, sortMembers_eq hms] at hsorted
    obtain rfl := Except.ok.inj hsorted
    obtain ⟨noUnknown, noProblem⟩ := List.append_eq_nil_iff.mp (Except.ok.inj h)
    have known : ∀ m ∈ ms, ∃ field, ConfigField.ofKey? m.1 = some field := by
      intro m hm
      have inSorted : m.1 ∈ (sortedMembers [] ms).map Prod.fst :=
        (mem_keys_sortedMembers [] ms m.1).mpr (.inl (List.mem_map_of_mem hm))
      have isKnown := List.filter_eq_nil_iff.mp (List.map_eq_nil_iff.mp noUnknown) m.1 inSorted
      exact exists_field (by simpa using isKnown)
    have noProblem : valueProblem? (sortedMembers [] ms) = none := by
      simpa using noProblem
    rw [valueProblem?] at noProblem
    cases hfill : fill {} (sortedMembers [] ms) with
    | error cause =>
      rw [hfill] at noProblem
      cases noProblem
    | ok draft =>
      rw [hfill] at noProblem
      exact ⟨members, ms, draft, hdocument, hcheck, hms, known, hfill,
        Option.map_eq_none_iff.mp noProblem⟩
  | null | bool _ | number _ | string _ | array _ => cases h

/-- JSON has all members of a text: no key occurs twice, and all numbers are finite. -/
def IsLossless (text : List Char) : Prop :=
  ∃ members ms, Document.read text = .ok (.object members) ∧ memberValues members = .ok ms ∧
    (ms.map Prod.fst).Nodup ∧ ∀ m ∈ ms, finiteValue m.2 = m.2

/-- A verified text gives an engine exactly if JSON has all its members. -/
theorem verified_usable_iff {text : List Char} (verified : problems text = .ok []) :
    (∃ config settings engine, read text = .ok config ∧ config.settings = .ok settings ∧
      Engine.build settings = .ok engine) ↔ IsLossless text := by
  obtain ⟨members, ms, draft, hread, hcheck, hms, known, hfill, noError⟩ := problems_eq_nil verified
  have reads : read text = (fill {} ms).map ConfigDraft.config := by
    rw [read, hread]
    exact congrArg (Except.map ConfigDraft.config) (readMembers_eq hms hcheck {})
  constructor
  · rintro ⟨config, settings, engine, hconfig, -, -⟩
    rw [reads, map_eq_ok_iff] at hconfig
    obtain ⟨filled, hfilled, -⟩ := hconfig
    exact ⟨members, ms, hread, hms, lossless_of_fill hfilled known⟩
  · rintro ⟨members', ms', hread', hms', nodup, finite⟩
    obtain rfl : members' = members := by
      rw [hread] at hread'
      cases hread'
      rfl
    obtain rfl := Except.ok.inj (hms'.symm.trans hms)
    have perm : (sortedMembers [] ms').Perm (ms' ++ []) :=
      sortedMembers_perm nodup (fun _ _ => List.not_mem_nil) finite
    rw [List.append_nil] at perm
    have hfilled := fill_perm perm hfill
    obtain ⟨settings, engine, hsettings, hengine⟩ := exists_engine noError
    exact ⟨draft.config, settings, engine, reads.trans (map_eq_ok_iff.mpr ⟨draft, hfilled, rfl⟩),
      hsettings, hengine⟩

def isClean (text : List Char) : Bool :=
  match problems text with
  | .ok [] => true
  | _ => false

theorem isClean_iff {text : List Char} : isClean text = true ↔ problems text = .ok [] := by
  rw [isClean]
  cases problems text with
  | error cause => simp
  | ok found => cases found <;> simp

theorem verified_usable_iff_flag :
    let text := "\x7buseCalc: true\x7d".toList
    problems text = .ok [] ∧
      ∃ config settings engine, read text = .ok config ∧ config.settings = .ok settings ∧
        Engine.build settings = .ok engine := by
  intro text
  have verified : problems text = .ok [] := isClean_iff.mp (by decide +kernel)
  have lossless : IsLossless text := by
    refine ⟨[("useCalc".toList.map .literal, .bool true)], [("useCalc", .bool true)], rfl, rfl,
      by simp, ?_⟩
    intro m hm
    obtain rfl := List.mem_singleton.mp hm
    rfl
  exact ⟨verified, (verified_usable_iff verified).mpr lossless⟩

/-- The last member counts for verifying a text, which cannot be read. -/
theorem verified_duplicate :
    let text := "\x7buseCalc: true, useCalc: false\x7d".toList
    problems text = .ok [] ∧ read text = .error (.duplicate .useCalc) :=
  ⟨isClean_iff.mp (by decide +kernel), rfl⟩

end Config

end MediaRange
