import Mathlib.Data.List.Pairwise
import MediaRange.Feature
import MediaRange.Proofs.Feature.EditDistance

/-!
# Suggested features

The names of two features are too far apart for one text to be near both (`IsNear.unique`). So there
is at most one feature to suggest, and `suggested?_unambiguous` shows that it is suggested whatever the
order of the features is and however one of the nearest is chosen.
-/

namespace MediaRange.Feature

variable {name text : List Char} {features : List Feature} {f g : Feature}

/-! ### Near features -/

/-- The names are too far from each other for a text to be near both. -/
def FarApart (f g : Feature) : Prop :=
  2 * suggestionDistance < editDistance f.name.toList g.name.toList

instance : DecidableRel FarApart := fun _ _ => Nat.decLt _ _

instance : Std.Symm FarApart where
  symm f g h := by
    unfold FarApart
    rw [editDistance_comm]
    exact h

theorem farApart_of_ne (h : f ≠ g) : FarApart f g := by
  have table : Feature.all.Pairwise FarApart := by decide +kernel
  exact table.forall f.mem_all g.mem_all h

/-- Few enough edits turn the text into the name of the feature. -/
def IsNear (text : List Char) (f : Feature) : Prop :=
  ∃ n ≤ suggestionDistance, Edits n text f.name.toList

theorem isNear_iff : IsNear text f ↔ editDistance text f.name.toList ≤ suggestionDistance :=
  editDistance_le_iff.symm

instance : Decidable (IsNear text f) := decidable_of_iff _ isNear_iff.symm

theorem IsNear.unique (hf : IsNear text f) (hg : IsNear text g) : f = g := by
  by_contra different
  have apart : 2 * suggestionDistance < _ := farApart_of_ne different
  have through := editDistance_triangle f.name.toList text g.name.toList
  rw [editDistance_comm f.name.toList text] at through
  have nearFirst := isNear_iff.mp hf
  have nearSecond := isNear_iff.mp hg
  omega

theorem nearest_eq_none (h : nearest text features = none) : features = [] := by
  cases features with
  | nil => rfl
  | cons f features =>
    rw [nearest] at h
    split at h
    · split at h <;> cases h
    · cases h

theorem nearest_eq_some {d : Nat} (h : nearest text features = some (f, d)) :
    f ∈ features ∧ d = editDistance text f.name.toList ∧
      ∀ g ∈ features, d ≤ editDistance text g.name.toList := by
  induction features generalizing f d with
  | nil => cases h
  | cons first features ih =>
    rw [nearest] at h
    split at h
    · rename_i g least later
      obtain ⟨mem, distance, le⟩ := ih later
      split at h
      · rename_i nearer
        cases h
        refine ⟨List.mem_cons_self, rfl, List.forall_mem_cons.mpr ⟨le_rfl, ?_⟩⟩
        intro g hg
        exact nearer.trans (le g hg)
      · rename_i further
        cases h
        exact ⟨List.mem_cons_of_mem _ mem, distance,
          List.forall_mem_cons.mpr ⟨Nat.le_of_not_le further, le⟩⟩
    · rename_i none
      cases h
      obtain rfl := nearest_eq_none none
      exact ⟨List.mem_cons_self, rfl, by simp⟩

/-- The nearest feature is suggested if it is near, and no other feature can be near then. -/
theorem suggested?_eq_some_iff : suggested? name = some f ↔ IsNear (lowerCase name) f := by
  unfold suggested?
  cases hnearest : nearest (lowerCase name) Feature.all with
  | none => cases nearest_eq_none hnearest
  | some entry =>
    obtain ⟨g, d⟩ := entry
    obtain ⟨-, rfl, le⟩ := nearest_eq_some hnearest
    dsimp only
    constructor
    · intro h
      split at h
      · rename_i near
        cases h
        exact isNear_iff.mpr near
      · cases h
    · intro near
      have nearer := (le f f.mem_all).trans (isNear_iff.mp near)
      have same : g = f := (isNear_iff.mpr nearer).unique near
      rw [if_pos nearer, same]

/-! ### Lower case -/

/-- A lower-case form of a name. Beyond ASCII two characters have forms with ASCII letters; of any
other one it only matters that its form is a single character beyond ASCII. -/
inductive IsLowerCase : List Char → List Char → Prop where
  | nil : IsLowerCase [] []
  | ascii {c : Char} {name lower : List Char} (h : c.toNat < 0x80) (rest : IsLowerCase name lower) :
      IsLowerCase (c :: name) (c.toLower :: lower)
  | kelvin {name lower : List Char} (rest : IsLowerCase name lower) :
      IsLowerCase ('\u212A' :: name) ('k' :: lower)
  | dotted {name lower : List Char} (rest : IsLowerCase name lower) :
      IsLowerCase ('\u0130' :: name) ('i' :: '\u0307' :: lower)
  | other {c d : Char} {name lower : List Char} (hc : 0x80 ≤ c.toNat)
      (kelvin : c ≠ '\u212A') (dotted : c ≠ '\u0130') (hd : 0x80 ≤ d.toNat)
      (rest : IsLowerCase name lower) : IsLowerCase (c :: name) (d :: lower)

theorem lowerCase_ascii {c : Char} (h : c.toNat < 0x80) :
    lowerCase (c :: name) = c.toLower :: lowerCase name := by
  rw [lowerCase, List.flatMap_cons]
  split
  · rfl
  · rename_i notUpper
    have kelvin : c ≠ '\u212A' := by
      rintro rfl
      exact absurd h (by decide)
    have dotted : c ≠ '\u0130' := by
      rintro rfl
      exact absurd h (by decide)
    have same : c.toLower = c := dif_neg fun upper => notUpper <|
      Bool.and_eq_true_iff.mpr ⟨decide_eq_true upper.1, decide_eq_true upper.2⟩
    rw [if_neg kelvin, if_neg dotted, same]
    rfl

theorem lowerCase_other {c : Char} (hc : 0x80 ≤ c.toNat) (kelvin : c ≠ '\u212A')
    (dotted : c ≠ '\u0130') : lowerCase (c :: name) = c :: lowerCase name := by
  rw [lowerCase, List.flatMap_cons, if_neg, if_neg kelvin, if_neg dotted]
  · rfl
  · intro upper
    have last : c ≤ 'Z' := by simpa using (Bool.and_eq_true_iff.mp upper).2
    have : c.toNat ≤ 'Z'.toNat := last
    have : 'Z'.toNat < 0x80 := by decide
    omega

theorem isLowerCase_lowerCase (name : List Char) : IsLowerCase name (lowerCase name) := by
  induction name with
  | nil => exact .nil
  | cons c name ih =>
    by_cases ascii : c.toNat < 0x80
    · rw [lowerCase_ascii ascii]
      exact .ascii ascii ih
    by_cases kelvin : c = '\u212A'
    · subst kelvin
      exact .kelvin ih
    by_cases dotted : c = '\u0130'
    · subst dotted
      exact .dotted ih
    rw [lowerCase_other (Nat.le_of_not_lt ascii) kelvin dotted]
    exact .other (Nat.le_of_not_lt ascii) kelvin dotted (Nat.le_of_not_lt ascii) ih

theorem lt_of_mem_name {c : Char} (h : c ∈ f.name.toList) : c.toNat < 0x80 := by
  have ascii : f.name.toList.all fun c => c.toNat < 0x80 := by cases f <;> decide
  exact of_decide_eq_true (List.all_eq_true.mp ascii c h)

/-- Beyond ASCII, where no feature name has characters, two forms may differ. -/
theorem IsLowerCase.isNear {lower : List Char} (h : IsLowerCase name lower) :
    IsNear (lowerCase name) f ↔ IsNear lower f := by
  have alike : List.Forall₂ (fun c d => c = d ∨ 0x80 ≤ c.toNat ∧ 0x80 ≤ d.toNat)
      (lowerCase name) lower := by
    induction h with
    | nil => exact .nil
    | ascii ascii _ ih =>
      rw [lowerCase_ascii ascii]
      exact .cons (.inl rfl) ih
    | kelvin _ ih => exact .cons (.inl rfl) ih
    | dotted _ ih => exact .cons (.inl rfl) (.cons (.inl rfl) ih)
    | other hc kelvin dotted hd _ ih =>
      rw [lowerCase_other hc kelvin dotted]
      exact .cons (.inr ⟨hc, hd⟩) ih
  have ascii : ∀ c ∈ f.name.toList, c.toNat < 0x80 := fun c => lt_of_mem_name
  constructor
  · rintro ⟨n, hn, edits⟩
    refine ⟨n, hn, edits.exchange ascii (alike.imp ?_)⟩
    rintro c d (same | ⟨hc, -⟩) inAscii
    · exact same.symm
    · omega
  · rintro ⟨n, hn, edits⟩
    refine ⟨n, hn, edits.exchange ascii (alike.flip.imp ?_)⟩
    rintro d c (same | ⟨-, hd⟩) inAscii
    · exact same
    · omega

/-! ### Choices -/

/-- One of the features of a list is chosen, if there are any. -/
structure IsChoice (choose : List Feature → Option Feature) : Prop where
  eq_nil {features : List Feature} : choose features = none → features = []
  mem {features : List Feature} {f : Feature} : choose features = some f → f ∈ features

/-- The first of the nearest features is one choice. -/
theorem isChoice_nearest (text : List Char) :
    IsChoice fun features => (nearest text features).map Prod.fst where
  eq_nil h := nearest_eq_none (Option.map_eq_none_iff.mp h)
  mem h := by
    obtain ⟨⟨f, d⟩, hnearest, rfl⟩ := Option.map_eq_some_iff.mp h
    exact (nearest_eq_some hnearest).1

theorem IsChoice.eq_some_iff {choose : List Feature → Option Feature} (h : IsChoice choose)
    (unique : ∀ f ∈ features, ∀ g ∈ features, f = g) : choose features = some f ↔ f ∈ features := by
  constructor
  · exact h.mem
  · intro hf
    cases chosen : choose features with
    | none =>
      rw [h.eq_nil chosen] at hf
      cases hf
    | some g => rw [unique g (h.mem chosen) f hf]

/-- At most one feature is near a lower-case form of a name, and that feature is suggested, or none if
there is none. The order of the features and the choice among the near ones play no part in it. -/
theorem suggested?_unambiguous {lower : List Char} (h : IsLowerCase name lower) :
    (∀ f g, IsNear lower f → IsNear lower g → f = g) ∧
    (∀ f, suggested? name = some f ↔ IsNear lower f) ∧
    ∀ features : List Feature, features.Perm Feature.all → ∀ choose, IsChoice choose →
      choose (features.filter fun f => IsNear lower f) = suggested? name := by
  have suggested : ∀ f, suggested? name = some f ↔ IsNear lower f := fun f =>
    suggested?_eq_some_iff.trans h.isNear
  refine ⟨fun f g => IsNear.unique, suggested, ?_⟩
  intro features perm choose choice
  have near : ∀ f, f ∈ features.filter (fun f => IsNear lower f) ↔ IsNear lower f := by
    intro f
    simp [perm.mem_iff, f.mem_all]
  have unique : ∀ f ∈ features.filter (fun f => IsNear lower f),
      ∀ g ∈ features.filter (fun f => IsNear lower f), f = g :=
    fun f hf g hg => ((near f).mp hf).unique ((near g).mp hg)
  apply Option.ext
  intro f
  rw [choice.eq_some_iff unique, near, suggested]

theorem suggested?_unambiguous_height :
    IsLowerCase "HÉIGHT".toList "héight".toList ∧
      (∀ f g, IsNear "héight".toList f → IsNear "héight".toList g → f = g) ∧
      suggested? "HÉIGHT".toList = some .height ∧
      Feature.all.reverse.Perm Feature.all ∧ IsChoice List.getLast? ∧
      (Feature.all.reverse.filter fun f => IsNear "héight".toList f).getLast? = some .height ∧
      (nearest "héight".toList
        (Feature.all.reverse.filter fun f => IsNear "héight".toList f)).map Prod.fst =
          some .height := by
  have lower : IsLowerCase "HÉIGHT".toList "héight".toList :=
    .ascii (by decide) <| .other (by decide) (by decide) (by decide) (by decide) <|
      .ascii (by decide) <| .ascii (by decide) <| .ascii (by decide) <| .ascii (by decide) .nil
  have last : IsChoice List.getLast? := ⟨List.getLast?_eq_none_iff.mp, List.mem_of_getLast?⟩
  have reversed : Feature.all.reverse.Perm Feature.all := List.reverse_perm _
  obtain ⟨unique, suggested, choice⟩ := suggested?_unambiguous lower
  have height : suggested? "HÉIGHT".toList = some .height :=
    (suggested .height).mpr (by decide +kernel)
  exact ⟨lower, unique, height, reversed, last, (choice _ reversed _ last).trans height,
    (choice _ reversed _ (isChoice_nearest _)).trans height⟩

end MediaRange.Feature
