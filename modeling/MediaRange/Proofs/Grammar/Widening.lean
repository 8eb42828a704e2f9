import MediaRange.Proofs.Grammar.Matching

/-!
# Grammars with more values

A custom value widens the values of the grammar. The ways of the standard values come first, so
by `keepsFirst_single` and `keepsFirst_double` the wider grammar finds every standard range just as
the narrow one does.
-/

namespace MediaRange.Grammar

open Pattern Unicode

theorem widens_value (body : Option Pattern) : Widens (value none) (value body) := by
  cases body with
  | none => exact .refl _
  | some p => exact widens_alt _ _

/-- Where the first pattern matches, the wide one prefers the same way. -/
def KeepsFirst (q wide : Pattern) : Prop :=
  ∀ k trail w, (ways q k trail).head? = some w → (ways wide k trail).head? = some w

namespace KeepsFirst

variable {q wide : Pattern} (h : KeepsFirst q wide)
include h

theorem matchAt {k : Cursor} {hit : Hit} (found : q.matchAt k = some hit) :
    wide.matchAt k = some hit := by
  rw [matchAt_eq_head, Option.map_eq_some_iff] at found ⊢
  obtain ⟨w, hw, same⟩ := found
  exact ⟨w, h k [] w hw, same⟩

theorem character (c : Char) : KeepsFirst (seq (one (.single c)) q) (seq (one (.single c)) wide) := by
  intro k trail w hw
  obtain ⟨r, hk, hw⟩ := head_char_seq_iff.mp hw
  exact head_char_seq_iff.mpr ⟨r, hk, h _ _ _ hw⟩

theorem comparison {sign : Pattern} (hsign : TakesSign sign)
    (hq : ∀ k trail, k.rest.head? = some '=' → ways q k trail = []) (op eq : String) :
    KeepsFirst (comparison sign op eq q) (comparison sign op eq wide) := by
  intro k trail w hw
  obtain ⟨s, inclusive, r, hk, hw⟩ := (head_comparison_iff hsign hq op eq k trail w).mp hw
  have notEq : inclusive = false → r.head? ≠ some '=' := by
    rintro rfl heq
    rw [hq _ _ (by simp [hk, signText, heq])] at hw
    cases hw
  have found := h _ _ _ hw
  rw [head_comparison hsign op eq hk notEq fun hnil => by simp [hnil] at found, found]

theorem slot {p widened : Pattern} {words : List Char → Prop} {stops : Char → Bool}
    (hp : Widens p widened) (hq : SlotRules p q words stops) (hwide : SlotRules p wide words stops)
    (name : String) : KeepsFirst (slot name p q) (slot name widened wide) := by
  intro k trail w hw
  obtain ⟨u, r, hk, -, hu, hw⟩ := (head_slot_iff hq name k trail w).mp hw
  have found := h _ _ _ hw
  rw [hp.head_slot hwide name hk hu fun hnil => by simp [hnil] at found, found]

end KeepsFirst

variable (body : Option Pattern)

theorem keepsFirst_slot_closing (name : String) :
    KeepsFirst (slot name (value none) closing) (slot name (value body) closing) :=
  KeepsFirst.slot (fun _ _ _ => id) (widens_value body) slotRules_right slotRules_right name

theorem keepsFirst_cut {sign : Pattern} (hsign : TakesSign sign) (greedy : Bool)
    (name op eq value : String) :
    KeepsFirst
      (slot name (plus greedy (one nameSet)) (comparison sign op eq
        (slot value (Grammar.value none) closing)))
      (slot name (plus greedy (one nameSet)) (comparison sign op eq
        (slot value (Grammar.value body) closing))) :=
  ((keepsFirst_slot_closing body value).comparison hsign (slot_closing_refuses_eq value) op eq).slot
    (.refl _) (slotRules_name hsign greedy op eq) (slotRules_name hsign greedy op eq) name

theorem keepsFirst_single : KeepsFirst (singleOf (value none)) (singleOf (value body)) :=
  (keepsFirst_cut body takesSign_single false "feature" "op" "eq" "value").character '('

theorem keepsFirst_double : KeepsFirst (doubleOf (value none)) (doubleOf (value body)) :=
  (((keepsFirst_cut body takesSign_double true "feature" "right_op" "right_eq" "right").comparison
    takesSign_double slot_name_refuses_eq "left_op" "left_eq").slot (widens_value body)
      (slotRules_left takesSign_double "left_op" "left_eq")
      (slotRules_left takesSign_double "left_op" "left_eq") "left").character '('

/-! ### Where there is no match -/

theorem matchAt_character_eq_none {c : Char} {q : Pattern} {k : Cursor}
    (h : k.rest.head? ≠ some c) : (seq (one (.single c)) q).matchAt k = none := by
  rw [matchAt_eq_head, Option.map_eq_none_iff, Option.eq_none_iff_forall_ne_some]
  intro w hw
  obtain ⟨r, hr, -⟩ := head_char_seq_iff.mp hw
  exact h (by rw [hr]; rfl)

/-- A single comparison starts with a name, whatever its value is, and a double one with a value. -/
theorem matchAt_single_of_double {first second : SignCut} (h : first.IsDouble second) {k : Cursor}
    {r : List Char} (hk : k.rest = '(' :: (first.text ++ ')' :: r)) :
    (singleOf (value body)).matchAt k = none := by
  rw [matchAt_eq_head, Option.map_eq_none_iff, Option.eq_none_iff_forall_ne_some]
  intro w hw
  obtain ⟨_, hr, hw⟩ := head_char_seq_iff.mp hw
  obtain ⟨rest, -⟩ := Cursor.skip_cons hk
  obtain ⟨u, r', hu, noSign, isName, hw⟩ :=
    (head_slot_iff (slotRules_name takesSign_single false "op" "eq") _ _ _ _).mp hw
  have sign : ∃ c ∈ r'.head?, isSign c = true := by
    rw [← (Cursor.skip_append hu).1]
    exact stop_comparison takesSign_single _ _ (List.ne_nil_of_mem (List.mem_of_mem_head? hw))
  have cut : u ++ r' = first.before ++
      (signText first.comparison first.inclusive ++ (first.after ++ ')' :: r)) := by
    rw [← hu, rest]
    simp [SignCut.text]
  have same : u = first.before := cut_unique isSign cut noSign h.isFirst.before sign
    ⟨first.comparison.symbol, by simp [signText], isSign_symbol _⟩
  exact h.left.not_isName (same ▸ isName)

end MediaRange.Grammar
