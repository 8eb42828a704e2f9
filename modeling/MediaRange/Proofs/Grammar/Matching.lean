import MediaRange.Proofs.Grammar.Forms

/-!
# Matching the grammar

`matchAt_single_iff` and `matchAt_double_iff` show that the two patterns of the grammar match a pair
of parentheses around a form and nothing else.
-/

namespace MediaRange.Grammar

open Pattern Unicode

/-! ### Characters -/

theorem any_has_single (c : Char) (o : Option Char) :
    o.any (CharSet.single c).has = true ↔ o = some c := by
  cases o with
  | none => simp
  | some d =>
    rw [Option.any_some, CharSet.has_single, beq_iff_eq, ← char_eq_iff, Option.some.injEq, eq_comm]

theorem head_char_iff {c : Char} {k : Cursor} {trail : Trail} {w : Way} :
    (ways (one (.single c)) k trail).head? = some w ↔
      ∃ r, k.rest = c :: r ∧ w = ⟨k.skip 1, trail⟩ := by
  rw [ways_one]
  by_cases h : k.rest.head? = some c
  · rw [if_pos ((any_has_single c _).mpr h)]
    obtain ⟨r, hr⟩ := List.head?_eq_some_iff.mp h
    simp [hr, eq_comm]
  · rw [if_neg (mt (any_has_single c _).mp h)]
    refine ⟨fun hw => by simp at hw, ?_⟩
    rintro ⟨r, hr, -⟩
    simp [hr] at h

theorem head_char_seq_iff {c : Char} {q : Pattern} {k : Cursor} {trail : Trail} {w : Way} :
    (ways (seq (one (.single c)) q) k trail).head? = some w ↔
      ∃ r, k.rest = c :: r ∧ (ways q (k.skip 1) trail).head? = some w := by
  rw [ways_seq, ways_one]
  by_cases h : k.rest.head? = some c
  · rw [if_pos ((any_has_single c _).mpr h)]
    obtain ⟨r, hr⟩ := List.head?_eq_some_iff.mp h
    simp [hr]
  · rw [if_neg (mt (any_has_single c _).mp h)]
    refine ⟨fun hw => by simp at hw, ?_⟩
    rintro ⟨r, hr, -⟩
    simp [hr] at h

/-! ### Comparison signs -/

def TakesSign (sign : Pattern) : Prop :=
  ∀ k trail, ways sign k trail = if k.rest.head?.any isSign then [⟨k.skip 1, trail⟩] else []

theorem takesSign_single : TakesSign singleSign := by
  have has : signSet.has = isSign := by
    funext c
    rw [signSet, has_folded_of_noLetters, Bool.eq_iff_iff]
    · simp only [isSign, Ranges.has_cons, Ranges.has_nil, Bool.or_false, Bool.or_eq_true,
        Bool.and_eq_true, decide_eq_true_eq, char_eq_iff, show '<'.toNat = 0x3C from rfl,
        show '>'.toNat = 0x3E from rfl]
      omega
    · intro m hm
      simp only [Ranges.has_cons, Ranges.has_nil, Bool.or_false, Bool.or_eq_true, Bool.and_eq_true,
        decide_eq_true_eq] at hm
      simp only [isAsciiLetterCode, Bool.or_eq_false_iff, Bool.and_eq_false_iff,
        decide_eq_false_iff_not]
      omega
  intro k trail
  rw [singleSign, ways_one, has]

theorem takesSign_double : TakesSign doubleSign := by
  intro k trail
  rw [doubleSign, ways_alt, ways_one, ways_one]
  obtain ⟨position, before, rest⟩ := k
  cases rest with
  | nil => rfl
  | cons c rest =>
    have has (d : Char) : (CharSet.single d).has c = decide (c = d) := by
      rw [Bool.eq_iff_iff, CharSet.has_single, beq_iff_eq, ← char_eq_iff, decide_eq_true_eq, eq_comm]
    by_cases h : c = '<'
    · subst h
      simp [has, isSign]
    · by_cases h' : c = '>' <;> simp [has, isSign, h, h']

def signTrail (op eq : String) (position : Nat) (inclusive : Bool) (trail : Trail) : Trail :=
  (.closing eq, position + if inclusive then 2 else 1) :: (.opening eq, position + 1) ::
    (.closing op, position + 1) :: (.opening op, position) :: trail

/-- A comparison reads its equality sign if there is one and what follows can go on after it. -/
theorem head_comparison {sign q : Pattern} (hsign : TakesSign sign) (op eq : String) {k : Cursor}
    {trail : Trail} {s : Comparison} {inclusive : Bool} {r : List Char}
    (hk : k.rest = signText s inclusive ++ r) (hr : inclusive = false → r.head? ≠ some '=')
    (hq : ways q (k.skip (signText s inclusive).length)
      (signTrail op eq k.position inclusive trail) ≠ []) :
    (ways (comparison sign op eq q) k trail).head? =
      (ways q (k.skip (signText s inclusive).length)
        (signTrail op eq k.position inclusive trail)).head? := by
  have first : k.rest.head?.any isSign = true := by simp [hk, signText, isSign_symbol]
  have position : (k.skip 1).position = k.position + 1 := k.skip_position (by simp [hk, signText])
  rw [comparison, ways_group_seq, hsign, if_pos first]
  simp only [List.flatMap_cons, List.flatMap_nil, List.append_nil, ways_group_seq, position]
  rw [optionally, ways_opt, ways_one, if_pos rfl]
  cases inclusive with
  | true =>
    have after : (k.skip 1).skip 1 = k.skip 2 := (k.skip_add 1 1).symm
    have rest : (k.skip 1).rest.head? = some '=' := by simp [hk, signText]
    have position' : ((k.skip 1).skip 1).position = k.position + 2 := by
      rw [(k.skip 1).skip_position (by simp [hk, signText]), position]
    obtain ⟨w, hw⟩ := Option.ne_none_iff_exists'.mp (mt List.head?_eq_none_iff.mp hq)
    have found : (ways q ((k.skip 1).skip 1) (signTrail op eq k.position true trail)).head? =
        some w := by rw [after]; exact hw
    have here : (.closing eq, k.position + 2) :: (.opening eq, k.position + 1) ::
        (.closing op, k.position + 1) :: (.opening op, k.position) :: trail =
          signTrail op eq k.position true trail := rfl
    rw [if_pos ((any_has_single '=' _).mpr rest)]
    simp only [List.cons_append, List.nil_append, List.flatMap_cons, position', here]
    rw [List.head?_append, found, Option.some_or]
    exact hw.symm
  | false =>
    have rest : (k.skip 1).rest.head? ≠ some '=' := by simpa [hk, signText] using hr rfl
    rw [if_neg (mt (any_has_single '=' _).mp rest)]
    simp only [List.nil_append, List.flatMap_cons, List.flatMap_nil, List.append_nil, position]
    rfl

/-- A comparison reads its equality sign if there is one, because nothing else could. -/
theorem head_comparison_iff {sign q : Pattern} (hsign : TakesSign sign)
    (hq : ∀ k trail, k.rest.head? = some '=' → ways q k trail = []) (op eq : String) (k : Cursor)
    (trail : Trail) (w : Way) :
    (ways (comparison sign op eq q) k trail).head? = some w ↔
      ∃ s inclusive r, k.rest = signText s inclusive ++ r ∧
        (ways q (k.skip (signText s inclusive).length)
          (signTrail op eq k.position inclusive trail)).head? = some w := by
  constructor
  · intro hw
    rw [comparison, ways_group_seq, hsign] at hw
    split at hw
    · rename_i first
      obtain ⟨c, hc, isSign⟩ := (Option.any_eq_true _ _).mp first
      obtain ⟨r, hr⟩ := List.head?_eq_some_iff.mp hc
      obtain ⟨s, rfl⟩ := isSign_iff.mp isSign
      have position : (k.skip 1).position = k.position + 1 := k.skip_position (by simp [hr])
      simp only [List.flatMap_cons, List.flatMap_nil, List.append_nil, ways_group_seq, position]
        at hw
      rw [optionally, ways_opt, ways_one, if_pos rfl] at hw
      by_cases heq : r.head? = some '='
      · obtain ⟨r', rfl⟩ := List.head?_eq_some_iff.mp heq
        have position' : ((k.skip 1).skip 1).position = k.position + 2 := by
          rw [(k.skip 1).skip_position (by simp [hr]), position]
        have after : (k.skip 1).skip 1 = k.skip 2 := (k.skip_add 1 1).symm
        have rest : (k.skip 1).rest.head? = some '=' := by simp [hr]
        rw [if_pos ((any_has_single '=' _).mpr rest)] at hw
        simp only [List.cons_append, List.nil_append, List.flatMap_cons, List.flatMap_nil,
          List.append_nil, position, position', hq (k.skip 1) _ rest] at hw
        exact ⟨s, true, r', by simp [hr, signText], by simpa [signText, signTrail, after] using hw⟩
      · have rest : (k.skip 1).rest.head? ≠ some '=' := by simpa [hr] using heq
        rw [if_neg (mt (any_has_single '=' _).mp rest)] at hw
        simp only [List.nil_append, List.flatMap_cons, List.flatMap_nil, List.append_nil,
          position] at hw
        exact ⟨s, false, r, by simp [hr, signText], by simpa [signText, signTrail] using hw⟩
    · simp at hw
  · rintro ⟨s, inclusive, r, hk, hw⟩
    have some : ways q (k.skip (signText s inclusive).length)
        (signTrail op eq k.position inclusive trail) ≠ [] := fun hnil => by simp [hnil] at hw
    have notEq : inclusive = false → r.head? ≠ .some '=' := by
      rintro rfl heq
      exact some (hq _ _ (by simp [hk, signText, heq]))
    rw [head_comparison hsign op eq hk notEq some, hw]

/-! ### The slots of the grammar -/

theorem stop_comparison {sign q : Pattern} (hsign : TakesSign sign) {op eq : String} (k : Cursor)
    (trail : Trail) (h : ways (comparison sign op eq q) k trail ≠ []) :
    ∃ c ∈ k.rest.head?, isSign c = true := by
  rw [comparison, ways_group_seq, hsign] at h
  by_cases hk : k.rest.head?.any isSign = true
  · exact (Option.any_eq_true _ _).mp hk
  · simp [hk] at h

theorem head_closing_iff {k : Cursor} {trail : Trail} {w : Way} :
    (ways closing k trail).head? = some w ↔ ∃ r, k.rest = ')' :: r ∧ w = ⟨k.skip 1, trail⟩ :=
  head_char_iff

theorem stop_closing (k : Cursor) (trail : Trail) (h : ways closing k trail ≠ []) :
    ∃ c ∈ k.rest.head?, (c == ')') = true := by
  obtain ⟨w, hw⟩ := Option.ne_none_iff_exists'.mp (mt List.head?_eq_none_iff.mp h)
  obtain ⟨r, hr, -⟩ := head_closing_iff.mp hw
  exact ⟨')', by simp [hr], rfl⟩

theorem isSign_of_isBlank {c : Char} (h : isBlank c = true) : isSign c = false :=
  isSign_of_isSpellingChar (by simp [isSpellingChar, h])

theorem slotRules_name {sign q : Pattern} (hsign : TakesSign sign) (greedy : Bool)
    (op eq : String) :
    SlotRules (plus greedy (one nameSet)) (comparison sign op eq q) IsName isSign where
  hasWords := hasWords_name greedy
  last u hu c hc := hu.isBlank c (List.mem_of_getLast? hc)
  trimLeft u hu := by
    rwa [← List.nil_append u, trimLeft_append (by simp [IsBlankText])
      fun c hc => hu.isBlank c (List.mem_of_mem_head? hc)]
  goesOn u hu c hc := isSign_of_isSpellingChar (hu.isSpellingChar c hc)
  goesOnBlank _ := isSign_of_isBlank
  stop := stop_comparison hsign

theorem slotRules_left {sign q : Pattern} (hsign : TakesSign sign) (op eq : String) :
    SlotRules (value none) (comparison sign op eq q) IsValue isSign where
  hasWords := hasWords_value
  last _ hu := hu.last
  trimLeft _ hu := hu.trimLeft
  goesOn _ hu c hc := isSign_of_isSpellingChar (hu.isSpellingChar c hc)
  goesOnBlank _ := isSign_of_isBlank
  stop := stop_comparison hsign

theorem slotRules_right : SlotRules (value none) closing IsValue (· == ')') where
  hasWords := hasWords_value
  last _ hu := hu.last
  trimLeft _ hu := hu.trimLeft
  goesOn _ hu c hc := beq_false_of_ne (ne_of_isSpellingChar (hu.isSpellingChar c hc) (by decide))
  goesOnBlank c hc :=
    beq_false_of_ne (ne_of_isSpellingChar (by simp [isSpellingChar, hc]) (by decide))
  stop := stop_closing

/-- No slot of the grammar reads an equality sign. -/
theorem slot_refuses_eq {p q : Pattern} {words : List Char → Prop} {stops : Char → Bool}
    (h : SlotRules p q words stops) (hwords : ∀ u, words u → ∀ c ∈ u, isSpellingChar c = true)
    (hstop : stops '=' = false) (name : String) (k : Cursor) (trail : Trail)
    (hk : k.rest.head? = some '=') : ways (slot name p q) k trail = [] :=
  ways_slot_eq_nil h name (by decide)
    (fun u hu hc => absurd (hwords u hu '=' hc) (by decide)) hstop hk trail

/-- A slot before a comparison reads the text up to the next comparison sign. -/
theorem head_slot_comparison_iff {p sign q : Pattern} {words : List Char → Prop} {op eq : String}
    (hrules : SlotRules p (comparison sign op eq q) words isSign) (hsign : TakesSign sign)
    (hq : ∀ k trail, k.rest.head? = some '=' → ways q k trail = []) (name : String) (k : Cursor)
    (trail : Trail) (w : Way) :
    (ways (slot name p (comparison sign op eq q)) k trail).head? = some w ↔
      ∃ u s inclusive r, k.rest = u ++ (signText s inclusive ++ r) ∧
        (∀ c ∈ u, isSign c = false) ∧ words (trim u) ∧
        (ways q (k.skip (u.length + (signText s inclusive).length)) (signTrail op eq
          (k.position + u.length) inclusive (slotTrail name k.position u trail))).head? = some w := by
  simp only [head_slot_iff hrules, head_comparison_iff hsign hq]
  constructor
  · rintro ⟨u, _, hk, hu, hword, s, inclusive, r, hr, hw⟩
    obtain ⟨rest, position⟩ := Cursor.skip_append hk
    obtain rfl := rest.symm.trans hr
    exact ⟨u, s, inclusive, r, hk, hu, hword, by rwa [Cursor.skip_add, ← position]⟩
  · rintro ⟨u, s, inclusive, r, hk, hu, hword, hw⟩
    obtain ⟨rest, position⟩ := Cursor.skip_append hk
    exact ⟨u, _, hk, hu, hword, s, inclusive, r, rest, by rwa [Cursor.skip_add, ← position] at hw⟩

theorem head_slot_closing_iff (name : String) (k : Cursor) (trail : Trail) (w : Way) :
    (ways (slot name (value none) closing) k trail).head? = some w ↔
      ∃ v r, k.rest = v ++ ')' :: r ∧ IsValue (trim v) ∧
        w = ⟨k.skip (v.length + 1), slotTrail name k.position v trail⟩ := by
  simp only [head_slot_iff slotRules_right, head_closing_iff]
  constructor
  · rintro ⟨v, _, hk, -, hv, r, hr, rfl⟩
    obtain ⟨rest, -⟩ := Cursor.skip_append hk
    obtain rfl := rest.symm.trans hr
    exact ⟨v, r, hk, hv, by rw [Cursor.skip_add]⟩
  · rintro ⟨v, r, hk, hv, rfl⟩
    refine ⟨v, _, hk, fun c hc => ?_, hv, r, (Cursor.skip_append hk).1, by rw [Cursor.skip_add]⟩
    exact beq_false_of_ne (ne_of_isSpellingChar (isSpellingChar_of_trim hv.isSpellingChar c hc)
      (by decide))

theorem slot_closing_refuses_eq (name : String) (k : Cursor) (trail : Trail)
    (hk : k.rest.head? = some '=') : ways (slot name (value none) closing) k trail = [] :=
  slot_refuses_eq slotRules_right (fun _ => IsValue.isSpellingChar) rfl name k trail hk

/-! ### Cuts -/

/-- The trail of slots for both sides of a cut that starts at a position. -/
def cutTrail (name op eq value : String) (position : Nat) (cut : SignCut) (trail : Trail) : Trail :=
  let sign := position + cut.before.length
  slotTrail value (sign + (signText cut.comparison cut.inclusive).length) cut.after
    (signTrail op eq sign cut.inclusive (slotTrail name position cut.before trail))

theorem head_cut_iff {sign : Pattern} (hsign : TakesSign sign) (greedy : Bool)
    (name op eq value : String) (k : Cursor) (trail : Trail) (w : Way) :
    (ways (slot name (plus greedy (one nameSet)) (comparison sign op eq
      (slot value (Grammar.value none) closing))) k trail).head? = some w ↔
      ∃ (cut : SignCut) (r : List Char), k.rest = cut.text ++ ')' :: r ∧ cut.IsSingle ∧
        w = ⟨k.skip (cut.text.length + 1), cutTrail name op eq value k.position cut trail⟩ := by
  rw [head_slot_comparison_iff (slotRules_name hsign greedy op eq) hsign
    (slot_closing_refuses_eq value)]
  simp only [head_slot_closing_iff]
  constructor
  · rintro ⟨u, s, inclusive, _, hk, -, hname, v, r, hr, hv, rfl⟩
    have hk' : k.rest = (u ++ signText s inclusive) ++ _ := hk.trans (List.append_assoc ..).symm
    obtain ⟨rest, position⟩ := Cursor.skip_append hk'
    rw [List.length_append] at rest position
    obtain rfl := rest.symm.trans hr
    refine ⟨⟨u, s, inclusive, v⟩, r, by simp [hk, SignCut.text], ⟨hname, hv⟩, ?_⟩
    rw [← Cursor.skip_add, position]
    simp [SignCut.text, cutTrail, Nat.add_assoc]
  · rintro ⟨⟨u, s, inclusive, v⟩, r, hk, h, rfl⟩
    have hk' : k.rest = (u ++ signText s inclusive) ++ (v ++ ')' :: r) := by
      simpa [SignCut.text] using hk
    obtain ⟨rest, position⟩ := Cursor.skip_append hk'
    rw [List.length_append] at rest position
    refine ⟨u, s, inclusive, v ++ ')' :: r, by simpa using hk', h.isFirst.before, h.name, v, r,
      rest, h.value, ?_⟩
    rw [← Cursor.skip_add, position]
    simp [SignCut.text, cutTrail, Nat.add_assoc]

/-! ### Matches -/

theorem matchAt_single_iff {k : Cursor} {hit : Hit} :
    (singleOf (value none)).matchAt k = some hit ↔
      ∃ (cut : SignCut) (r : List Char), k.rest = '(' :: (cut.text ++ ')' :: r) ∧ cut.IsSingle ∧
        hit = ⟨k.position + cut.text.length + 2,
          cutTrail "feature" "op" "eq" "value" (k.position + 1) cut []⟩ := by
  have hit_eq {cut : SignCut} {r : List Char} (hk : k.rest = '(' :: (cut.text ++ ')' :: r))
      (trail : Trail) : Way.hit ⟨(k.skip 1).skip (cut.text.length + 1), trail⟩ =
        ⟨k.position + cut.text.length + 2, trail⟩ := by
    rw [← Cursor.skip_add, Way.hit, k.skip_position (by simp [hk]; omega)]
    congr 1
    omega
  simp only [matchAt_eq_head, Option.map_eq_some_iff, singleOf, head_char_seq_iff,
    head_cut_iff takesSign_single]
  constructor
  · rintro ⟨_, ⟨_, hk, cut, r, hr, hcut, rfl⟩, rfl⟩
    obtain ⟨rest, position⟩ := Cursor.skip_cons hk
    obtain rfl := rest.symm.trans hr
    exact ⟨cut, r, hk, hcut, by rw [hit_eq hk, position]⟩
  · rintro ⟨cut, r, hk, hcut, rfl⟩
    obtain ⟨rest, position⟩ := Cursor.skip_cons hk
    exact ⟨_, ⟨_, hk, cut, r, rest, hcut, rfl⟩, by rw [hit_eq hk, position]⟩

/-- The trail of slots for all three parts of two cuts, when the parenthesis opens at a position. -/
def doubleTrail (position : Nat) (first second : SignCut) : Trail :=
  let sign := position + 1 + first.before.length
  cutTrail "feature" "right_op" "right_eq" "right"
    (sign + (signText first.comparison first.inclusive).length) second
    (signTrail "left_op" "left_eq" sign first.inclusive
      (slotTrail "left" (position + 1) first.before []))

/-- The second cut cannot start with an equality sign. -/
theorem slot_name_refuses_eq (k : Cursor) (trail : Trail) (hk : k.rest.head? = some '=') :
    ways (slot "feature" (plus true (one nameSet)) (comparison doubleSign "right_op" "right_eq"
      (slot "right" (value none) closing))) k trail = [] :=
  slot_refuses_eq (slotRules_name takesSign_double true "right_op" "right_eq")
    (fun _ => IsName.isSpellingChar) (by decide) "feature" k trail hk

theorem matchAt_double_iff {k : Cursor} {hit : Hit} :
    (doubleOf (value none)).matchAt k = some hit ↔
      ∃ (first second : SignCut) (r : List Char), k.rest = '(' :: (first.text ++ ')' :: r) ∧
        first.IsDouble second ∧
        hit = ⟨k.position + first.text.length + 2, doubleTrail k.position first second⟩ := by
  simp only [matchAt_eq_head, Option.map_eq_some_iff, doubleOf, head_char_seq_iff,
    head_slot_comparison_iff (slotRules_left takesSign_double "left_op" "left_eq") takesSign_double
      slot_name_refuses_eq, head_cut_iff takesSign_double]
  constructor
  · rintro ⟨_, ⟨_, hk, u, s, inclusive, r₁, hr₁, -, hleft, second, r, hr, hsecond, rfl⟩, rfl⟩
    obtain ⟨rest, position⟩ := Cursor.skip_cons hk
    obtain rfl := rest.symm.trans hr₁
    have hk' : (k.skip 1).rest = (u ++ signText s inclusive) ++ r₁ :=
      hr₁.trans (List.append_assoc ..).symm
    obtain ⟨rest', position'⟩ := Cursor.skip_append hk'
    rw [List.length_append] at rest' position'
    obtain rfl := rest'.symm.trans hr
    refine ⟨⟨u, s, inclusive, second.text⟩, second, r, by simpa [SignCut.text] using hk,
      ⟨rfl, hleft, hsecond⟩, ?_⟩
    rw [Way.hit, Cursor.skip_position _ (by rw [rest']; simp), position', position]
    simp only [SignCut.text, doubleTrail, List.length_append, Hit.mk.injEq, Nat.add_assoc, and_true]
    omega
  · rintro ⟨⟨u, s, inclusive, _⟩, second, r, hk, ⟨rfl, hleft, hsecond⟩, rfl⟩
    have hk₁ : k.rest = '(' :: (u ++ (signText s inclusive ++ (second.text ++ ')' :: r))) := by
      simpa [SignCut.text] using hk
    obtain ⟨rest, position⟩ := Cursor.skip_cons hk₁
    have hk' := rest.trans (List.append_assoc ..).symm
    obtain ⟨rest', position'⟩ := Cursor.skip_append hk'
    rw [List.length_append] at rest' position'
    refine ⟨_, ⟨_, hk₁, u, s, inclusive, _, rest, isSign_of_trim hleft.isSpellingChar, hleft,
      second, r, rest', hsecond, rfl⟩, ?_⟩
    rw [Way.hit, Cursor.skip_position _ (by rw [rest']; simp), position', position]
    simp only [SignCut.text, doubleTrail, List.length_append, Hit.mk.injEq, Nat.add_assoc, and_true]
    omega

end MediaRange.Grammar
