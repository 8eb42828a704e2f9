/-!
# Groups of parentheses

A group is a pair of parentheses with no parenthesis between them. `fragments` cuts a text into its
groups and the characters outside of them; `fragments_append_group` shows that it finds every group.
-/

namespace MediaRange

/-- A fragment of a text: a character, or a group with what stands in its parentheses. -/
inductive Fragment where
  | plain (c : Char)
  | group (inside : List Char)
  deriving DecidableEq

def Fragment.text : Fragment → List Char
  | plain c => [c]
  | group inside => '(' :: (inside ++ [')'])

def IsParenFree (text : List Char) : Prop := ∀ c ∈ text, c ≠ '(' ∧ c ≠ ')'

theorem isParenFree_append {u v : List Char} (hu : IsParenFree u) (hv : IsParenFree v) :
    IsParenFree (u ++ v) := fun c hc => (List.mem_append.mp hc).elim (hu c) (hv c)

/-- The characters up to the next parenthesis and the fragments after it, if it is a closing one. -/
def closeGroup? : List Fragment → Option (List Char × List Fragment)
  | [] | .group _ :: _ => none
  | .plain c :: ps =>
    if c = ')' then some ([], ps)
    else if c = '(' then none
    else (closeGroup? ps).map fun closed => (c :: closed.1, closed.2)

/-- A character before some fragments. An opening parenthesis makes a group if the next one closes. -/
def addFront (c : Char) (ps : List Fragment) : List Fragment :=
  match if c = '(' then closeGroup? ps else none with
  | some (inside, rest) => .group inside :: rest
  | none => .plain c :: ps

/-- The groups of a text and the characters outside of them. -/
def fragments (text : List Char) : List Fragment := text.foldr addFront []

theorem closeGroup?_eq_some_iff {ps rest : List Fragment} {inside : List Char} :
    closeGroup? ps = some (inside, rest) ↔
      ps = inside.map Fragment.plain ++ .plain ')' :: rest ∧ IsParenFree inside := by
  induction ps generalizing inside with
  | nil => simp [closeGroup?]
  | cons p ps ih =>
    cases p with
    | group i =>
      constructor
      · intro h
        cases h
      · rintro ⟨h, -⟩
        cases inside <;> cases h
    | plain c =>
      by_cases hclose : c = ')'
      · subst hclose
        simp only [closeGroup?, if_pos, Option.some.injEq, Prod.mk.injEq]
        constructor
        · rintro ⟨rfl, rfl⟩
          exact ⟨rfl, by simp [IsParenFree]⟩
        · rintro ⟨h, hfree⟩
          cases inside with
          | nil => exact ⟨rfl, (List.cons.inj h).2⟩
          | cons d inside =>
            obtain rfl := Fragment.plain.inj (List.cons.inj h).1
            exact absurd rfl (hfree _ List.mem_cons_self).2
      · by_cases hopen : c = '('
        · subst hopen
          refine ⟨fun h => by simp [closeGroup?] at h, fun ⟨h, hfree⟩ => ?_⟩
          cases inside with
          | nil => cases Fragment.plain.inj (List.cons.inj h).1
          | cons d inside =>
            obtain rfl := Fragment.plain.inj (List.cons.inj h).1
            exact absurd rfl (hfree _ List.mem_cons_self).1
        · simp only [closeGroup?, if_neg hclose, if_neg hopen, Option.map_eq_some_iff, Prod.exists,
            Prod.mk.injEq]
          constructor
          · rintro ⟨i, r, h, rfl, rfl⟩
            obtain ⟨rfl, hfree⟩ := ih.mp h
            exact ⟨rfl, List.forall_mem_cons.mpr ⟨⟨hopen, hclose⟩, hfree⟩⟩
          · rintro ⟨h, hfree⟩
            cases inside with
            | nil => exact absurd (Fragment.plain.inj (List.cons.inj h).1) hclose
            | cons d inside =>
              obtain rfl := Fragment.plain.inj (List.cons.inj h).1
              exact ⟨inside, rest, ih.mpr ⟨(List.cons.inj h).2, (List.forall_mem_cons.mp hfree).2⟩,
                rfl, rfl⟩

theorem addFront_of_ne {c : Char} (h : c ≠ '(') (ps : List Fragment) :
    addFront c ps = .plain c :: ps := by
  simp [addFront, h]

theorem addFront_open_none {ps : List Fragment} (h : closeGroup? ps = none) :
    addFront '(' ps = .plain '(' :: ps := by
  simp [addFront, h]

theorem addFront_open_some {ps rest : List Fragment} {inside : List Char}
    (h : closeGroup? ps = some (inside, rest)) : addFront '(' ps = .group inside :: rest := by
  simp [addFront, h]

theorem foldr_addFront_plain {u : List Char} (h : ∀ c ∈ u, c ≠ '(') (ps : List Fragment) :
    u.foldr addFront ps = u.map Fragment.plain ++ ps := by
  induction u with
  | nil => rfl
  | cons c u ih =>
    obtain ⟨hc, hu⟩ := List.forall_mem_cons.mp h
    rw [List.foldr_cons, ih hu, addFront_of_ne hc]; rfl

/-! ### Settled fragments -/

/-- Fragments as a text is cut into: no opening parenthesis outside could make one more group. -/
inductive Settled : List Fragment → Prop where
  | nil : Settled []
  | plain {c : Char} {ps : List Fragment} (h : c = '(' → closeGroup? ps = none) (hps : Settled ps) :
    Settled (.plain c :: ps)
  | group {inside : List Char} {ps : List Fragment} (h : IsParenFree inside) (hps : Settled ps) :
    Settled (.group inside :: ps)

theorem settled_plain {u : List Char} (h : ∀ c ∈ u, c ≠ '(') {ps : List Fragment}
    (hps : Settled ps) : Settled (u.map Fragment.plain ++ ps) := by
  induction u with
  | nil => exact hps
  | cons c u ih =>
    obtain ⟨hc, hu⟩ := List.forall_mem_cons.mp h
    exact .plain (fun hopen => absurd hopen hc) (ih hu)

theorem Settled.of_append {ps qs : List Fragment} (h : Settled (ps ++ qs)) : Settled qs := by
  induction ps with
  | nil => exact h
  | cons p ps ih =>
    cases h with
    | plain _ h => exact ih h
    | group _ h => exact ih h

theorem Settled.addFront {c : Char} {ps : List Fragment} (h : Settled ps) :
    Settled (addFront c ps) := by
  by_cases hc : c = '('
  · subst hc
    cases hclose : closeGroup? ps with
    | none =>
      rw [addFront_open_none hclose]
      exact .plain (fun _ => hclose) h
    | some closed =>
      obtain ⟨rfl, hfree⟩ := closeGroup?_eq_some_iff.mp hclose
      rw [addFront_open_some hclose]
      refine .group hfree ?_
      cases h.of_append with
      | plain _ h => exact h
  · rw [addFront_of_ne hc]
    exact .plain (fun h => absurd h hc) h

theorem settled_fragments (text : List Char) : Settled (fragments text) := by
  induction text with
  | nil => exact .nil
  | cons c text ih => exact ih.addFront

theorem closeGroup?_fragments {inside : List Char} (h : IsParenFree inside) (b : List Char) :
    closeGroup? (fragments (inside ++ ')' :: b)) = some (inside, fragments b) := by
  refine closeGroup?_eq_some_iff.mpr ⟨?_, h⟩
  rw [fragments, List.foldr_append, foldr_addFront_plain fun c hc => (h c hc).1, List.foldr_cons,
    addFront_of_ne (by decide)]
  rfl

theorem group_text_append (inside b : List Char) :
    (Fragment.group inside).text ++ b = '(' :: (inside ++ ')' :: b) := by
  simp [Fragment.text]

theorem fragments_group_append {inside : List Char} (h : IsParenFree inside) (b : List Char) :
    fragments ((Fragment.group inside).text ++ b) = .group inside :: fragments b := by
  rw [group_text_append, fragments, List.foldr_cons, ← fragments]
  exact addFront_open_some (closeGroup?_fragments h b)

/-- Settled fragments are the fragments of their text. -/
theorem Settled.fragments_text {ps : List Fragment} (h : Settled ps) : fragments (ps.flatMap Fragment.text) = ps := by
  induction h with
  | nil => rfl
  | @plain c ps h _ ih =>
    rw [List.flatMap_cons, fragments, List.foldr_append, ← fragments, ih]
    by_cases hc : c = '('
    · subst hc
      exact addFront_open_none (h rfl)
    · exact addFront_of_ne hc ps
  | group h _ ih => rw [List.flatMap_cons, fragments_group_append h, ih]

/-- The fragments of a text are the text. -/
theorem flatMap_text_fragments (text : List Char) : (fragments text).flatMap Fragment.text = text := by
  induction text with
  | nil => rfl
  | cons c text ih =>
    have front : (addFront c (fragments text)).flatMap Fragment.text =
        c :: (fragments text).flatMap Fragment.text := by
      by_cases hc : c = '('
      · subst hc
        cases hclose : closeGroup? (fragments text) with
        | none => rw [addFront_open_none hclose]; rfl
        | some closed =>
          rw [addFront_open_some hclose, (closeGroup?_eq_some_iff.mp hclose).1]
          simp [Fragment.text, List.flatMap_map]
      · rw [addFront_of_ne hc]; rfl
    rw [fragments, List.foldr_cons, ← fragments, front, ih]

/-- If no group can be closed, no closing parenthesis comes before an opening one. -/
theorem Settled.text_ne_of_closeGroup? {fs : List Fragment} (hfs : Settled fs)
    (h : closeGroup? fs = none) {inside : List Char} (hfree : IsParenFree inside)
    (rest : List Char) : fs.flatMap Fragment.text ≠ inside ++ ')' :: rest := by
  intro same
  have closed := closeGroup?_fragments hfree rest
  rw [← same, hfs.fragments_text, h] at closed
  cases closed

/-! ### Groups inside a text -/

theorem closeGroup?_append_group (ps qs : List Fragment) (inside : List Char) :
    closeGroup? (ps ++ .group inside :: qs) =
      (closeGroup? ps).map fun closed => (closed.1, closed.2 ++ .group inside :: qs) := by
  induction ps with
  | nil => rfl
  | cons p ps ih =>
    cases p with
    | group i => rfl
    | plain c =>
      rw [List.cons_append, closeGroup?, closeGroup?]
      by_cases hclose : c = ')'
      · simp [hclose]
      · by_cases hopen : c = '('
        · simp [hopen]
        · simp only [if_neg hclose, if_neg hopen, ih, Option.map_map]
          rfl

theorem addFront_append_group (c : Char) (ps qs : List Fragment) (inside : List Char) :
    addFront c (ps ++ .group inside :: qs) = addFront c ps ++ .group inside :: qs := by
  by_cases hc : c = '('
  · subst hc
    cases hclose : closeGroup? ps with
    | none =>
      rw [addFront_open_none hclose, addFront_open_none (by simp [closeGroup?_append_group, hclose])]
      rfl
    | some closed =>
      have hclose' : closeGroup? (ps ++ .group inside :: qs) =
          some (closed.1, closed.2 ++ .group inside :: qs) := by
        rw [closeGroup?_append_group, hclose]; rfl
      rw [addFront_open_some hclose, addFront_open_some hclose']
      rfl
  · rw [addFront_of_ne hc, addFront_of_ne hc]; rfl

/-- Every group of a text is one of its fragments, whatever stands around it. -/
theorem fragments_append_group (a b : List Char) {inside : List Char} (h : IsParenFree inside) :
    fragments (a ++ ((Fragment.group inside).text ++ b)) = fragments a ++ .group inside :: fragments b := by
  rw [fragments, List.foldr_append, ← fragments, fragments_group_append h]
  induction a with
  | nil => rfl
  | cons c a ih => rw [List.foldr_cons, ih, addFront_append_group]; rfl

/-! ### Replacing groups -/

/-- New fragments for the groups of a text. They start with a group and leave no parenthesis open. -/
structure Replacement (f : Fragment → List Fragment) : Prop where
  plain : ∀ c, f (.plain c) = [.plain c]
  first : ∀ inside, ∃ i rest, f (.group inside) = .group i :: rest
  settled : ∀ inside ps, IsParenFree inside → Settled ps → Settled (f (.group inside) ++ ps)

theorem closeGroup?_flatMap {f : Fragment → List Fragment} (hf : Replacement f) {ps : List Fragment}
    (h : closeGroup? ps = none) : closeGroup? (ps.flatMap f) = none := by
  induction ps with
  | nil => rfl
  | cons p ps ih =>
    cases p with
    | group inside =>
      obtain ⟨i, rest, first⟩ := hf.first inside
      rw [List.flatMap_cons, first]; rfl
    | plain c =>
      rw [List.flatMap_cons, hf.plain, List.singleton_append]
      rw [closeGroup?] at h ⊢
      by_cases hclose : c = ')'
      · simp [hclose] at h
      · by_cases hopen : c = '('
        · simp [hopen]
        · simp only [if_neg hclose, if_neg hopen, Option.map_eq_none_iff] at h ⊢
          exact ih h

/-- Replacing groups neither opens nor closes a group elsewhere. -/
theorem Settled.flatMap {f : Fragment → List Fragment} (hf : Replacement f) {ps : List Fragment}
    (h : Settled ps) : Settled (ps.flatMap f) := by
  induction h with
  | nil => exact .nil
  | plain hopen _ ih =>
    rw [List.flatMap_cons, hf.plain]
    exact .plain (fun hc => closeGroup?_flatMap hf (hopen hc)) ih
  | group hfree _ ih =>
    rw [List.flatMap_cons]
    exact hf.settled _ _ hfree ih

/-- The fragments of a text with new groups are the new fragments. -/
theorem fragments_replaced {f : Fragment → List Fragment} (hf : Replacement f) (text : List Char) :
    fragments ((fragments text).flatMap fun p => (f p).flatMap Fragment.text) = (fragments text).flatMap f := by
  rw [← List.flatMap_assoc, ((settled_fragments text).flatMap hf).fragments_text]

end MediaRange
