import Mathlib.Data.List.Forall2
import Mathlib.Order.Bounds.Basic
import MediaRange.EditDistance

/-!
# The least number of edits

`Edits n xs ys` says that `n` edits of one element each turn one list into the other. Every row of
the table holds the least numbers of edits between prefixes (`IsRow`), so the distance is the least
number between the lists (`isDistance_editDistance`). As edits can be undone and follow one another, it
is symmetric and satisfies the triangle inequality.
-/

namespace MediaRange

variable {α : Type}

/-- The insertions, deletions and substitutions that turn the first list into the second, made from
left to right and counted. -/
inductive Edits : Nat → List α → List α → Prop where
  | nil : Edits 0 [] []
  | keep {n : Nat} {xs ys : List α} (x : α) (rest : Edits n xs ys) : Edits n (x :: xs) (x :: ys)
  | substitute {n : Nat} {xs ys : List α} (x y : α) (rest : Edits n xs ys) :
      Edits (n + 1) (x :: xs) (y :: ys)
  | insert {n : Nat} {xs ys : List α} (y : α) (rest : Edits n xs ys) : Edits (n + 1) xs (y :: ys)
  | delete {n : Nat} {xs ys : List α} (x : α) (rest : Edits n xs ys) : Edits (n + 1) (x :: xs) ys

namespace Edits

variable {m n : Nat} {xs ys zs us vs : List α}

theorem symm (h : Edits n xs ys) : Edits n ys xs := by
  induction h with
  | nil => exact .nil
  | keep x _ ih => exact .keep x ih
  | substitute x y _ ih => exact .substitute y x ih
  | insert y _ ih => exact .delete y ih
  | delete x _ ih => exact .insert x ih

theorem append (h : Edits m xs ys) (k : Edits n us vs) : Edits (m + n) (xs ++ us) (ys ++ vs) := by
  induction h with
  | nil => simpa using k
  | keep x _ ih => exact .keep x ih
  | substitute x y _ ih =>
    rw [Nat.add_right_comm]
    exact .substitute x y ih
  | insert y _ ih =>
    rw [Nat.add_right_comm]
    exact .insert y ih
  | delete x _ ih =>
    rw [Nat.add_right_comm]
    exact .delete x ih

/-- The edits can be made from right to left as well. -/
theorem reverse (h : Edits n xs ys) : Edits n xs.reverse ys.reverse := by
  induction h with
  | nil => exact .nil
  | keep x _ ih =>
    rw [List.reverse_cons, List.reverse_cons]
    exact ih.append (.keep x .nil)
  | substitute x y _ ih =>
    rw [List.reverse_cons, List.reverse_cons]
    exact ih.append (.substitute x y .nil)
  | @insert n xs ys y _ ih =>
    rw [List.reverse_cons, ← List.append_nil xs.reverse]
    exact ih.append (.insert y .nil)
  | @delete n xs ys x _ ih =>
    rw [List.reverse_cons, ← List.append_nil ys.reverse]
    exact ih.append (.delete x .nil)

theorem reverse_iff : Edits n xs.reverse ys.reverse ↔ Edits n xs ys := by
  constructor
  · intro h
    simpa using h.reverse
  · exact reverse

theorem nil_right_iff : Edits n xs [] ↔ n = xs.length := by
  constructor
  · intro h
    induction xs generalizing n with
    | nil =>
      cases h
      rfl
    | cons x xs ih =>
      cases h with
      | delete _ rest => rw [ih rest, List.length_cons]
  · rintro rfl
    induction xs with
    | nil => exact .nil
    | cons x xs ih => exact .delete x ih

/-- Edits that follow others can be made at once, and are no more than both together. What is inserted
last or deleted at first is one edit; any other first element is seen by both. -/
theorem trans {m n : Nat} {xs ys zs : List α} (h : Edits m xs ys) (k : Edits n ys zs) :
    ∃ l ≤ m + n, Edits l xs zs := by
  match h, k with
  | .nil, .nil => exact ⟨0, by omega, .nil⟩
  | h, .insert z k =>
    obtain ⟨l, hl, edits⟩ := trans h k
    exact ⟨l + 1, by omega, .insert z edits⟩
  | .delete x h, k =>
    obtain ⟨l, hl, edits⟩ := trans h k
    exact ⟨l + 1, by omega, .delete x edits⟩
  | .keep x h, .keep _ k =>
    obtain ⟨l, hl, edits⟩ := trans h k
    exact ⟨l, hl, .keep x edits⟩
  | .keep x h, .substitute _ z k =>
    obtain ⟨l, hl, edits⟩ := trans h k
    exact ⟨l + 1, by omega, .substitute x z edits⟩
  | .keep x h, .delete _ k =>
    obtain ⟨l, hl, edits⟩ := trans h k
    exact ⟨l + 1, by omega, .delete x edits⟩
  | .substitute x y h, .keep _ k =>
    obtain ⟨l, hl, edits⟩ := trans h k
    exact ⟨l + 1, by omega, .substitute x y edits⟩
  | .substitute x _ h, .substitute _ z k =>
    obtain ⟨l, hl, edits⟩ := trans h k
    exact ⟨l + 1, by omega, .substitute x z edits⟩
  | .substitute x _ h, .delete _ k =>
    obtain ⟨l, hl, edits⟩ := trans h k
    exact ⟨l + 1, by omega, .delete x edits⟩
  | .insert y h, .keep _ k =>
    obtain ⟨l, hl, edits⟩ := trans h k
    exact ⟨l + 1, by omega, .insert y edits⟩
  | .insert _ h, .substitute _ z k =>
    obtain ⟨l, hl, edits⟩ := trans h k
    exact ⟨l + 1, by omega, .insert z edits⟩
  | .insert _ h, .delete _ k =>
    obtain ⟨l, hl, edits⟩ := trans h k
    exact ⟨l, by omega, edits⟩
termination_by xs.length + ys.length + zs.length

/-- What the second list does not have may be exchanged for anything in the first; `P` holds of what it
has. -/
theorem exchange {P : α → Prop} (h : Edits n xs zs) (hzs : ∀ z ∈ zs, P z)
    (alike : List.Forall₂ (fun x y => P x → y = x) xs ys) : Edits n ys zs := by
  induction h generalizing ys with
  | nil =>
    cases alike
    exact .nil
  | keep x _ ih =>
    obtain ⟨hx, hzs⟩ := List.forall_mem_cons.mp hzs
    cases alike with
    | cons same alike =>
      rw [same hx]
      exact .keep x (ih hzs alike)
  | substitute x z _ ih =>
    cases alike with
    | cons _ alike => exact .substitute _ z (ih (List.forall_mem_cons.mp hzs).2 alike)
  | insert z _ ih => exact .insert z (ih (List.forall_mem_cons.mp hzs).2 alike)
  | delete x _ ih =>
    cases alike with
    | cons _ alike => exact .delete _ (ih hzs alike)

end Edits

/-! ### The table -/

/-- The least number of edits between two lists. -/
def IsDistance (d : Nat) (xs ys : List α) : Prop := IsLeast {n | Edits n xs ys} d

theorem isDistance_nil {xs : List α} : IsDistance xs.length xs [] := by
  constructor
  · exact Edits.nil_right_iff.mpr rfl
  · intro n h
    exact (Edits.nil_right_iff.mp h).ge

theorem IsDistance.eq_length {d : Nat} {xs : List α} (h : IsDistance d xs []) : d = xs.length :=
  Edits.nil_right_iff.mp h.1

theorem IsDistance.symm {d : Nat} {xs ys : List α} (h : IsDistance d xs ys) : IsDistance d ys xs :=
  ⟨h.1.symm, fun _ edits => h.2 edits.symm⟩

/-- An entry of the table from the three before it. -/
theorem isDistance_cons [DecidableEq α] {x y : α} {xs ys : List α} {left above diagonal : Nat}
    (hleft : IsDistance left (x :: xs) ys) (habove : IsDistance above xs (y :: ys))
    (hdiagonal : IsDistance diagonal xs ys) :
    IsDistance (min (min (left + 1) (above + 1)) (if x = y then diagonal else diagonal + 1))
      (x :: xs) (y :: ys) := by
  have inserted : Edits (left + 1) (x :: xs) (y :: ys) := .insert y hleft.1
  have deleted : Edits (above + 1) (x :: xs) (y :: ys) := .delete x habove.1
  constructor
  · show Edits _ (x :: xs) (y :: ys)
    split
    · rename_i same
      subst same
      have kept : Edits diagonal (x :: xs) (x :: ys) := .keep x hdiagonal.1
      grind
    · have substituted : Edits (diagonal + 1) (x :: xs) (y :: ys) := .substitute x y hdiagonal.1
      grind
  · intro n h
    -- The first of the edits says which of the three entries bounds the others.
    cases h with
    | keep _ rest =>
      have := hdiagonal.2 rest
      rw [if_pos rfl]
      omega
    | substitute _ _ rest =>
      have := hdiagonal.2 rest
      split <;> omega
    | insert _ rest =>
      have := hleft.2 rest
      omega
    | delete _ rest =>
      have := habove.2 rest
      omega

/-- A row of the table: the distances of `xs` from `before`, and from what it becomes as the elements of
the third list are put in front of it. Both `xs` and `before` are prefixes read backwards. -/
inductive IsRow (xs : List α) : List α → List α → List Nat → Prop where
  | last {before : List α} {d : Nat} (h : IsDistance d xs before) : IsRow xs before [] [d]
  | cons {before ys : List α} {y : α} {d : Nat} {row : List Nat} (h : IsDistance d xs before)
      (rest : IsRow xs (y :: before) ys row) : IsRow xs before (y :: ys) (d :: row)

namespace IsRow

variable {xs before ys : List α} {row : List Nat}

theorem head (h : IsRow xs before ys row) : IsDistance (row.headD 0) xs before := by
  cases h with
  | last h => exact h
  | cons h _ => exact h

theorem getLast (h : IsRow xs before ys row) :
    IsDistance (row.getLastD 0) xs (ys.reverse ++ before) := by
  induction h with
  | last h => exact h
  | cons h rest ih =>
    cases rest with
    | last _ => simpa using ih
    | cons _ _ => simpa using ih

theorem edit [DecidableEq α] {x : α} {left : Nat} (h : IsRow xs before ys row)
    (hleft : IsDistance left (x :: xs) before) :
    IsRow (x :: xs) before ys (left :: editRow x left ys row) := by
  induction h generalizing left with
  | last _ => exact .last hleft
  | cons h rest ih =>
    apply IsRow.cons hleft
    -- The entry above stands first in what is left of the row.
    cases rest with
    | last above => exact ih (isDistance_cons hleft above h)
    | cons above _ => exact ih (isDistance_cons hleft above h)

theorem next [DecidableEq α] (h : IsRow xs [] ys row) (x : α) :
    IsRow (x :: xs) [] ys (nextEditRow ys row x) := by
  apply h.edit
  rw [h.head.eq_length]
  exact isDistance_nil

theorem foldl [DecidableEq α] (h : IsRow xs [] ys row) (more : List α) :
    IsRow (more.reverse ++ xs) [] ys (more.foldl (nextEditRow ys) row) := by
  induction more generalizing xs row with
  | nil => exact h
  | cons x more ih =>
    rw [List.reverse_cons, List.append_assoc]
    exact ih (h.next x)

/-- The first row. -/
theorem range (before ys : List α) :
    IsRow [] before ys (List.range' before.length (ys.length + 1)) := by
  induction ys generalizing before with
  | nil => exact .last isDistance_nil.symm
  | cons y ys ih => exact .cons isDistance_nil.symm (ih (y :: before))

end IsRow

/-! ### The distance -/

variable [DecidableEq α] (xs ys zs : List α)

theorem isDistance_editDistance : IsDistance (editDistance xs ys) xs ys := by
  have first : IsRow [] [] ys (List.range (ys.length + 1)) := by
    rw [List.range_eq_range']
    exact IsRow.range [] ys
  have last := (first.foldl xs).getLast
  rw [List.append_nil, List.append_nil] at last
  exact ⟨Edits.reverse_iff.mp last.1, fun n edits => last.2 (Edits.reverse_iff.mpr edits)⟩

variable {xs ys zs} in
theorem editDistance_le_iff {n : Nat} : editDistance xs ys ≤ n ↔ ∃ m ≤ n, Edits m xs ys := by
  constructor
  · intro h
    exact ⟨_, h, (isDistance_editDistance xs ys).1⟩
  · rintro ⟨m, hm, edits⟩
    exact ((isDistance_editDistance xs ys).2 edits).trans hm

theorem editDistance_comm : editDistance xs ys = editDistance ys xs :=
  (isDistance_editDistance xs ys).unique (isDistance_editDistance ys xs).symm

theorem editDistance_triangle :
    editDistance xs zs ≤ editDistance xs ys + editDistance ys zs :=
  editDistance_le_iff.mpr ((isDistance_editDistance xs ys).1.trans (isDistance_editDistance ys zs).1)

end MediaRange
