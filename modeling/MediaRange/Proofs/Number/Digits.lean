/-!
# Runs of digits

A run of digits ends before the first other character (`takeWhile_append_of_head?`). The digits of a
number have no zero in front (`head?_toDigits`).
-/

namespace MediaRange

theorem takeWhile_append_of_head? {α : Type} {p : α → Bool} {u v : List α}
    (hu : ∀ a ∈ u, p a = true) (hv : ∀ a ∈ v.head?, p a = false) :
    (u ++ v).takeWhile p = u ∧ (u ++ v).dropWhile p = v := by
  rw [List.takeWhile_append_of_pos hu, List.dropWhile_append_of_pos hu]
  cases v with
  | nil => exact ⟨List.append_nil u, rfl⟩
  | cons a v =>
    have stop : ¬ p a = true := by simp [hv a rfl]
    rw [List.takeWhile_cons_of_neg stop, List.dropWhile_cons_of_neg stop]
    exact ⟨List.append_nil u, rfl⟩

/-! ### The digits of a number -/

theorem isDigit_toDigits {n : Nat} : ∀ c ∈ Nat.toDigits 10 n, c.isDigit = true := fun _ hc =>
  Nat.isDigit_of_mem_toDigits (by decide) (by decide) hc

theorem exists_head_toDigits (n : Nat) :
    ∃ c digits, Nat.toDigits 10 n = c :: digits ∧ c.isDigit = true := by
  obtain ⟨c, digits, cut⟩ := List.exists_cons_of_ne_nil
    (Nat.toDigits_ne_nil : Nat.toDigits 10 n ≠ [])
  exact ⟨c, digits, cut, isDigit_toDigits c (by rw [cut]; exact List.mem_cons_self)⟩

theorem head?_toDigits {n : Nat} (h : (Nat.toDigits 10 n).head? = some '0') : n = 0 := by
  induction n using Nat.strongRecOn with
  | _ n ih =>
    -- The first digit of a large number is that of a tenth of it, which is not zero.
    rw [Nat.toDigits_eq_if (by decide)] at h
    split at h
    · rename_i small
      have digits : ∀ d < 10, [Nat.digitChar d].head? = some '0' → d = 0 := by decide
      exact digits n small h
    · rename_i large
      obtain ⟨c, digits, cut, -⟩ := exists_head_toDigits (n / 10)
      rw [cut] at h
      have zero := ih (n / 10) (by omega) (by rw [cut]; exact h)
      omega

end MediaRange
