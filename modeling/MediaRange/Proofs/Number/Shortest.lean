import MediaRange.Number.Shortest
import MediaRange.Proofs.Number.Rounding

/-!
# The shortest decimal

The written form of a double reads back as that double (`ofRat_decimalValue`). On a grid that is
coarser than the doubles around it no other decimal does, so an integer up to `2 ^ 53` and a number
with six decimal places are written as they are (`decimalValue_intCast`, `decimalValue_micro`).
-/

namespace MediaRange.Binary64

/-! ### Digits before the point -/

theorem zpow_length_toDigits_bounds {n : Nat} (h : n ≠ 0) :
    (10 : Rat) ^ (((Nat.toDigits 10 n).length : Int) - 1) ≤ n ∧
      (n : Rat) < 10 ^ (((Nat.toDigits 10 n).length : Int) - 1 + 1) := by
  obtain ⟨k, hk⟩ : ∃ k, (Nat.toDigits 10 n).length = k + 1 :=
    ⟨_, (Nat.succ_pred_eq_of_pos Nat.length_toDigits_pos).symm⟩
  rw [hk, Nat.cast_add_one, add_sub_cancel_right]
  constructor
  · rcases Nat.eq_zero_or_pos k with rfl | pos
    · rw [Nat.cast_zero, zpow_zero]
      exact_mod_cast Nat.one_le_iff_ne_zero.mpr h
    · have long : ¬ n < 10 ^ k := fun small => by
        have := (Nat.length_toDigits_le_iff (by decide) pos).mpr small
        omega
      exact_mod_cast not_lt.mp long
  · exact_mod_cast (Nat.length_toDigits_le_iff (by decide) k.succ_pos).mp hk.le

theorem decimalMagnitude_bounds {q : Rat} (h : 0 < q) :
    (10 : Rat) ^ (decimalMagnitude q - 1) ≤ q ∧ q < (10 : Rat) ^ decimalMagnitude q := by
  have num_ne : q.num.natAbs ≠ 0 := Int.natAbs_ne_zero.mpr (Rat.num_ne_zero.mpr h.ne')
  have bounds := zpow_bounds_div (by norm_num) (zpow_length_toDigits_bounds num_ne)
    (zpow_length_toDigits_bounds q.den_nz)
  rw [natAbs_num_div_den, abs_of_pos h, sub_sub_sub_cancel_right] at bounds
  unfold decimalMagnitude
  dsimp only
  split_ifs with below
  · exact ⟨bounds.1, below⟩
  · exact ⟨by rw [add_sub_cancel_right]; exact not_lt.mp below, bounds.2⟩

/-! ### Decimals of a given length -/

theorem readsBack_iff {v : Rat} {d : Decimal} : readsBack v d = true ↔ ofRat d.value = finite v :=
  decide_eq_true_iff

theorem withDigits?_eq_some {v : Rat} {count : Nat} {d : Decimal} (h : withDigits? v count = some d) :
    d.exponent = decimalMagnitude v - count ∧ ofRat d.value = finite v := by
  unfold withDigits? at h
  dsimp only at h
  split at h <;> cases h
  case h_1 lower upper =>
    split_ifs
    · exact ⟨rfl, readsBack_iff.mp lower⟩
    · exact ⟨rfl, readsBack_iff.mp upper⟩
  case h_2 lower _ => exact ⟨rfl, readsBack_iff.mp lower⟩
  case h_3 _ upper => exact ⟨rfl, readsBack_iff.mp upper⟩

/-- Only the neighbours of a number are tried, which are all that are near enough. -/
theorem withDigits?_isSome {v : Rat} (hv : 0 < v) {count D : Nat}
    (near : |D * (10 : Rat) ^ (decimalMagnitude v - count) - v| <
      (10 : Rat) ^ (decimalMagnitude v - count))
    (reads : ofRat (D * (10 : Rat) ^ (decimalMagnitude v - count)) = finite v) :
    (withDigits? v count).isSome := by
  unfold withDigits?
  generalize decimalMagnitude v - count = e at near reads ⊢
  have pos : (0 : Rat) < 10 ^ e := by positivity
  obtain ⟨n, hn⟩ := Int.eq_ofNat_of_zero_le
    (Int.floor_nonneg.mpr (div_nonneg hv.le pos.le))
  have cases : D = n ∨ D = n + 1 := by
    have lower : (n : Rat) ≤ v / 10 ^ e := by
      have := Int.floor_le (v / (10 : Rat) ^ e)
      rwa [hn] at this
    have upper : v / 10 ^ e < n + 1 := by
      have := Int.lt_floor_add_one (v / (10 : Rat) ^ e)
      rwa [hn] at this
    rw [le_div_iff₀ pos] at lower
    rw [div_lt_iff₀ pos] at upper
    obtain ⟨above, below⟩ := abs_lt.mp near
    have high : ((D : Nat) : Rat) < ((n + 2 : Nat) : Rat) := by
      refine lt_of_mul_lt_mul_right ?_ pos.le
      push_cast
      linarith
    have low : ((n : Nat) : Rat) < ((D + 1 : Nat) : Rat) := by
      refine lt_of_mul_lt_mul_right ?_ pos.le
      push_cast
      linarith
    have high := Nat.cast_lt.mp high
    have low := Nat.cast_lt.mp low
    omega
  have floor : (v / (10 : Rat) ^ e).floor.toNat = n := by
    rw [show (v / (10 : Rat) ^ e).floor = ⌊v / (10 : Rat) ^ e⌋ from rfl, hn]
    rfl
  dsimp only
  rw [floor]
  rcases cases with rfl | rfl
  · rw [show readsBack v ⟨D, e⟩ = true from readsBack_iff.mpr reads]
    cases readsBack v ⟨D + 1, e⟩ <;> simp
  · have reads : readsBack v ⟨n + 1, e⟩ = true := readsBack_iff.mpr reads
    rw [reads]
    cases readsBack v ⟨n, e⟩ <;> simp

/-! ### The first length that suffices -/

theorem exists_withDigits?_eq_shortest {v : Rat} {count : Nat} (low : 0 < count) (high : count ≤ 17)
    (h : (withDigits? v count).isSome) : ∃ n ≤ count, withDigits? v n = some (shortest v) := by
  have member : count - 1 ∈ List.range 17 := List.mem_range.mpr (by omega)
  have found : ((List.range 17).findSome? fun n => withDigits? v (n + 1)).isSome :=
    List.findSome?_isSome_iff.mpr ⟨_, member, by rwa [Nat.sub_add_cancel low]⟩
  obtain ⟨d, hd⟩ := Option.isSome_iff_exists.mp found
  obtain ⟨before, n, after, cut, hn, none⟩ := List.findSome?_eq_some_iff.mp hd
  refine ⟨n + 1, ?_, by rw [hn, shortest, hd]; rfl⟩
  rw [cut] at member
  rcases List.mem_append.mp member with earlier | later
  · have := none _ earlier
    rw [Nat.sub_add_cancel low] at this
    rw [this] at h
    cases h
  · have sorted := List.pairwise_lt_range (n := 17)
    rw [cut] at sorted
    have sorted := (List.pairwise_cons.mp (List.pairwise_append.mp sorted).2.1).1
    rcases List.mem_cons.mp later with same | larger
    · omega
    · have := sorted _ larger
      omega

/-- Of the decimals with seventeen digits, the nearest one reads back. -/
theorem withDigits?_seventeen {v : Rat} (hv : 0 < v) (h : IsDouble v) :
    (withDigits? v 17).isSome := by
  have grid : (10 : Rat) ^ (decimalMagnitude v - (17 : Nat)) ≤ 1 / 10 ^ 16 * v := by
    calc (10 : Rat) ^ (decimalMagnitude v - (17 : Nat))
        = 10 ^ (decimalMagnitude v - 1) / 10 ^ (16 : Int) := by
          rw [← zpow_sub₀ (by norm_num)]; congr 1; omega
      _ ≤ v / 10 ^ (16 : Int) := by gcongr; exact (decimalMagnitude_bounds hv).1
      _ = 1 / 10 ^ 16 * v := by rw [div_mul_eq_mul_div, one_mul]; rfl
  have pos : (0 : Rat) < 10 ^ (decimalMagnitude v - (17 : Nat)) := by positivity
  generalize he : (10 : Rat) ^ (decimalMagnitude v - (17 : Nat)) = unit at grid pos
  have near := (isNearest_roundEven (v / unit)).le_half
  obtain ⟨D, hD⟩ : ∃ D : Nat, roundEven (v / unit) = D := by
    have positive := div_pos hv pos
    have bound : ((0 : Int) : Rat) < ((roundEven (v / unit) + 1 : Int) : Rat) := by
      push_cast
      linarith [(abs_le.mp near).2]
    exact Int.eq_ofNat_of_zero_le (Int.lt_add_one_iff.mp (Int.cast_lt.mp bound))
  rw [hD, Int.cast_natCast] at near
  have half : |D * unit - v| ≤ unit / 2 := by
    have scaled : D * unit - v = -((v / unit - D) * unit) := by field_simp; ring
    rw [scaled, abs_neg, abs_mul, abs_of_pos pos]
    calc |v / unit - D| * unit ≤ 1 / 2 * unit := by gcongr
      _ = unit / 2 := by ring
  have close : |D * unit - v| ≤ 5 / 10 ^ 17 * |v| := by
    rw [abs_of_pos hv]
    calc |D * unit - v| ≤ unit / 2 := half
      _ ≤ 1 / 10 ^ 16 * v / 2 := by gcongr
      _ = 5 / 10 ^ 17 * v := by ring
  refine withDigits?_isSome hv (D := D) ?_ ?_ <;> rw [he]
  · linarith
  · exact ofRat_of_close h close

theorem ofRat_shortest {v : Rat} (hv : 0 < v) (h : IsDouble v) :
    ofRat (shortest v).value = finite v := by
  obtain ⟨n, -, hn⟩ :=
    exists_withDigits?_eq_shortest (by decide) le_rfl (withDigits?_seventeen hv h)
  exact (withDigits?_eq_some hn).2

theorem shortest_digits_ne_zero {v : Rat} (hv : 0 < v) (h : IsDouble v) :
    (shortest v).digits ≠ 0 := by
  intro zero
  have reads := ofRat_shortest hv h
  rw [Decimal.value, zero, Nat.cast_zero, zero_mul, ofRat_zero] at reads
  exact hv.ne (finite.inj reads)

/-! ### Reading the written form -/

theorem decimalValue_neg (v : Rat) : decimalValue (-v) = -decimalValue v := by
  unfold decimalValue
  rcases lt_trichotomy v 0 with neg | rfl | pos
  · simp [neg, neg.ne, neg.le]
  · simp
  · simp [pos, pos.ne', pos.le]

theorem decimalValue_of_pos {v : Rat} (hv : 0 < v) : decimalValue v = (shortest v).value := by
  simp [decimalValue, hv.ne', hv.le]

/-- The written form of a double reads back as that double. -/
theorem ofRat_decimalValue {v : Rat} (h : IsDouble v) : ofRat (decimalValue v) = finite v := by
  rcases lt_trichotomy v 0 with neg | rfl | pos
  · rw [← neg_neg v, decimalValue_neg, ofRat_neg, neg_neg, decimalValue_of_pos (neg_pos.mpr neg)]
    exact ofRat_shortest (neg_pos.mpr neg) h.neg
  · exact ofRat_zero
  · rw [decimalValue_of_pos pos]
    exact ofRat_shortest pos h

theorem abs_sub_decimalValue_le {v : Rat} (h : IsDouble v) {k : Int} (low : -1021 ≤ k)
    (bound : |v| < (2 : Rat) ^ k) : |v - decimalValue v| ≤ (2 : Rat) ^ (k - 54) :=
  abs_sub_le_of_double (ofRat_decimalValue h) low bound

/-! ### Coarse grids -/

/-- On a grid where no second decimal can read back, the shortest decimal is the one that does. -/
theorem shortest_value_eq {v : Rat} {D : Nat} {e : Int} (hv : 0 < v)
    (fine : e < decimalMagnitude v) (coarse : decimalMagnitude v ≤ e + 17)
    (reads : ofRat (D * (10 : Rat) ^ e) = finite v)
    (alone : ∀ d, ofRat d = finite v → |d - D * (10 : Rat) ^ e| < (10 : Rat) ^ e) :
    (shortest v).value = D * (10 : Rat) ^ e := by
  obtain ⟨count, hcount⟩ := Int.eq_ofNat_of_zero_le (show 0 ≤ decimalMagnitude v - e by omega)
  have exponent : decimalMagnitude v - count = e := by omega
  have some : (withDigits? v count).isSome := by
    refine withDigits?_isSome hv (D := D) ?_ ?_ <;> rw [exponent]
    · rw [abs_sub_comm]
      exact alone v (ofRat_of_isDouble (isDouble_of_ofRat reads))
    · exact reads
  obtain ⟨n, hn, found⟩ := exists_withDigits?_eq_shortest (by omega) (by omega) some
  obtain ⟨hexponent, back⟩ := withDigits?_eq_some found
  obtain ⟨j, hj⟩ := Int.eq_ofNat_of_zero_le (show 0 ≤ (shortest v).exponent - e by omega)
  -- A shorter decimal lies on the same grid.
  have grid : (shortest v).value = ((shortest v).digits * 10 ^ j : Nat) * (10 : Rat) ^ e := by
    rw [Decimal.value, show (shortest v).exponent = j + e by omega, zpow_add₀ (by norm_num),
      zpow_natCast]
    push_cast
    ring
  have close := alone _ back
  rw [grid] at close ⊢
  have pos : (0 : Rat) < 10 ^ e := by positivity
  rw [← sub_mul, abs_mul, abs_of_pos pos, mul_lt_iff_lt_one_left pos] at close
  have same : (((shortest v).digits * 10 ^ j : Nat) : Int) - D = 0 := by
    rw [← Int.abs_lt_one_iff]
    exact_mod_cast close
  rw [show (shortest v).digits * 10 ^ j = D by omega]

theorem decimalMagnitude_gt {v : Rat} {e : Int} (h : (10 : Rat) ^ e ≤ v) : e < decimalMagnitude v := by
  have hv : 0 < v := (by positivity : (0 : Rat) < 10 ^ e).trans_le h
  exact (zpow_lt_zpow_iff_right₀ (by norm_num)).mp (h.trans_lt (decimalMagnitude_bounds hv).2)

theorem decimalMagnitude_le {v : Rat} {e : Int} (hv : 0 < v) (h : v < (10 : Rat) ^ e) :
    decimalMagnitude v ≤ e := by
  have := (zpow_lt_zpow_iff_right₀ (by norm_num)).mp ((decimalMagnitude_bounds hv).1.trans_lt h)
  omega

theorem shortest_value_natCast {n : Nat} (pos : 0 < n) (bound : n < 2 ^ 53) :
    (shortest n).value = n := by
  have reads : ofRat (n : Rat) = finite n := by
    exact_mod_cast ofRat_intCast (k := n) (by rw [Nat.abs_cast]; exact_mod_cast bound.le)
  have large : (10 : Rat) ^ (0 : Int) ≤ n := by
    rw [zpow_zero]
    exact_mod_cast pos
  have small : (n : Rat) < 2 ^ (53 : Int) := by exact_mod_cast bound
  have h := shortest_value_eq (v := n) (D := n) (e := 0) (by exact_mod_cast pos)
    (decimalMagnitude_gt large)
    (decimalMagnitude_le (by exact_mod_cast pos) (small.trans (by norm_num)))
    (by rwa [zpow_zero, mul_one]) fun d hd => by
      rw [zpow_zero, mul_one, abs_sub_comm]
      refine (abs_sub_le_of_double hd (k := 53) (by decide) (by rwa [Nat.abs_cast])).trans_lt ?_
      norm_num
  rwa [zpow_zero, mul_one] at h

/-- Integers up to `2 ^ 53` are written as they are. The last one shares its double with the next
integer, but is the nearer of both. -/
theorem decimalValue_intCast {k : Int} (h : |k| ≤ 2 ^ 53) : decimalValue k = k := by
  have positive {n : Nat} (pos : 0 < n) (bound : n ≤ 2 ^ 53) : decimalValue n = n := by
    rcases bound.lt_or_eq with lt | rfl
    · rw [decimalValue_of_pos (by exact_mod_cast pos), shortest_value_natCast pos lt]
    · decide +kernel
  obtain ⟨n, rfl | rfl⟩ := k.eq_nat_or_neg <;> rcases n.eq_zero_or_pos with rfl | pos
  · rfl
  · rw [Nat.abs_cast] at h
    exact_mod_cast positive pos (by exact_mod_cast h)
  · rfl
  · rw [abs_neg, Nat.abs_cast] at h
    rw [Int.cast_neg, decimalValue_neg, Int.cast_natCast, positive pos (by exact_mod_cast h)]

theorem shortest_value_micro {n : Nat} {v : Rat} (pos : 0 < n) (bound : n < 2 ^ 30 * 10 ^ 6)
    (h : ofRat (n * (10 : Rat) ^ (-6 : Int)) = finite v) :
    0 < v ∧ (shortest v).value = n * (10 : Rat) ^ (-6 : Int) := by
  -- Any number that reads back as `v` is within two roundings of the decimal.
  have near {k : Int} (low : -1021 ≤ k) (size : (n : Rat) * 10 ^ (-6 : Int) < 2 ^ k)
      (small : |v| < 2 ^ (k + 1)) {d : Rat} (hd : ofRat d = finite v) :
      |d - n * (10 : Rat) ^ (-6 : Int)| ≤ 2 ^ (k - 53) + 2 ^ (k - 54) := by
    have error := abs_sub_le_of_lt h low (by rwa [abs_of_nonneg (by positivity)])
    have back := abs_sub_le_of_double hd (by omega) small
    rw [abs_sub_comm, show k + 1 - 54 = k - 53 by ring] at back
    exact (abs_sub_le d v _).trans (add_le_add back error)
  have error {k : Int} (low : -1021 ≤ k) (size : (n : Rat) * 10 ^ (-6 : Int) < 2 ^ k) :=
    abs_le.mp (abs_sub_le_of_lt h low (by rwa [abs_of_nonneg (by positivity)]))
  rcases (Nat.succ_le_iff.mpr pos).lt_or_eq with two | one
  · have two : (2 : Rat) ≤ n := by exact_mod_cast two
    have size : (n : Rat) * 10 ^ (-6 : Int) < 2 ^ (30 : Int) := by
      have most : (n : Rat) < 2 ^ 30 * 10 ^ 6 := by exact_mod_cast bound
      norm_num
      linarith
    have error := error (by decide) size
    norm_num at error
    have hv : 0 < v := by linarith
    have small : |v| < 2 ^ (30 + 1 : Int) := by
      rw [abs_of_pos hv]
      norm_num at size ⊢
      linarith
    refine ⟨hv, shortest_value_eq hv (decimalMagnitude_gt ?_)
      ((decimalMagnitude_le (e := 10) hv ?_).trans (by decide)) h fun d hd => ?_⟩
    · norm_num
      linarith
    · norm_num at size ⊢
      linarith
    · exact (near (by decide) size small hd).trans_lt (by norm_num)
  · -- The double may lie below this decimal, which then has two digits.
    obtain rfl : n = 1 := one.symm
    have size : ((1 : Nat) : Rat) * 10 ^ (-6 : Int) < 2 ^ (-19 : Int) := by norm_num
    have error := error (by decide) size
    norm_num at error
    have hv : 0 < v := by linarith
    have small : |v| < 2 ^ (-19 + 1 : Int) := by
      rw [abs_of_pos hv]
      norm_num
      linarith
    have finer : ((1 : Nat) : Rat) * 10 ^ (-6 : Int) = (10 : Nat) * 10 ^ (-7 : Int) := by norm_num
    refine ⟨hv, finer ▸ shortest_value_eq hv (decimalMagnitude_gt ?_)
      ((decimalMagnitude_le (e := 10) hv ?_).trans (by decide)) (finer ▸ h) fun d hd => ?_⟩
    · norm_num
      linarith
    · norm_num
      linarith
    · rw [← finer]
      exact (near (by decide) size small hd).trans_lt (by norm_num)

/-- Numbers with six decimal places are written as they are. -/
theorem decimalValue_micro {k : Int} {v : Rat} (bound : |k| < 2 ^ 30 * 10 ^ 6)
    (h : ofRat (k * (10 : Rat) ^ (-6 : Int)) = finite v) :
    decimalValue v = k * (10 : Rat) ^ (-6 : Int) := by
  have positive {n : Nat} {v : Rat} (pos : 0 < n) (bound : n < 2 ^ 30 * 10 ^ 6)
      (h : ofRat (n * (10 : Rat) ^ (-6 : Int)) = finite v) :
      decimalValue v = n * (10 : Rat) ^ (-6 : Int) := by
    obtain ⟨hv, value⟩ := shortest_value_micro pos bound h
    rw [decimalValue_of_pos hv, value]
  have zero (h : ofRat (0 * (10 : Rat) ^ (-6 : Int)) = finite v) :
      decimalValue v = 0 * (10 : Rat) ^ (-6 : Int) := by
    rw [zero_mul] at h ⊢
    obtain rfl : (0 : Rat) = v := finite.inj (ofRat_zero.symm.trans h)
    rfl
  obtain ⟨n, rfl | rfl⟩ := k.eq_nat_or_neg <;> rcases n.eq_zero_or_pos with rfl | pos
  · exact_mod_cast zero (by exact_mod_cast h)
  · rw [Nat.abs_cast] at bound
    exact_mod_cast positive pos (by exact_mod_cast bound) (by exact_mod_cast h)
  · exact_mod_cast zero (by exact_mod_cast h)
  · rw [abs_neg, Nat.abs_cast] at bound
    rw [Int.cast_neg, Int.cast_natCast, neg_mul, ofRat_neg] at h
    rw [← neg_neg v, decimalValue_neg, positive pos (by exact_mod_cast bound) h]
    push_cast
    ring

end MediaRange.Binary64
