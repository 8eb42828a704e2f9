import Mathlib.Algebra.Order.Field.Power
import Mathlib.Algebra.Order.Floor.Ring
import Mathlib.Data.Rat.Floor
import Mathlib.Tactic.Linarith
import Mathlib.Tactic.NormNum
import Mathlib.Tactic.Positivity
import Mathlib.Tactic.Ring
import MediaRange.Number.Binary64

/-!
# Rounding to doubles

A double is a multiple of the unit in its last place. `ofRat` takes a number to a double that is at
most half a unit away (`abs_sub_le_half_ulp`), leaves doubles as they are (`ofRat_of_isDouble`), and
finds every double that is near enough (`ofRat_of_near`).
-/

namespace MediaRange.Binary64

/-! ### The nearest integer -/

/-- An integer next to a number. Halfway between two of them it is even. -/
def IsNearest (q : Rat) (r : Int) : Prop := |q - r| < 1 / 2 ∨ |q - r| = 1 / 2 ∧ r % 2 = 0

theorem IsNearest.le_half {q : Rat} {r : Int} (h : IsNearest q r) : |q - r| ≤ 1 / 2 := by
  rcases h with near | ⟨half, -⟩
  · exact near.le
  · exact half.le

theorem isNearest_roundEven (q : Rat) : IsNearest q (roundEven q) := by
  have lower : (⌊q⌋ : Rat) ≤ q := Int.floor_le q
  have upper : q < ⌊q⌋ + 1 := Int.lt_floor_add_one q
  unfold roundEven IsNearest
  rw [show q.floor = ⌊q⌋ from rfl]
  dsimp only
  split_ifs with below above even
  · left
    rw [abs_of_nonneg (by linarith)]
    exact below
  · left
    push_cast
    rw [abs_of_nonpos (by linarith)]
    linarith
  · right
    refine ⟨?_, even⟩
    rw [abs_of_nonneg (by linarith)]
    linarith
  · right
    push_cast
    refine ⟨?_, by omega⟩
    rw [abs_of_nonpos (by linarith)]
    linarith

theorem IsNearest.unique {q : Rat} {r s : Int} (hr : IsNearest q r) (hs : IsNearest q s) :
    r = s := by
  by_contra different
  have apart : (1 : Rat) ≤ |(r : Rat) - s| := by
    rw [← Int.cast_sub, ← Int.cast_abs]
    exact_mod_cast Int.one_le_abs (sub_ne_zero.mpr different)
  have triangle : |(r : Rat) - s| ≤ |q - r| + |q - s| := by
    have sum := abs_sub_le (r : Rat) q s
    rwa [abs_sub_comm (r : Rat) q] at sum
  rcases hr with near | ⟨half, evenR⟩
  · linarith [hs.le_half]
  · rcases hs with near | ⟨half', evenS⟩
    · linarith
    -- Both are a half away, so they are neighbours, and only one of them is even.
    · have neighbours : |(r : Rat) - s| = 1 := by linarith
      have neighbours : |r - s| = 1 := by
        rw [← Int.cast_sub, ← Int.cast_abs] at neighbours
        exact_mod_cast neighbours
      rcases (abs_eq (by decide)).mp neighbours with up | down <;> omega

theorem roundEven_of_near {q : Rat} {r : Int} (h : |q - r| < 1 / 2) : roundEven q = r :=
  (isNearest_roundEven q).unique (.inl h)

theorem roundEven_neg (q : Rat) : roundEven (-q) = -roundEven q := by
  refine (isNearest_roundEven (-q)).unique ?_
  have same : |-q - ((-roundEven q : Int) : Rat)| = |q - roundEven q| := by
    rw [← abs_neg]
    push_cast
    ring_nf
  rcases isNearest_roundEven q with near | ⟨half, even⟩
  · exact .inl (by rwa [same])
  · exact .inr ⟨by rwa [same], by omega⟩

/-- Rounding to an integer does not pass an integer on the way. -/
theorem abs_roundEven_le {q : Rat} {n : Int} (h : |q| ≤ n) : |roundEven q| ≤ n := by
  have near := (isNearest_roundEven q).le_half
  have triangle := abs_sub_abs_le_abs_sub (roundEven q : Rat) q
  rw [abs_sub_comm] at triangle
  have bound : ((|roundEven q| : Int) : Rat) < ((n + 1 : Int) : Rat) := by
    push_cast
    linarith
  exact Int.lt_add_one_iff.mp (Int.cast_lt.mp bound)

theorem le_abs_roundEven {q : Rat} {n : Int} (h : (n : Rat) ≤ |q|) : n ≤ |roundEven q| := by
  have near := (isNearest_roundEven q).le_half
  have triangle := abs_sub_abs_le_abs_sub q (roundEven q : Rat)
  have bound : ((n : Int) : Rat) < ((|roundEven q| + 1 : Int) : Rat) := by
    push_cast
    linarith
  exact Int.lt_add_one_iff.mp (Int.cast_lt.mp bound)

/-! ### Units -/

theorem abs_eq_abs (q : Rat) : q.abs = |q| := by
  rcases le_total 0 q with nonneg | nonpos
  · rw [abs_of_nonneg nonneg, Rat.abs_of_nonneg nonneg]
  · rw [abs_of_nonpos nonpos, Rat.abs_of_nonpos nonpos]

theorem natAbs_num_div_den (q : Rat) : (q.num.natAbs : Rat) / q.den = |q| := by
  rw [Nat.cast_natAbs, Int.cast_abs, ← Nat.abs_cast q.den, ← abs_div, Rat.num_div_den]

/-- The logarithm of a quotient is the difference of the logarithms, up to one. -/
theorem zpow_bounds_div {base x y : Rat} (pos : 0 < base) {a b : Int}
    (hx : base ^ a ≤ x ∧ x < base ^ (a + 1)) (hy : base ^ b ≤ y ∧ y < base ^ (b + 1)) :
    base ^ (a - b - 1) ≤ x / y ∧ x / y < base ^ (a - b + 1) := by
  have y_pos : 0 < y := (zpow_pos pos b).trans_le hy.1
  rw [le_div_iff₀ y_pos, div_lt_iff₀ y_pos]
  constructor
  · calc base ^ (a - b - 1) * y ≤ base ^ (a - b - 1) * base ^ (b + 1) := by
          have := hy.2.le
          gcongr
      _ = base ^ a := by rw [← zpow_add₀ pos.ne']; ring_nf
      _ ≤ x := hx.1
  · calc x < base ^ (a + 1) := hx.2
      _ = base ^ (a - b + 1) * base ^ b := by rw [← zpow_add₀ pos.ne']; ring_nf
      _ ≤ base ^ (a - b + 1) * y := by
          have := hy.1
          gcongr

theorem zpow_log2_bounds {q : Rat} (h : q ≠ 0) :
    (2 : Rat) ^ ((q.num.natAbs.log2 : Int) - q.den.log2 - 1) ≤ |q| ∧
      |q| < (2 : Rat) ^ ((q.num.natAbs.log2 : Int) - q.den.log2 + 1) := by
  have bounds {n : Nat} (ne : n ≠ 0) :
      (2 : Rat) ^ (n.log2 : Int) ≤ n ∧ (n : Rat) < 2 ^ ((n.log2 : Int) + 1) :=
    ⟨by exact_mod_cast Nat.log2_self_le ne, by exact_mod_cast Nat.lt_log2_self⟩
  rw [← natAbs_num_div_den]
  exact zpow_bounds_div two_pos (bounds (Int.natAbs_ne_zero.mpr (Rat.num_ne_zero.mpr h)))
    (bounds q.den_nz)

theorem le_unitExponent (q : Rat) : -1074 ≤ unitExponent q := le_max_right _ _

/-- Significands have 53 bits, and only those of the smallest doubles have fewer. -/
theorem unitExponent_bounds {q : Rat} (h : q ≠ 0) :
    |q| < (2 : Rat) ^ (unitExponent q + 53) ∧
      (unitExponent q = -1074 ∨ (2 : Rat) ^ (unitExponent q + 52) ≤ |q|) := by
  obtain ⟨lower, upper⟩ := zpow_log2_bounds h
  unfold unitExponent
  rw [abs_eq_abs]
  generalize (q.num.natAbs.log2 : Int) - q.den.log2 = guess at lower upper
  dsimp only
  generalize hm : (if |q| < (2 : Rat) ^ guess then guess - 1 else guess) = magnitude
  have bounds : (2 : Rat) ^ magnitude ≤ |q| ∧ |q| < (2 : Rat) ^ (magnitude + 1) := by
    split_ifs at hm with below
    · exact hm ▸ ⟨lower, by rwa [sub_add_cancel]⟩
    · exact hm ▸ ⟨not_lt.mp below, upper⟩
  constructor
  · exact bounds.2.trans_le (zpow_le_zpow_right₀ one_le_two (by omega))
  · rcases le_total (magnitude - 52) (-1074) with small | normal
    · exact .inl (max_eq_right small)
    · right
      rw [max_eq_left normal, sub_add_cancel]
      exact bounds.1

/-- The distance between doubles near `q`: the unit in their last place. -/
def ulp (q : Rat) : Rat := (2 : Rat) ^ unitExponent q

theorem pow_mul_zpow (n : Nat) (e : Int) : (2 : Rat) ^ n * 2 ^ e = 2 ^ (e + n) := by
  rw [← zpow_natCast, ← zpow_add₀ two_ne_zero, add_comm]

/-- The unit divides larger powers of two. -/
theorem exists_zpow_eq_mul_ulp {q : Rat} {e : Int} (h : unitExponent q ≤ e) :
    ∃ n : Nat, (2 : Rat) ^ e = 2 ^ n * ulp q := by
  obtain ⟨n, hn⟩ := Int.eq_ofNat_of_zero_le (sub_nonneg.mpr h)
  refine ⟨n, ?_⟩
  rw [ulp, pow_mul_zpow, ← hn, add_sub_cancel]

theorem ulp_pos (q : Rat) : 0 < ulp q := by unfold ulp; positivity

theorem abs_lt_ulp (q : Rat) : |q| < 2 ^ 53 * ulp q := by
  rcases eq_or_ne q 0 with rfl | h
  · rw [abs_zero]
    exact mul_pos (by positivity) (ulp_pos 0)
  · rw [ulp, pow_mul_zpow]
    exact (unitExponent_bounds h).1

theorem unitExponent_le {q : Rat} (h : q ≠ 0) {k : Int} (low : -1074 ≤ k)
    (bound : |q| < (2 : Rat) ^ (k + 53)) : unitExponent q ≤ k := by
  rcases (unitExponent_bounds h).2 with smallest | normal
  · omega
  · have := (zpow_lt_zpow_iff_right₀ one_lt_two).mp (normal.trans_lt bound)
    omega

theorem ulp_le {q : Rat} (h : q ≠ 0) {k : Int} (low : -1074 ≤ k)
    (bound : |q| < (2 : Rat) ^ (k + 53)) : ulp q ≤ (2 : Rat) ^ k :=
  zpow_le_zpow_right₀ one_le_two (unitExponent_le h low bound)

theorem unitExponent_neg (q : Rat) : unitExponent (-q) = unitExponent q := by
  simp [unitExponent, abs_eq_abs]

@[simp] theorem ulp_neg (q : Rat) : ulp (-q) = ulp q := by rw [ulp, ulp, unitExponent_neg]

/-! ### Doubles -/

/-- A finite double: a multiple of its unit, within range. -/
structure IsDouble (v : Rat) : Prop where
  multiple : ∃ k : Int, v = k * ulp v
  bounded : |v| < overflow

theorem IsDouble.neg {v : Rat} (h : IsDouble v) : IsDouble (-v) := by
  obtain ⟨k, hk⟩ := h.multiple
  refine ⟨⟨-k, ?_⟩, by simpa using h.bounded⟩
  rw [ulp_neg, Int.cast_neg, neg_mul, ← hk]

/-- The two units need not agree: a significand that is too large is even. -/
theorem isDouble_of_significand {k e : Int} (significand : |k| ≤ 2 ^ 53) (low : -1074 ≤ e)
    (bounded : |(k : Rat) * 2 ^ e| < overflow) : IsDouble (k * 2 ^ e) := by
  refine ⟨?_, bounded⟩
  rcases eq_or_ne k 0 with rfl | hk
  · exact ⟨0, by simp⟩
  have ne : (k : Rat) * 2 ^ e ≠ 0 := by positivity
  have size : |(k : Rat) * 2 ^ e| = |k| * 2 ^ e := by
    rw [abs_mul, abs_of_pos (by positivity : (0 : Rat) < 2 ^ e), Int.cast_abs]
  have le : unitExponent ((k : Rat) * 2 ^ e) ≤ e + 1 := by
    refine unitExponent_le ne (by omega) ?_
    calc |(k : Rat) * 2 ^ e| = |k| * 2 ^ e := size
      _ ≤ 2 ^ 53 * 2 ^ e := by gcongr; exact_mod_cast significand
      _ = 2 ^ (e + 53) := pow_mul_zpow 53 e
      _ < 2 ^ (e + 1 + 53) := zpow_lt_zpow_right₀ one_lt_two (by omega)
  rcases le.lt_or_eq with lt | eq
  · obtain ⟨n, split⟩ := exists_zpow_eq_mul_ulp (Int.lt_add_one_iff.mp lt)
    refine ⟨k * 2 ^ n, ?_⟩
    push_cast
    rw [mul_assoc, ← split]
  · -- Only the power of two has a larger unit.
    have large : ¬ |k| < 2 ^ 53 := fun small => by
      have lower : unitExponent ((k : Rat) * 2 ^ e) ≤ e := by
        refine unitExponent_le ne low ?_
        calc |(k : Rat) * 2 ^ e| = |k| * 2 ^ e := size
          _ < 2 ^ 53 * 2 ^ e := by gcongr; exact_mod_cast small
          _ = 2 ^ (e + 53) := pow_mul_zpow 53 e
      omega
    have even : k = 2 * (k / 2) := by
      rcases (abs_eq (by decide)).mp (significand.antisymm (not_lt.mp large)) with up | down <;> omega
    refine ⟨k / 2, ?_⟩
    rw [ulp, eq, zpow_add_one₀ two_ne_zero]
    calc (k : Rat) * 2 ^ e = ((2 * (k / 2) : Int) : Rat) * 2 ^ e := by rw [← even]
      _ = (k / 2 : Int) * (2 ^ e * 2) := by push_cast; ring

/-- Integers up to `2 ^ 53` are doubles. -/
theorem isDouble_intCast {k : Int} (h : |k| ≤ 2 ^ 53) : IsDouble k := by
  have bounded : |(k : Rat) * 2 ^ (0 : Int)| < overflow := by
    rw [zpow_zero, mul_one, ← Int.cast_abs]
    calc ((|k| : Int) : Rat) ≤ 2 ^ 53 := by exact_mod_cast h
      _ < overflow := by
        rw [overflow, ← zpow_natCast]
        exact zpow_lt_zpow_right₀ one_lt_two (by decide)
  simpa using isDouble_of_significand (e := 0) h (by decide) bounded

/-- Doubles without a fractional part are whole already, and the others are small. -/
theorem IsDouble.floor {v : Rat} (h : IsDouble v) : IsDouble (⌊v⌋ : Int) := by
  obtain ⟨k, hk⟩ := h.multiple
  rcases lt_or_ge (unitExponent v) 0 with fractional | integral
  · have small : |v| < 2 ^ 52 := by
      calc |v| < 2 ^ 53 * ulp v := abs_lt_ulp v
        _ ≤ 2 ^ 53 * 2 ^ (-1 : Int) := by
          have : ulp v ≤ 2 ^ (-1 : Int) := zpow_le_zpow_right₀ one_le_two (by omega)
          gcongr
        _ = 2 ^ 52 := by norm_num
    obtain ⟨lower, upper⟩ := abs_lt.mp small
    have below : -2 ^ 52 ≤ ⌊v⌋ := Int.le_floor.mpr (by push_cast; exact lower.le)
    have above : ⌊v⌋ < 2 ^ 52 := Int.floor_lt.mpr (by push_cast; exact upper)
    exact isDouble_intCast (abs_le.mpr ⟨by omega, by omega⟩)
  · obtain ⟨n, hn⟩ := Int.eq_ofNat_of_zero_le integral
    have whole : v = ((k * 2 ^ n : Int) : Rat) := by
      push_cast
      rw [← zpow_natCast, ← hn]
      exact hk
    rw [whole, Int.floor_intCast, ← whole]
    exact h

/-! ### The nearest double -/

theorem ofRat_eq_finite_iff {q v : Rat} :
    ofRat q = finite v ↔ v = roundEven (q / ulp q) * ulp q ∧ |v| < overflow := by
  have unfolded : ofRat q = if overflow ≤ |(roundEven (q / ulp q) : Rat) * ulp q|
      then infinite (decide (q < 0)) else finite (roundEven (q / ulp q) * ulp q) := by
    rw [← abs_eq_abs]; rfl
  rw [unfolded]
  split_ifs with large
  · constructor
    · intro h
      cases h
    · rintro ⟨rfl, bounded⟩
      exact absurd large (not_le.mpr bounded)
  · rw [finite.injEq]
    constructor
    · rintro rfl
      exact ⟨rfl, not_le.mp large⟩
    · rintro ⟨rfl, -⟩
      rfl

theorem ofRat_neg {q v : Rat} : ofRat (-q) = finite v ↔ ofRat q = finite (-v) := by
  rw [ofRat_eq_finite_iff, ofRat_eq_finite_iff, ulp_neg, neg_div, roundEven_neg, Int.cast_neg,
    neg_mul, abs_neg, neg_eq_iff_eq_neg]

/-- Rounding moves a number by at most half a unit. -/
theorem abs_sub_le_half_ulp {q v : Rat} (h : ofRat q = finite v) : |v - q| ≤ ulp q / 2 := by
  obtain ⟨rfl, -⟩ := ofRat_eq_finite_iff.mp h
  have near := (isNearest_roundEven (q / ulp q)).le_half
  have scaled : roundEven (q / ulp q) * ulp q - q = -((q / ulp q - roundEven (q / ulp q)) * ulp q) := by
    have := (ulp_pos q).ne'
    field_simp
    ring
  rw [scaled, abs_neg, abs_mul, abs_of_pos (ulp_pos q)]
  calc |q / ulp q - roundEven (q / ulp q)| * ulp q ≤ 1 / 2 * ulp q := by
        have := (ulp_pos q).le
        gcongr
    _ = ulp q / 2 := by ring

/-- A multiple of the unit that is less than half of it away is the nearest double. -/
theorem ofRat_of_near {q v : Rat} {k : Int} (multiple : v = k * ulp q) (near : |q - v| < ulp q / 2)
    (bounded : |v| < overflow) : ofRat q = finite v := by
  refine ofRat_eq_finite_iff.mpr ⟨?_, bounded⟩
  rw [multiple, roundEven_of_near]
  have pos := ulp_pos q
  have scaled : q / ulp q - k = (q - v) / ulp q := by
    rw [multiple]
    field_simp
  rw [scaled, abs_div, abs_of_pos pos, div_lt_iff₀ pos]
  linarith

theorem ofRat_of_isDouble {v : Rat} (h : IsDouble v) : ofRat v = finite v := by
  obtain ⟨k, hk⟩ := h.multiple
  refine ofRat_of_near hk ?_ h.bounded
  rw [sub_self, abs_zero]
  linarith [ulp_pos v]

theorem ofRat_intCast {k : Int} (h : |k| ≤ 2 ^ 53) : ofRat k = finite k :=
  ofRat_of_isDouble (isDouble_intCast h)

@[simp] theorem ofRat_zero : ofRat 0 = finite 0 :=
  ofRat_intCast (k := 0) (by decide)

theorem abs_significand_le (q : Rat) : |roundEven (q / ulp q)| ≤ 2 ^ 53 := by
  refine abs_roundEven_le ?_
  rw [abs_div, abs_of_pos (ulp_pos q), div_le_iff₀ (ulp_pos q)]
  exact_mod_cast (abs_lt_ulp q).le

theorem isDouble_of_ofRat {q v : Rat} (h : ofRat q = finite v) : IsDouble v := by
  obtain ⟨rfl, bounded⟩ := ofRat_eq_finite_iff.mp h
  exact isDouble_of_significand (abs_significand_le q) (le_unitExponent q) bounded

/-- A decimal of seventeen digits can be this near to a double, and then it reads back. -/
theorem ofRat_of_close {v d : Rat} (h : IsDouble v) (close : |d - v| ≤ 5 / 10 ^ 17 * |v|) :
    ofRat d = finite v := by
  rcases eq_or_ne v 0 with rfl | hv
  · obtain rfl : d = 0 := by simpa using close
    exact ofRat_of_isDouble h
  obtain ⟨k, hk⟩ := h.multiple
  have posV := ulp_pos v
  have posD := ulp_pos d
  have sizeV := abs_lt_ulp v
  have sizeD := abs_lt_ulp d
  have nearV : |d - v| < ulp v := by norm_num at close sizeV; linarith
  have nearD : |d - v| < ulp d / 2 := by
    have triangle := abs_sub_abs_le_abs_sub v d
    rw [abs_sub_comm] at triangle
    norm_num at close sizeD
    linarith
  have finer : unitExponent d ≤ unitExponent v := by
    by_contra coarser
    -- Then a power of two would lie between them, and `v` is at least a unit below it.
    have hd : d ≠ 0 := by
      rintro rfl
      rw [zero_sub, abs_neg] at close
      have := abs_pos.mpr hv
      norm_num at close
      linarith
    have lowD : 2 ^ 53 * ulp v ≤ |d| := by
      rcases (unitExponent_bounds hd).2 with smallest | normal
      · have := le_unitExponent v
        omega
      · refine le_trans ?_ normal
        rw [ulp, pow_mul_zpow]
        exact zpow_le_zpow_right₀ one_le_two (by push_cast; omega)
    have highV : |v| ≤ (2 ^ 53 - 1) * ulp v := by
      have sizeK : |v| = ((|k| : Int) : Rat) * ulp v := by
        conv_lhs => rw [hk]
        rw [abs_mul, abs_of_pos posV, Int.cast_abs]
      rw [sizeK] at sizeV ⊢
      have lt : ((|k| : Int) : Rat) < ((2 ^ 53 : Int) : Rat) := by
        push_cast at sizeV ⊢
        exact lt_of_mul_lt_mul_right sizeV posV.le
      have le : |k| ≤ 2 ^ 53 - 1 := by have := Int.cast_lt.mp lt; omega
      have le : ((|k| : Int) : Rat) ≤ 2 ^ 53 - 1 := by exact_mod_cast le
      gcongr
    have triangle := abs_sub_abs_le_abs_sub d v
    linarith
  obtain ⟨n, split⟩ := exists_zpow_eq_mul_ulp finer
  refine ofRat_of_near (k := k * 2 ^ n) ?_ nearD h.bounded
  push_cast
  rw [mul_assoc, ← split]
  exact hk

/-- A number that reads as zero is at most half of the smallest double. -/
theorem ofRat_eq_zero_iff {q : Rat} : ofRat q = finite 0 ↔ |q| ≤ (2 : Rat) ^ (-1075 : Int) := by
  rcases eq_or_ne q 0 with rfl | hq
  · simp only [ofRat_zero, abs_zero, true_iff]
    positivity
  constructor
  · intro h
    have half := abs_sub_le_half_ulp h
    rw [zero_sub, abs_neg] at half
    rcases (unitExponent_bounds hq).2 with smallest | normal
    · rw [ulp, smallest] at half
      exact half.trans_eq (by rw [show (-1074 : Int) = -1075 + 1 by rfl, zpow_add_one₀ two_ne_zero]; ring)
    · have small : ulp q / 2 < 2 ^ (unitExponent q + 52) := by
        calc ulp q / 2 < ulp q := half_lt_self (ulp_pos q)
          _ ≤ 2 ^ (unitExponent q + 52) := zpow_le_zpow_right₀ one_le_two (by omega)
      linarith
  · intro h
    have smallest : unitExponent q = -1074 :=
      (unitExponent_le hq le_rfl
        (h.trans_lt (zpow_lt_zpow_right₀ one_lt_two (by decide)))).antisymm (le_unitExponent q)
    have nearest : IsNearest (q / ulp q) 0 := by
      have half : |q / ulp q - ((0 : Int) : Rat)| ≤ 1 / 2 := by
        rw [Int.cast_zero, sub_zero, abs_div, abs_of_pos (ulp_pos q), div_le_iff₀ (ulp_pos q), ulp,
          smallest, show (-1074 : Int) = -1075 + 1 by rfl, zpow_add_one₀ two_ne_zero]
        linarith
      rcases half.lt_or_eq with lt | eq
      · exact .inl lt
      · exact .inr ⟨eq, by decide⟩
    refine ofRat_eq_finite_iff.mpr ⟨?_, by rw [abs_zero, overflow]; positivity⟩
    rw [(isNearest_roundEven _).unique nearest, Int.cast_zero, zero_mul]

/-! ### The error of a rounding -/

/-- A number below `2 ^ k` moves by at most half the unit there. -/
theorem abs_sub_le_of_lt {q v : Rat} (h : ofRat q = finite v) {k : Int} (low : -1021 ≤ k)
    (bound : |q| < (2 : Rat) ^ k) : |v - q| ≤ (2 : Rat) ^ (k - 54) := by
  rcases eq_or_ne q 0 with rfl | hq
  · obtain rfl : (0 : Rat) = v := finite.inj (ofRat_zero.symm.trans h)
    rw [sub_zero, abs_zero]
    positivity
  calc |v - q| ≤ ulp q / 2 := abs_sub_le_half_ulp h
    _ ≤ 2 ^ (k - 53) / 2 := by
        gcongr
        exact ulp_le hq (by omega) (by rwa [sub_add_cancel])
    _ = 2 ^ (k - 54) := by rw [show k - 53 = k - 54 + 1 by ring, zpow_add_one₀ two_ne_zero]; ring

theorem exists_ofRat {q : Rat} {k : Int} (low : -1021 ≤ k) (high : k ≤ 1023)
    (bound : |q| < (2 : Rat) ^ k) : ∃ v, ofRat q = finite v ∧ |v - q| ≤ (2 : Rat) ^ (k - 54) := by
  rcases eq_or_ne q 0 with rfl | hq
  · exact ⟨0, ofRat_zero, abs_sub_le_of_lt ofRat_zero low bound⟩
  have finite : ofRat q = finite (roundEven (q / ulp q) * ulp q) := by
    refine ofRat_eq_finite_iff.mpr ⟨rfl, ?_⟩
    have unit : ulp q ≤ 2 ^ (k - 53) := ulp_le hq (by omega) (by rwa [sub_add_cancel])
    have significand : |(roundEven (q / ulp q) : Rat)| ≤ 2 ^ 53 := by
      exact_mod_cast abs_significand_le q
    rw [abs_mul, abs_of_pos (ulp_pos q)]
    calc |(roundEven (q / ulp q) : Rat)| * ulp q ≤ 2 ^ 53 * 2 ^ (k - 53) :=
          mul_le_mul significand unit (ulp_pos q).le (by positivity)
      _ = 2 ^ k := by rw [pow_mul_zpow, Nat.cast_ofNat, sub_add_cancel]
      _ < overflow := zpow_lt_zpow_right₀ one_lt_two (by omega)
  exact ⟨_, finite, abs_sub_le_of_lt finite low bound⟩

/-- Rounding keeps a number on its side of a power of two. -/
theorem zpow_le_of_ofRat {q v : Rat} (h : ofRat q = finite v) {k : Int} (low : -1074 ≤ k)
    (bound : (2 : Rat) ^ k ≤ |q|) : (2 : Rat) ^ k ≤ |v| := by
  obtain ⟨rfl, -⟩ := ofRat_eq_finite_iff.mp h
  have pos := ulp_pos q
  have hq : q ≠ 0 := abs_pos.mp ((by positivity : (0 : Rat) < 2 ^ k).trans_le bound)
  -- A power of two that is a multiple of the unit and not greater than the number.
  obtain ⟨m, hm, le, reached⟩ : ∃ m : Int, k ≤ m ∧ unitExponent q ≤ m ∧ (2 : Rat) ^ m ≤ |q| := by
    rcases le_or_gt (unitExponent q) k with fine | coarse
    · exact ⟨k, le_rfl, fine, bound⟩
    · rcases (unitExponent_bounds hq).2 with smallest | normal
      · omega
      · exact ⟨unitExponent q + 52, by omega, by omega, normal⟩
  obtain ⟨n, split⟩ := exists_zpow_eq_mul_ulp le
  have significand : 2 ^ n ≤ |roundEven (q / ulp q)| := by
    refine le_abs_roundEven ?_
    rw [abs_div, abs_of_pos pos, le_div_iff₀ pos]
    push_cast
    rw [← split]
    exact reached
  calc (2 : Rat) ^ k ≤ 2 ^ m := zpow_le_zpow_right₀ one_le_two hm
    _ = 2 ^ n * ulp q := split
    _ ≤ |(roundEven (q / ulp q) : Rat)| * ulp q := by
        gcongr
        exact_mod_cast significand
    _ = |roundEven (q / ulp q) * ulp q| := by rw [abs_mul, abs_of_pos pos]

/-- The same bound on the error, from the size of the double. -/
theorem abs_sub_le_of_double {q v : Rat} (h : ofRat q = finite v) {k : Int} (low : -1021 ≤ k)
    (bound : |v| < (2 : Rat) ^ k) : |v - q| ≤ (2 : Rat) ^ (k - 54) := by
  refine abs_sub_le_of_lt h low (not_le.mp fun large => ?_)
  exact absurd bound (not_lt.mpr (zpow_le_of_ofRat h (by omega) large))

end MediaRange.Binary64
