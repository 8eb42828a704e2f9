import MediaRange.Query
import MediaRange.Proofs.Number.Shortest

/-!
# Moved numbers

`Numeral.moved` goes through seven roundings. For whole pixels up to `2 ^ 53` it moves by one and
goes in the right direction (`exists_add_sign`). Else every rounding is counted: up to `2 * 10 ^ 12`
they are smaller than the step together (`exists_roundMicro_large`), and up to `10 ^ 9` the number
with six decimal places that is meant comes out (`exists_roundMicro_exact`).
-/

namespace MediaRange.Binary64

/-! ### The step -/

theorem ofRat_step : ofRat (1 / 1000) = finite step := by
  decide +kernel

theorem abs_step_sub_le : |step - 1 / 1000| ≤ 1 / 10 ^ 18 :=
  (abs_sub_le_of_lt ofRat_step (k := -9) (by decide) (by norm_num)).trans (by norm_num)

/-! ### Six decimal places -/

/-- Rounding to six places up to the last division. The errors are those of the written form, of
the moved point and of the half. -/
theorem exists_roundMicro {v : Rat} (h : IsDouble v) {k j : Int} (lowK : -1021 ≤ k) (lowJ : -1021 ≤ j)
    (highJ : j ≤ 1023) (small : |v| < (2 : Rat) ^ k)
    (fits : 10 ^ 6 * (|v| + (2 : Rat) ^ (k - 54)) + (2 : Rat) ^ (j - 54) + 1 / 2 < (2 : Rat) ^ j) :
    ∃ s : Rat, IsDouble s ∧
      |s - (10 ^ 6 * v + 1 / 2)| ≤ 10 ^ 6 * (2 : Rat) ^ (k - 54) + 2 * (2 : Rat) ^ (j - 54) ∧
      (finite v).roundMicro = ofRat (decimalValue (⌊s⌋ : Int) * (10 : Rat) ^ (-6 : Int)) := by
  have written := abs_sub_decimalValue_le h lowK small
  have roundMicro_eq : (finite v).roundMicro =
      (((ofRat (decimalValue v * 10 ^ 6)).add (1 / 2)).floor).shifted (-6) := rfl
  generalize decimalValue v = d at written roundMicro_eq
  have pos : (0 : Rat) < 2 ^ (j - 54) := by positivity
  generalize (2 : Rat) ^ (k - 54) = slack at *
  obtain ⟨writtenLow, writtenHigh⟩ := abs_le.mp written
  obtain ⟨low, high⟩ := abs_le.mp (le_refl |v|)
  obtain ⟨s₁, h₁, error₁⟩ := exists_ofRat (q := d * 10 ^ 6) lowJ highJ
    (abs_lt.mpr ⟨by linarith, by linarith⟩)
  obtain ⟨low₁, high₁⟩ := abs_le.mp error₁
  obtain ⟨s₂, h₂, error₂⟩ := exists_ofRat (q := s₁ + 1 / 2) lowJ highJ
    (abs_lt.mpr ⟨by linarith, by linarith⟩)
  generalize (2 : Rat) ^ (j - 54) = unit at *
  obtain ⟨low₂, high₂⟩ := abs_le.mp error₂
  refine ⟨s₂, isDouble_of_ofRat h₂, abs_le.mpr ⟨by linarith, by linarith⟩, ?_⟩
  rw [roundMicro_eq, h₁, add, h₂]
  rfl

/-- A value that is near to a number with six places becomes that number. -/
theorem exists_roundMicro_exact {v : Rat} (h : IsDouble v) {k : Int} (bound : |k| ≤ 10 ^ 15 + 1000)
    (near : |v - k * (10 : Rat) ^ (-6 : Int)| ≤ 13 / 10 ^ 8) :
    ∃ w, (finite v).roundMicro = finite w ∧ IsDouble w ∧
      decimalValue w = k * (10 : Rat) ^ (-6 : Int) := by
  have bound' : |(k : Rat)| ≤ 10 ^ 15 + 1000 := by exact_mod_cast bound
  obtain ⟨low, high⟩ := abs_le.mp bound'
  obtain ⟨nearLow, nearHigh⟩ := abs_le.mp near
  norm_num at nearLow nearHigh
  have size : |v| ≤ 10 ^ 9 + 1 := abs_le.mpr ⟨by linarith, by linarith⟩
  obtain ⟨s, -, error, rounded⟩ := exists_roundMicro h (k := 30) (j := 50) (by decide) (by decide)
    (by decide) (size.trans_lt (by norm_num)) (by norm_num; linarith)
  norm_num at error
  obtain ⟨errorLow, errorHigh⟩ := abs_le.mp error
  have floor : ⌊s⌋ = k := Int.floor_eq_iff.mpr ⟨by linarith, by linarith⟩
  have small : |k * (10 : Rat) ^ (-6 : Int)| < 2 ^ (30 : Int) :=
    abs_lt.mpr ⟨by norm_num; linarith, by norm_num; linarith⟩
  obtain ⟨w, hw, -⟩ := exists_ofRat (by decide) (by decide) small
  refine ⟨w, ?_, isDouble_of_ofRat hw, decimalValue_micro (bound.trans_lt (by norm_num)) hw⟩
  rw [rounded, floor, decimalValue_intCast (bound.trans (by norm_num)), hw]

/-- For large values all the errors together are below the step. -/
theorem exists_roundMicro_large {v : Rat} (h : IsDouble v) (bound : |v| ≤ 2 * 10 ^ 12 + 1) :
    ∃ w, (finite v).roundMicro = finite w ∧ IsDouble w ∧ |decimalValue w - v| ≤ 751 / 10 ^ 6 := by
  obtain ⟨s, double, error, rounded⟩ := exists_roundMicro h (k := 41) (j := 61) (by decide)
    (by decide) (by decide) (bound.trans_lt (by norm_num)) (by norm_num; linarith)
  obtain ⟨low, high⟩ := abs_le.mp bound
  norm_num at error
  obtain ⟨errorLow, errorHigh⟩ := abs_le.mp error
  have floorLow := Int.lt_floor_add_one s
  have floorHigh := Int.floor_le s
  have written := abs_sub_decimalValue_le double.floor (k := 61) (by decide)
    (abs_lt.mpr ⟨by norm_num; linarith, by norm_num; linarith⟩)
  norm_num at written
  obtain ⟨writtenLow, writtenHigh⟩ := abs_le.mp written
  obtain ⟨w, hw, error'⟩ := exists_ofRat (q := decimalValue (⌊s⌋ : Int) * (10 : Rat) ^ (-6 : Int))
    (k := 41) (by decide) (by decide)
    (abs_lt.mpr ⟨by norm_num; linarith, by norm_num; linarith⟩)
  norm_num at error'
  obtain ⟨errorLow', errorHigh'⟩ := abs_le.mp error'
  have back := abs_sub_decimalValue_le (isDouble_of_ofRat hw) (k := 41) (by decide)
    (abs_lt.mpr ⟨by norm_num; linarith, by norm_num; linarith⟩)
  norm_num at back
  obtain ⟨backLow, backHigh⟩ := abs_le.mp back
  refine ⟨w, by rw [rounded, hw], isDouble_of_ofRat hw, abs_le.mpr ⟨?_, ?_⟩⟩ <;> norm_num <;> linarith

/-! ### Whole pixels -/

/-- The next integer is halfway between two doubles, and the even one is the nearer to zero. -/
theorem ofRat_past (c : Comparison) :
    ofRat ((c.sign * 2 ^ 53 + c.sign : Int) : Rat) = finite ((c.sign * 2 ^ 53 : Int) : Rat) := by
  cases c <;> decide +kernel

/-- A whole number moves by one, unless it is the last one that can. -/
theorem exists_add_sign {z : Int} (h : |z| ≤ 2 ^ 53) (c : Comparison) :
    ∃ w : Int, (finite z).add c.sign = finite w ∧ |w| ≤ 2 ^ 53 ∧
      (w = z + c.sign ∨ w = z ∧ z = c.sign * 2 ^ 53) := by
  rcases le_or_gt |z + c.sign| (2 ^ 53) with inside | outside
  · refine ⟨z + c.sign, ?_, inside, .inl rfl⟩
    rw [add, ← Int.cast_add, ofRat_intCast inside]
  · have last : z = c.sign * 2 ^ 53 := by
      have := abs_le.mp h
      rcases lt_abs.mp outside with above | below <;> cases c <;>
        simp only [Comparison.sign] at * <;> omega
    refine ⟨z, ?_, h, .inr ⟨rfl, last⟩⟩
    rw [add, ← Int.cast_add, last, ofRat_past]

end MediaRange.Binary64

namespace MediaRange

/-- The comparison of two numbers, without equality. -/
def Comparison.Holds : Comparison → Rat → Rat → Prop
  | greater, x, y => y < x
  | less, x, y => x < y

theorem Comparison.Holds.ne {c : Comparison} {x y : Rat} (h : c.Holds x y) : x ≠ y := by
  rintro rfl
  cases c <;> exact lt_irrefl x h

theorem Comparison.holds_iff (c : Comparison) (x y : Rat) : c.Holds x y ↔ 0 < c.sign * (x - y) := by
  cases c <;> simp [Holds, sign]

namespace Numeral

open Binary64

/-! ### Moved numerals -/

section

variable {n : Numeral} {pixels : Bool}

theorem moved_pixels (h : (pixels && n.isWhole) = true) (sign : Int) :
    n.moved pixels sign = n.value.add sign := by rw [moved, if_pos h]

theorem moved_step (h : ¬ (pixels && n.isWhole) = true) (sign : Int) :
    n.moved pixels sign = (n.value.add (step * sign)).roundMicro := by rw [moved, if_neg h]

theorem isWhole_iff : n.isWhole = true ↔ n.whole ≠ [] ∧ ∃ z : Int, n.value = finite z := by
  rw [isWhole, Bool.and_eq_true, Bool.not_eq_true', List.isEmpty_eq_false_iff]
  refine and_congr_right fun _ => ?_
  cases n.value with
  | infinite negative => simp [Binary64.isWhole]
  | finite v =>
    simp only [Binary64.isWhole, decide_eq_true_eq, finite.injEq]
    constructor
    · exact fun den => ⟨v.num, (Rat.den_eq_one_iff v).mp den |>.symm⟩
    · rintro ⟨z, rfl⟩
      exact Rat.den_intCast z

/-- The error of a step: one rounding for the value and one for the sum. -/
theorem exists_add_step {k : Int} (low : 1 ≤ k) (high : k ≤ 50) (bound : |n.exact| + 1 < (2 : Rat) ^ k)
    (c : Comparison) :
    ∃ v, n.value.add (step * c.sign) = finite v ∧ IsDouble v ∧
      |v - (n.exact + c.sign / 1000)| ≤ 2 * (2 : Rat) ^ (k - 54) + 1 / 10 ^ 18 := by
  have unit : (2 : Rat) ^ (k - 54) ≤ 1 / 16 := by
    calc (2 : Rat) ^ (k - 54) ≤ 2 ^ (-4 : Int) := zpow_le_zpow_right₀ one_le_two (by omega)
      _ = 1 / 16 := by norm_num
  have offset : |step * c.sign - c.sign / 1000| ≤ 1 / 10 ^ 18 := by
    have error := abs_step_sub_le
    cases c
    · simpa [Comparison.sign] using error
    · rw [abs_sub_comm] at error
      rw [Comparison.sign]
      convert error using 2
      push_cast
      ring
  have small : |(c.sign : Rat)| = 1 := by cases c <;> simp [Comparison.sign]
  obtain ⟨signLow, signHigh⟩ := abs_le.mp small.le
  obtain ⟨offsetLow, offsetHigh⟩ := abs_le.mp offset
  obtain ⟨exactLow, exactHigh⟩ := abs_le.mp (le_refl |n.exact|)
  obtain ⟨v₀, h₀, error₀⟩ := exists_ofRat (q := n.exact) (k := k) (by omega) (by omega) (by linarith)
  obtain ⟨low₀, high₀⟩ := abs_le.mp error₀
  obtain ⟨v, hv, error⟩ := exists_ofRat (q := v₀ + step * c.sign) (k := k) (by omega) (by omega)
    (abs_lt.mpr ⟨by linarith, by linarith⟩)
  obtain ⟨errorLow, errorHigh⟩ := abs_le.mp error
  refine ⟨v, ?_, isDouble_of_ofRat hv, abs_le.mpr ⟨by linarith, by linarith⟩⟩
  rw [value, h₀, add, hv]

theorem isZero_value_iff : n.value.isZero = true ↔ |n.exact| ≤ (2 : Rat) ^ (-1075 : Int) := by
  rw [← ofRat_eq_zero_iff, value]
  cases ofRat n.exact <;> simp [isZero]

theorem exists_value_eq_intCast (bound : |n.exact| ≤ 2 ^ 53) (whole : n.exact.den = 1) :
    ∃ z : Int, n.exact = z ∧ n.value = finite z := by
  have eq := (Rat.den_eq_one_iff n.exact).mp whole
  generalize n.exact.num = z at eq
  refine ⟨z, eq.symm, ?_⟩
  rw [← eq, ← Int.cast_abs] at bound
  rw [value, ← eq]
  exact ofRat_intCast (by exact_mod_cast bound)

theorem exists_micro (h : (10 ^ 6 * n.exact).den = 1) :
    ∃ k : Int, n.exact = k * (10 : Rat) ^ (-6 : Int) := by
  refine ⟨(10 ^ 6 * n.exact).num, ?_⟩
  rw [(Rat.den_eq_one_iff _).mp h]
  norm_num
  ring

/-- A number with at most six decimal places does not read as zero, unless it is zero. -/
theorem lt_abs_of_micro (micro : ∃ k : Int, n.exact = k * (10 : Rat) ^ (-6 : Int))
    (nonzero : n.exact ≠ 0) : (2 : Rat) ^ (-1075 : Int) < |n.exact| := by
  obtain ⟨k, hk⟩ := micro
  have one : (1 : Rat) ≤ |(k : Rat)| := by
    have ne : k ≠ 0 := fun zero => nonzero (by rw [hk, zero, Int.cast_zero, zero_mul])
    exact_mod_cast Int.one_le_abs ne
  calc (2 : Rat) ^ (-1075 : Int) < 2 ^ (-20 : Int) := zpow_lt_zpow_right₀ one_lt_two (by decide)
    _ ≤ 1 * 10 ^ (-6 : Int) := by norm_num
    _ ≤ |(k : Rat)| * 10 ^ (-6 : Int) := by gcongr
    _ = |n.exact| := by rw [hk, abs_mul, abs_of_pos (by positivity : (0 : Rat) < 10 ^ (-6 : Int))]

/-- In the practical range, with at most six decimal places, only whole numerals read as whole
doubles. -/
theorem isWhole_iff_den (bound : |n.exact| < 10 ^ 9)
    (micro : ∃ k : Int, n.exact = k * (10 : Rat) ^ (-6 : Int)) :
    n.isWhole = true ↔ n.whole ≠ [] ∧ n.exact.den = 1 := by
  rw [isWhole_iff]
  refine and_congr_right fun _ => ⟨?_, fun whole => ?_⟩
  · rintro ⟨z, hz⟩
    obtain ⟨k, hk⟩ := micro
    have error := abs_sub_le_of_lt hz (k := 30) (by decide) (bound.trans (by norm_num))
    rw [hk] at error
    norm_num at error
    obtain ⟨low, high⟩ := abs_le.mp error
    have same : k = z * 10 ^ 6 := by
      have below : (k : Rat) < ((z * 10 ^ 6 + 1 : Int) : Rat) := by push_cast; linarith
      have above : ((z * 10 ^ 6 - 1 : Int) : Rat) < k := by push_cast; linarith
      have := Int.cast_lt.mp below
      have := Int.cast_lt.mp above
      omega
    rw [hk, same, show ((z * 10 ^ 6 : Int) : Rat) * 10 ^ (-6 : Int) = z by push_cast; norm_num; ring]
    exact Rat.den_intCast z
  · obtain ⟨z, -, hz⟩ := exists_value_eq_intCast (bound.le.trans (by norm_num)) whole
    exact ⟨z, hz⟩

/-- In the practical range, with at most six decimal places, a numeral moves exactly. -/
theorem exists_moved_exact (pixels : Bool) (bound : |n.exact| < 10 ^ 9)
    (micro : ∃ k : Int, n.exact = k * (10 : Rat) ^ (-6 : Int)) (c : Comparison) :
    ∃ w, n.moved pixels c.sign = finite w ∧ IsDouble w ∧
      decimalValue w = n.exact +
        if pixels = true ∧ n.whole ≠ [] ∧ n.exact.den = 1 then (c.sign : Rat) else c.sign / 1000 := by
  have condition : (pixels && n.isWhole) = true ↔
      pixels = true ∧ n.whole ≠ [] ∧ n.exact.den = 1 := by
    rw [Bool.and_eq_true, isWhole_iff_den bound micro]
  rw [← if_congr condition rfl rfl]
  split_ifs with whole
  · obtain ⟨-, -, den⟩ := condition.mp whole
    obtain ⟨z, eq, hz⟩ := exists_value_eq_intCast (bound.le.trans (by norm_num)) den
    have small : |z| < 10 ^ 9 := by
      rw [eq, ← Int.cast_abs] at bound
      exact_mod_cast bound
    obtain ⟨w, hw, inside, moved⟩ := exists_add_sign (small.le.trans (by decide)) c
    refine ⟨w, by rw [moved_pixels whole, hz, hw], isDouble_intCast inside, ?_⟩
    rw [decimalValue_intCast inside, eq]
    rcases moved with rfl | ⟨-, last⟩
    · exact Int.cast_add z c.sign
    · obtain ⟨low, high⟩ := abs_lt.mp small
      cases c <;> simp only [Comparison.sign] at last <;> omega
  · obtain ⟨k, hk⟩ := micro
    obtain ⟨v, hv, double, error⟩ := exists_add_step (n := n) (k := 30) (by decide) (by decide)
      (by norm_num at bound ⊢; linarith) c
    have target : n.exact + c.sign / 1000 = ((k + 1000 * c.sign : Int) : Rat) * 10 ^ (-6 : Int) := by
      rw [hk]
      push_cast
      norm_num
      ring
    have small : |k + 1000 * c.sign| ≤ 10 ^ 15 + 1000 := by
      have size : |k| < 10 ^ 15 := by
        rw [hk, abs_mul, abs_of_pos (by positivity : (0 : Rat) < 10 ^ (-6 : Int)), ← Int.cast_abs] at bound
        have lt : ((|k| : Int) : Rat) < ((10 ^ 15 : Int) : Rat) := by
          norm_num at bound ⊢
          linarith
        exact Int.cast_lt.mp lt
      obtain ⟨low, high⟩ := abs_lt.mp size
      refine abs_le.mpr ?_
      cases c <;> simp only [Comparison.sign] <;> omega
    rw [target] at error ⊢
    obtain ⟨w, hw, double', exact⟩ := exists_roundMicro_exact double small
      (error.trans (by norm_num))
    exact ⟨w, by rw [moved_step whole, hv, hw], double', exact⟩

/-- A numeral moves in the direction of the comparison, however many digits it has, as long as its
double can be told apart from the neighbours. -/
theorem exists_moved_holds (pixels : Bool)
    (bound : |n.exact| ≤ 2 * 10 ^ 12 ∨
      pixels = true ∧ n.whole ≠ [] ∧ n.exact.den = 1 ∧ |n.exact| < 2 ^ 53) (c : Comparison) :
    ∃ w, n.moved pixels c.sign = finite w ∧ IsDouble w ∧ c.Holds (decimalValue w) n.exact := by
  by_cases whole : (pixels && n.isWhole) = true
  · have bound : |n.exact| < 2 ^ 53 := by
      rcases bound with small | ⟨-, -, -, small⟩
      · exact small.trans_lt (by norm_num)
      · exact small
    obtain ⟨-, z, hz⟩ := isWhole_iff.mp (Bool.and_eq_true _ _ ▸ whole).2
    have near := abs_sub_le_of_lt hz (k := 53) (by decide) (by exact_mod_cast bound)
    norm_num at near
    obtain ⟨low, high⟩ := abs_le.mp near
    obtain ⟨exactLow, exactHigh⟩ := abs_lt.mp bound
    have size : |z| ≤ 2 ^ 53 := by
      have below : ((-(2 ^ 53) - 1 : Int) : Rat) < z := by push_cast; linarith
      have above : (z : Rat) < ((2 ^ 53 + 1 : Int) : Rat) := by push_cast; linarith
      have := Int.cast_lt.mp below
      have := Int.cast_lt.mp above
      exact abs_le.mpr ⟨by omega, by omega⟩
    obtain ⟨w, hw, small, moved⟩ := exists_add_sign size c
    refine ⟨w, by rw [moved_pixels whole, hz, hw], isDouble_intCast small, ?_⟩
    rw [decimalValue_intCast small, Comparison.holds_iff]
    rcases moved with rfl | ⟨rfl, last⟩
    · cases c <;> rw [Comparison.sign] <;> push_cast <;> linarith
    · rw [last]
      cases c <;> rw [Comparison.sign] <;> push_cast <;> linarith
  · have bound : |n.exact| ≤ 2 * 10 ^ 12 := by
      rcases bound with small | ⟨px, digits, den, small⟩
      · exact small
      · obtain ⟨z, -, hz⟩ := exists_value_eq_intCast small.le den
        exact absurd (by rw [px, isWhole_iff.mpr ⟨digits, z, hz⟩]; rfl) whole
    obtain ⟨v, hv, double, error⟩ := exists_add_step (n := n) (k := 41) (by decide) (by decide)
      (by norm_num; linarith) c
    norm_num at error
    obtain ⟨errorLow, errorHigh⟩ := abs_le.mp error
    obtain ⟨exactLow, exactHigh⟩ := abs_le.mp bound
    have size : |v| ≤ 2 * 10 ^ 12 + 1 := by
      refine abs_le.mpr ?_
      cases c <;> rw [Comparison.sign] at errorLow errorHigh <;> push_cast at errorLow errorHigh <;>
        constructor <;> linarith
    obtain ⟨w, hw, double', error'⟩ := exists_roundMicro_large double size
    obtain ⟨errorLow', errorHigh'⟩ := abs_le.mp error'
    refine ⟨w, by rw [moved_step whole, hv, hw], double', ?_⟩
    cases c <;> rw [Comparison.sign] at errorLow errorHigh <;> push_cast at errorLow errorHigh <;>
      rw [Comparison.Holds] <;> linarith

end

end Numeral

end MediaRange
