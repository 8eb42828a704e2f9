import Mathlib.Data.List.DropRight
import MediaRange.Number.Numeral
import MediaRange.Proofs.Number.Digits
import MediaRange.Proofs.Number.Shortest

/-!
# Written numerals

The text of a double is the text of a canonical numeral, and that numeral stands for the decimal
value of the double (`exists_isCanonical_text`).
-/

namespace MediaRange

namespace Numeral

/-- The numeral as it is written; the point stands only before digits. -/
def text (n : Numeral) : List Char :=
  (if n.negative then ['-'] else []) ++ n.whole ++
    (if n.fraction = [] then [] else '.' :: n.fraction)

/-- A plain decimal: digits, and then perhaps a point with more digits. -/
structure IsPlain (n : Numeral) : Prop where
  whole_ne : n.whole ≠ []
  digits : ∀ c ∈ n.whole ++ n.fraction, c.isDigit = true

/-- The one way to write a number: no zero that could be left out, and no sign of zero. -/
structure IsCanonical (n : Numeral) : Prop extends IsPlain n where
  leading : n.whole = ['0'] ∨ n.whole.head? ≠ some '0'
  trailing : n.fraction.getLast? ≠ some '0'
  unsigned : n.exact = 0 → n.negative = false

end Numeral

/-! ### Values of digits -/

theorem digitsValue_eq (digits : List Char) : digitsValue digits = Nat.ofDigitChars 10 digits 0 := by
  unfold digitsValue Nat.ofDigitChars
  simp only [Nat.mul_comm]

theorem digitsValue_append (u v : List Char) :
    digitsValue (u ++ v) = digitsValue u * 10 ^ v.length + digitsValue v := by
  simp only [digitsValue_eq, Nat.ofDigitChars_append]
  rw [Nat.ofDigitChars_eq_ofDigitChars_zero, Nat.mul_comm]

theorem digitsValue_replicate_zero (n : Nat) : digitsValue (List.replicate n '0') = 0 := by
  induction n with
  | zero => rfl
  | succ n ih => rw [List.replicate_succ', digitsValue_append, ih]; rfl

theorem digitsValue_toDigits (n : Nat) : digitsValue (Nat.toDigits 10 n) = n := by
  rw [digitsValue_eq, Nat.ofDigitChars_toDigits (by decide) (by decide)]

/-! ### The digits of a decimal -/

namespace Decimal

/-- The digits are cut before the zeros at their end. -/
theorem toDigits_eq (d : Decimal) :
    Nat.toDigits 10 d.digits = d.significant.1 ++
      List.replicate ((Nat.toDigits 10 d.digits).length - d.significant.1.length) '0' := by
  have cut := (Nat.toDigits 10 d.digits).reverse.takeWhile_append_dropWhile (p := (· == '0'))
  have zeros : ∀ c ∈ (Nat.toDigits 10 d.digits).reverse.takeWhile (· == '0'), c = '0' := fun c hc => by
    simpa using List.mem_takeWhile_imp hc
  rw [List.eq_replicate_of_mem zeros] at cut
  have cut := congrArg List.reverse cut
  rw [List.reverse_append, List.reverse_reverse, List.reverse_replicate] at cut
  have length := congrArg List.length cut
  rw [List.length_append, List.length_replicate] at length
  change d.significant.1 ++ _ = _ at cut
  change d.significant.1.length + _ = _ at length
  rw [← length, Nat.add_sub_cancel_left]
  exact cut.symm

section

variable {d : Decimal} (h : d.digits ≠ 0)

theorem isDigit_significant : ∀ c ∈ d.significant.1, c.isDigit = true := fun c hc =>
  isDigit_toDigits c (by rw [toDigits_eq]; exact List.mem_append_left _ hc)

theorem value_eq_significant : d.value = digitsValue d.significant.1 * (10 : Rat) ^ d.significant.2 := by
  have digits := digitsValue_toDigits d.digits
  rw [toDigits_eq, digitsValue_append, digitsValue_replicate_zero, List.length_replicate,
    Nat.add_zero] at digits
  rw [value, ← digits, show d.significant.2 =
    d.exponent + ((Nat.toDigits 10 d.digits).length - d.significant.1.length : Nat) from rfl,
    zpow_add₀ (by norm_num), zpow_natCast]
  push_cast
  ring

include h

theorem significant_ne_nil : d.significant.1 ≠ [] := by
  intro none
  have digits := toDigits_eq d
  rw [none, List.nil_append] at digits
  obtain ⟨n, hn⟩ : ∃ n, (Nat.toDigits 10 d.digits).length = n + 1 :=
    ⟨_, (Nat.succ_pred_eq_of_pos Nat.length_toDigits_pos).symm⟩
  rw [hn, List.length_nil, Nat.sub_zero, List.replicate_succ] at digits
  exact h (head?_toDigits (by rw [digits]; rfl))

theorem head?_significant : d.significant.1.head? ≠ some '0' := by
  have head : (Nat.toDigits 10 d.digits).head? ≠ some '0' := fun zero => h (head?_toDigits zero)
  rw [toDigits_eq, List.head?_append_of_ne_nil _ (significant_ne_nil h)] at head
  exact head

theorem getLast?_significant : d.significant.1.getLast? ≠ some '0' := by
  have last := List.rdropWhile_last_not (· == '0') (Nat.toDigits 10 d.digits) (significant_ne_nil h)
  rw [List.getLast?_eq_some_getLast (significant_ne_nil h)]
  intro zero
  exact last (beq_iff_eq.mpr (Option.some.inj zero))

end

/-! ### Positional form -/

/-- The point stands after the digits, between them or before them. -/
theorem parts_cases (d : Decimal) :
    (∃ n : Nat, d.significant.2 = n ∧
      d.parts = (d.significant.1 ++ List.replicate n '0', [])) ∨
    (∃ k : Nat, 0 < k ∧ k < d.significant.1.length ∧
      d.significant.2 = -((d.significant.1.length - k : Nat) : Int) ∧
      d.parts = (d.significant.1.take k, d.significant.1.drop k)) ∨
    ∃ n : Nat, d.significant.2 = -((n + d.significant.1.length : Nat) : Int) ∧
      d.parts = (['0'], List.replicate n '0' ++ d.significant.1) := by
  unfold parts
  generalize d.significant = s
  obtain ⟨digits, exponent⟩ := s
  dsimp only
  split_ifs with integral
  · exact .inl ⟨exponent.toNat, by omega, rfl⟩
  · right
    rw [List.splitAt_eq]
    rcases Nat.lt_or_ge (-exponent).toNat digits.length with inside | before
    · refine .inl ⟨digits.length - (-exponent).toNat, by omega, by omega, by omega, ?_⟩
      rw [show (-exponent).toNat + 1 - digits.length = 0 by omega]
      rfl
    · refine .inr ⟨(-exponent).toNat - digits.length, by omega, ?_⟩
      rw [show (-exponent).toNat + 1 - digits.length = (-exponent).toNat - digits.length + 1 by omega,
        List.replicate_succ, List.cons_append]
      have length : ('0' :: (List.replicate ((-exponent).toNat - digits.length) '0' ++ digits)).length -
          (-exponent).toNat = 1 := by
        simp only [List.length_cons, List.length_append, List.length_replicate]
        omega
      rw [length]
      rfl

/-- The numeral that the decimal is written as. -/
def numeral (d : Decimal) (negative : Bool) : Numeral := ⟨negative, d.parts.1, d.parts.2⟩

theorem text_numeral (d : Decimal) (negative : Bool) :
    (d.numeral negative).text = (if negative then ['-'] else []) ++ d.positional := by
  rw [Numeral.text, positional, numeral]
  generalize d.parts = p
  obtain ⟨whole, _ | ⟨c, fraction⟩⟩ := p <;> simp

theorem exact_numeral (d : Decimal) (negative : Bool) :
    (d.numeral negative).exact = if negative then -d.value else d.value := by
  have magnitude : (digitsValue (d.parts.1 ++ d.parts.2) : Rat) / 10 ^ d.parts.2.length = d.value := by
    rw [value_eq_significant]
    rcases d.parts_cases with ⟨n, exponent, cut⟩ | ⟨k, -, inside, exponent, cut⟩ | ⟨n, exponent, cut⟩
    · rw [cut, exponent, List.append_nil, List.length_nil, pow_zero, div_one, digitsValue_append,
        digitsValue_replicate_zero, List.length_replicate, Nat.add_zero, zpow_natCast]
      push_cast
      rfl
    · rw [cut, exponent, List.take_append_drop, List.length_drop, zpow_neg, zpow_natCast,
        div_eq_mul_inv]
    · rw [cut, exponent]
      dsimp only
      rw [← List.append_assoc, digitsValue_append, List.singleton_append, ← List.replicate_succ,
        digitsValue_replicate_zero, Nat.zero_mul, Nat.zero_add, List.length_append,
        List.length_replicate, zpow_neg, zpow_natCast, div_eq_mul_inv]
  rw [Numeral.exact, numeral, magnitude]

theorem isCanonical_numeral {d : Decimal} (h : d.digits ≠ 0) (negative : Bool) :
    (d.numeral negative).IsCanonical := by
  have digits := isDigit_significant (d := d)
  have head := head?_significant h
  have last := getLast?_significant h
  have zeros {n : Nat} : ∀ c ∈ List.replicate n '0', c.isDigit = true := fun c hc => by
    rw [List.eq_of_mem_replicate hc]; rfl
  have positive : 0 < d.value := by
    have : 0 < d.digits := Nat.pos_of_ne_zero h
    rw [value]
    positivity
  have unsigned : (d.numeral negative).exact = 0 → (d.numeral negative).negative = false := by
    rw [exact_numeral]
    intro zero
    split_ifs at zero <;> linarith
  rcases d.parts_cases with ⟨n, -, cut⟩ | ⟨k, pos, inside, -, cut⟩ | ⟨n, -, cut⟩
  · refine ⟨⟨?_, ?_⟩, ?_, ?_, unsigned⟩ <;> rw [numeral, cut]
    · exact List.append_ne_nil_of_left_ne_nil (significant_ne_nil h) _
    · rw [List.append_nil]
      exact List.forall_mem_append.mpr ⟨digits, zeros⟩
    · right
      rwa [List.head?_append_of_ne_nil _ (significant_ne_nil h)]
    · simp
  · refine ⟨⟨?_, ?_⟩, ?_, ?_, unsigned⟩ <;> rw [numeral, cut]
    · exact List.ne_nil_of_length_pos (by rw [List.length_take]; omega)
    · rwa [List.take_append_drop]
    · right
      rwa [List.head?_take, if_neg pos.ne']
    · rwa [List.getLast?_drop, if_neg (by omega)]
  · refine ⟨⟨?_, ?_⟩, ?_, ?_, unsigned⟩ <;> rw [numeral, cut]
    · simp
    · exact List.forall_mem_append.mpr
        ⟨List.forall_mem_singleton.mpr rfl, List.forall_mem_append.mpr ⟨zeros, digits⟩⟩
    · exact .inl rfl
    · rwa [List.getLast?_append_of_ne_nil _ (significant_ne_nil h)]

end Decimal

/-- The text of a double is a canonical numeral for its decimal value. -/
theorem exists_isCanonical_text {v : Rat} (h : Binary64.IsDouble v) :
    ∃ n : Numeral, n.IsCanonical ∧ n.exact = Binary64.decimalValue v ∧
      n.text = (Binary64.finite v).text := by
  unfold Binary64.text Binary64.decimalValue
  dsimp only
  rcases lt_trichotomy v 0 with negative | rfl | positive
  · rw [if_neg negative.ne, if_pos negative, if_neg negative.ne, if_pos negative]
    have digits := Binary64.shortest_digits_ne_zero (neg_pos.mpr negative) h.neg
    exact ⟨(Binary64.shortest (-v)).numeral true, Decimal.isCanonical_numeral digits true,
      Decimal.exact_numeral _ true, Decimal.text_numeral _ true⟩
  · refine ⟨⟨false, ['0'], []⟩, ⟨⟨by simp, ?_⟩, .inl rfl, by simp, fun _ => rfl⟩, ?_, rfl⟩
    · exact List.forall_mem_singleton.mpr rfl
    · norm_num [Numeral.exact, digitsValue]
  · rw [if_neg positive.ne', if_neg positive.le.not_gt, if_neg positive.ne', if_neg positive.le.not_gt]
    have digits := Binary64.shortest_digits_ne_zero positive h
    exact ⟨(Binary64.shortest v).numeral false, Decimal.isCanonical_numeral digits false,
      Decimal.exact_numeral _ false, Decimal.text_numeral _ false⟩

end MediaRange
