import Mathlib.Data.List.TakeWhile
import Scriptlet.Decimal.Numeral
import Scriptlet.Proofs.Decimal.Value

/-!
# Values of numerals

The exact form of a decimal has the decimal's value, and the plain form of a numeral has the
numeral's value: moving the point, filling up with zeros and leaving zeros out change what is
written but not what it denotes. All forms consist of digits with at least one before the point
(`WellFormed`), and a plain one has no exponent and no fraction that is a lone zero (`IsPlain`).
-/

namespace Scriptlet.Numeral

open Nat (ofDigitChars toDigits)
open Decimal (value value_mul_pow value_zero)

/-- The decimal that a numeral writes, apart from its sign. -/
def decimal (n : Numeral) : Decimal where
  coefficient := ofDigitChars 10 (n.whole ++ n.fraction) 0
  exponent := n.exponent.getD 0 - n.fraction.length

/-- There is a digit before the point, and no character other than digits. -/
structure WellFormed (n : Numeral) : Prop where
  whole_ne_nil : n.whole ≠ []
  whole_isDigit : ∀ c ∈ n.whole, c.isDigit
  fraction_isDigit : ∀ c ∈ n.fraction, c.isDigit

/-- Numerals that show no exponent, and no fraction that is a lone zero. -/
structure IsPlain (n : Numeral) : Prop extends WellFormed n where
  exponent_eq : n.exponent = none
  fraction_ne : n.fraction ≠ ['0']

section Digits

variable {digits : List Char}

/-! ## Leaving zeros out -/

/-- A zero at the end of a whole number is a factor of ten. -/
theorem ofDigitChars_append_zeros (digits : List Char) (k : Nat) :
    ofDigitChars 10 (digits ++ List.replicate k '0') 0 = ofDigitChars 10 digits 0 * 10 ^ k := by
  rw [Nat.ofDigitChars_append, Nat.ofDigitChars_replicate_zero, Nat.mul_comm]

/-- What is left out at the end is zeros only. -/
theorem exists_eq_dropTrailingZeros_append (digits : List Char) :
    ∃ k, digits = dropTrailingZeros digits ++ List.replicate k '0' := by
  let trailing := (digits.drop 1).reverse.takeWhile (· == '0')
  have hzeros : trailing = List.replicate trailing.length '0' := by
    apply List.eq_replicate_of_mem
    intro c hc
    have hc := List.mem_takeWhile_imp hc
    exact eq_of_beq hc
  refine ⟨trailing.length, ?_⟩
  calc digits
    _ = digits.take 1 ++ (digits.drop 1).reverse.reverse := by
        rw [List.reverse_reverse, List.take_append_drop]
    _ = digits.take 1 ++ (trailing ++ (digits.drop 1).reverse.dropWhile (· == '0')).reverse := by
        rw [List.takeWhile_append_dropWhile]
    _ = dropTrailingZeros digits ++ trailing.reverse := by
        rw [dropTrailingZeros, List.reverse_append, List.append_assoc]
    _ = dropTrailingZeros digits ++ List.replicate trailing.length '0' := by
        rw [hzeros, List.reverse_replicate, List.length_replicate]

theorem dropTrailingZeros_ne_nil (h : digits ≠ []) : dropTrailingZeros digits ≠ [] := by
  intro hnil
  have htake := (List.append_eq_nil_iff.1 hnil).1
  simp [h] at htake

theorem dropLeadingZeros_isSuffix (digits : List Char) : dropLeadingZeros digits <:+ digits := by
  fun_induction dropLeadingZeros digits with
  | case1 d ds ih => exact ih.trans (List.suffix_cons ..)
  | case2 => exact List.suffix_rfl

/-- Zeros before a whole number do not count. -/
theorem ofDigitChars_dropLeadingZeros (digits : List Char) :
    ofDigitChars 10 (dropLeadingZeros digits) 0 = ofDigitChars 10 digits 0 := by
  fun_induction dropLeadingZeros digits with
  | case1 d ds ih => exact ih
  | case2 => rfl

/-! ## Placing the point -/

/-- Wherever the point is placed, zeros are filled in so that the digits keep their weight. -/
theorem value_place (negative : Bool) (digits : List Char) (point : Int) :
    (place negative digits point).decimal.value =
      value ⟨ofDigitChars 10 digits 0, point - digits.length⟩ := by
  unfold place decimal
  split
  · -- Zeros in front of all digits count for nothing, and each moves the point by one.
    congr 2
    · simp [Nat.ofDigitChars_cons, Nat.ofDigitChars_append]
    · simp only [Option.getD_none, List.length_append, List.length_replicate]
      omega
  · by_cases h : digits.length ≤ point.toNat
    · simp only [List.take_of_length_le h, List.drop_of_length_le h, List.append_nil,
        ofDigitChars_append_zeros, value_mul_pow]
      congr 2
      simp only [Option.getD_none, List.length_nil]
      omega
    · have hzeros : point.toNat - digits.length = 0 := by omega
      simp only [hzeros, List.replicate_zero, List.append_nil, List.take_append_drop]
      congr 2
      simp only [Option.getD_none, List.length_drop]
      omega

/-- There is a digit before the point even if the point is placed in front of all digits. -/
theorem wellFormed_place (h : ∀ c ∈ digits, c.isDigit) (negative : Bool) (point : Int) :
    (place negative digits point).WellFormed := by
  have hzero (k : Nat) : ∀ c ∈ List.replicate k '0', c.isDigit := by
    intro c hc
    rw [List.eq_of_mem_replicate hc]
    rfl
  unfold place
  split
  · refine ⟨List.cons_ne_nil _ _, hzero 1, ?_⟩
    intro c hc
    rcases List.mem_append.1 hc with hc | hc
    · exact hzero _ c hc
    · exact h c hc
  · refine ⟨?_, ?_, fun c hc => h c (List.mem_of_mem_drop hc)⟩
    · rw [← List.length_pos_iff]
      simp only [List.length_append, List.length_take, List.length_replicate]
      omega
    · intro c hc
      rcases List.mem_append.1 hc with hc | hc
      · exact h c (List.mem_of_mem_take hc)
      · exact hzero _ c hc

theorem exponent_place (negative : Bool) (digits : List Char) (point : Int) :
    (place negative digits point).exponent = none := by
  unfold place
  split <;> rfl

theorem negative_place (negative : Bool) (digits : List Char) (point : Int) :
    (place negative digits point).negative = negative := by
  unfold place
  split <;> rfl

end Digits

/-! ## The exact form -/

/-- The lone zero that marks a number as a fraction adds nothing to it. -/
theorem value_zeroFraction (n : Numeral) :
    { n with fraction := ['0'] }.decimal.value = { n with fraction := [] }.decimal.value := by
  have hzero := ofDigitChars_append_zeros n.whole 1
  simp only [decimal, List.append_nil]
  rw [show ['0'] = List.replicate 1 '0' from rfl, hzero, value_mul_pow]
  congr 2
  simp only [List.length_replicate, List.length_nil]
  omega

/-- The exact form has the value of the decimal, in either notation. -/
theorem value_ofDecimal (negative : Bool) (d : Decimal) :
    (ofDecimal negative d).decimal.value = d.value := by
  obtain ⟨k, hk⟩ := exists_eq_dropTrailingZeros_append (toDigits 10 d.coefficient)
  have hne := dropTrailingZeros_ne_nil (Nat.toDigits_ne_nil (n := d.coefficient) (b := 10))
  have hlength := congrArg List.length hk
  have hcoefficient := congrArg (ofDigitChars 10 · 0) hk
  simp only [Nat.ofDigitChars_ten_toDigits, ofDigitChars_append_zeros, List.length_append,
    List.length_replicate] at hlength hcoefficient
  -- Every case comes down to the digits that are left, over the power of the last of them.
  have hvalue : d.value =
      value ⟨ofDigitChars 10 (dropTrailingZeros (toDigits 10 d.coefficient)) 0, d.exponent + k⟩ := by
    rw [← value_mul_pow, ← hcoefficient]
  rw [hvalue]
  dsimp only [ofDecimal]
  generalize dropTrailingZeros (toDigits 10 d.coefficient) = digits at hne hlength ⊢
  generalize (toDigits 10 d.coefficient).length = length at hlength ⊢
  split
  · have hplace : (place negative digits (d.exponent + length - 1 + 1)).decimal.value =
        value ⟨ofDigitChars 10 digits 0, d.exponent + k⟩ := by
      rw [value_place]
      congr 2
      omega
    split
    · rename_i hempty
      rw [value_zeroFraction, ← List.isEmpty_iff.1 hempty]
      exact hplace
    · exact hplace
  · have hpos := List.length_pos_iff.2 hne
    simp only [decimal, List.take_append_drop]
    congr 2
    simp only [Option.getD_some, List.length_drop]
    omega

theorem wellFormed_ofDecimal (negative : Bool) (d : Decimal) : (ofDecimal negative d).WellFormed := by
  obtain ⟨k, hk⟩ := exists_eq_dropTrailingZeros_append (toDigits 10 d.coefficient)
  have hne := dropTrailingZeros_ne_nil (Nat.toDigits_ne_nil (n := d.coefficient) (b := 10))
  have hdigits : ∀ c ∈ dropTrailingZeros (toDigits 10 d.coefficient), c.isDigit := by
    intro c hc
    apply Nat.isDigit_of_mem_toDigits (b := 10) (n := d.coefficient) (by decide) (by decide)
    rw [hk]
    exact List.mem_append_left _ hc
  unfold ofDecimal
  dsimp only
  split
  · have hplace := wellFormed_place hdigits negative
      (d.exponent + (toDigits 10 d.coefficient).length - 1 + 1)
    split
    · refine ⟨hplace.whole_ne_nil, hplace.whole_isDigit, ?_⟩
      intro c hc
      rw [List.mem_singleton.1 hc]
      rfl
    · exact hplace
  · refine ⟨?_, fun c hc => hdigits c (List.mem_of_mem_take hc),
      fun c hc => hdigits c (List.mem_of_mem_drop hc)⟩
    intro hnil
    simp [hne] at hnil

theorem negative_ofDecimal (negative : Bool) (d : Decimal) :
    (ofDecimal negative d).negative = negative := by
  unfold ofDecimal
  dsimp only
  split
  · split <;> exact negative_place ..
  · rfl

/-! ## The plain form -/

/-- Writing an exponent out moves the point by as many places. -/
theorem value_writeOut (n : Numeral) : n.writeOut.decimal.value = n.decimal.value := by
  rcases hexponent : n.exponent with _ | e
  · rw [writeOut, hexponent]
  · have hcoefficient := ofDigitChars_dropLeadingZeros (n.whole ++ n.fraction)
    rw [writeOut, hexponent]
    dsimp only
    rw [value_place, hcoefficient, decimal, hexponent]
    split
    · -- A zero has the same value wherever its point stands.
      rename_i hzero
      rw [hzero] at hcoefficient
      rw [← hcoefficient]
      exact (value_zero _).trans (value_zero _).symm
    · congr 2
      simp only [Option.getD_some, List.length_append]
      omega

/-- The plain form has the numeral's value. Beyond writing the exponent out, it drops zeros only. -/
theorem value_plain (n : Numeral) : n.plain.decimal.value = n.decimal.value := by
  rw [← value_writeOut n, plain, dropZeroFraction]
  split
  · rename_i hzero
    rw [← value_zeroFraction, ← hzero]
  · rfl

theorem negative_plain (n : Numeral) : n.plain.negative = n.negative := by
  have hout : n.writeOut.negative = n.negative := by
    unfold writeOut
    split
    · rfl
    · exact negative_place ..
  rw [← hout, plain, dropZeroFraction]
  split <;> rfl

theorem exponent_writeOut (n : Numeral) : n.writeOut.exponent = none := by
  unfold writeOut
  split
  · assumption
  · exact exponent_place ..

theorem WellFormed.writeOut {n : Numeral} (h : n.WellFormed) : n.writeOut.WellFormed := by
  unfold Numeral.writeOut
  split
  · exact h
  · apply wellFormed_place
    intro c hc
    rcases List.mem_append.1 ((dropLeadingZeros_isSuffix _).subset hc) with hc | hc
    · exact h.whole_isDigit c hc
    · exact h.fraction_isDigit c hc

/-- The plain form is plain, whatever the numeral looked like. -/
theorem WellFormed.isPlain_plain {n : Numeral} (h : n.WellFormed) : n.plain.IsPlain := by
  have hout := h.writeOut
  have hexponent := exponent_writeOut n
  rw [plain, dropZeroFraction]
  split
  · exact ⟨⟨hout.whole_ne_nil, hout.whole_isDigit, fun c hc => absurd hc List.not_mem_nil⟩,
      hexponent, (List.cons_ne_nil _ _).symm⟩
  · rename_i hne
    exact ⟨hout, hexponent, hne⟩

end Scriptlet.Numeral
