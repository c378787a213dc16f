import Mathlib.Algebra.Field.Rat
import Mathlib.Tactic.Ring
import Scriptlet.Decimal.Shortest
import Scriptlet.Proofs.Binary64.Rounding

/-!
# Values of decimals

A decimal is read as a number by its value alone (`magnitude_congr`). The exact expansion of a
magnitude is read as that magnitude, and so is its shortest decimal (`magnitude_shortest`).
-/

namespace Scriptlet.Decimal

open Binary64 (infinity nearest nearest_congr nearest_scaled scaled)

/-- The fraction that a decimal denotes. -/
def value (d : Decimal) : ℚ := d.coefficient * 10 ^ d.exponent

theorem value_zero (e : Int) : value ⟨0, e⟩ = 0 := by
  rw [value, Nat.cast_zero, zero_mul]

/-- Factors of ten may stand in the coefficient or in the exponent. -/
theorem value_mul_pow (c k : Nat) (e : Int) : value ⟨c * 10 ^ k, e⟩ = value ⟨c, e + k⟩ := by
  simp only [value, Nat.cast_mul, Nat.cast_pow, Nat.cast_ofNat]
  rw [zpow_add₀ (by decide), zpow_natCast]
  ring

theorem denominator_pos (d : Decimal) : 0 < d.denominator := Nat.pow_pos (by decide)

/-- The fraction that is rounded is the decimal's value. -/
theorem value_mul_denominator (d : Decimal) : d.value * d.denominator = d.numerator := by
  rcases d with ⟨c, e⟩
  simp only [value, denominator, numerator, Nat.pow_eq]
  rcases Int.le_total 0 e with h | h
  · obtain ⟨n, rfl⟩ := Int.eq_ofNat_of_zero_le h
    simp
  · obtain ⟨n, rfl⟩ := Int.exists_eq_neg_ofNat h
    simp

/-- Decimals of one value are read as one number, however they are written. -/
theorem magnitude_congr {d d' : Decimal} (h : d.value = d'.value) : d.magnitude = d'.magnitude := by
  apply nearest_congr d.denominator_pos d'.denominator_pos
  have hcross : (d.numerator * d'.denominator : ℚ) = d'.numerator * d.denominator := by
    rw [← value_mul_denominator d, ← value_mul_denominator d', h]
    ring
  exact_mod_cast hcross

/-- The exact expansion of a magnitude rounds to that magnitude, with nothing to round off. -/
theorem magnitude_exact {m : Nat} (h : m < infinity) : (exact m).magnitude = m := by
  have hpow (n : Nat) : scaled m * Nat.pow 5 n * 1 * 2 ^ n = scaled m * Nat.pow 10 n := by
    rw [Nat.mul_one, Nat.mul_assoc, Nat.pow_eq, Nat.pow_eq, ← Nat.mul_pow]
  calc (exact m).magnitude
    _ = nearest (scaled m) (2 ^ 1074) :=
        nearest_congr (exact m).denominator_pos (pow_pos Nat.two_pos 1074) (hpow 1074)
    _ = m := nearest_scaled h

theorem magnitude_zero : magnitude ⟨0, 0⟩ = 0 := by
  have hzero : numerator ⟨0, 0⟩ = 0 ∧ scaled 0 = 0 := ⟨rfl, rfl⟩
  calc magnitude ⟨0, 0⟩
    _ = nearest (scaled 0) (2 ^ 1074) := by
        apply nearest_congr Nat.one_pos (pow_pos Nat.two_pos 1074)
        rw [hzero.1, hzero.2, Nat.zero_mul, Nat.zero_mul]
    _ = 0 := nearest_scaled (by decide)

/-- What holds of every decimal on the grids, and of the one behind them, holds of the one that is
found. -/
theorem search_induction {P : Decimal → Prop} {found? : Int → Option Decimal} {otherwise : Decimal}
    (hfound : ∀ power d, found? power = some d → P d) (hother : P otherwise) (grids : Nat)
    (power : Int) : P (search found? otherwise grids power) := by
  induction grids generalizing power with
  | zero => exact hother
  | succ grids ih =>
    unfold search
    split
    · exact hfound _ _ ‹_›
    · exact ih _

/-- A candidate is accepted only if it is read back as the magnitude looked for. -/
theorem magnitude_of_onGrid? {m : Nat} {power : Int} {d : Decimal} (h : onGrid? m power = some d) :
    d.magnitude = m := by
  unfold onGrid? at h
  have hreads := List.find?_some h
  exact eq_of_beq hreads

/-- The search for the shortest decimal falls back on the exact expansion, so its result is read
back in every case. -/
theorem magnitude_shortest {m : Nat} (h : m < infinity) : (shortest m).magnitude = m := by
  unfold shortest
  by_cases hm : m = 0
  · rw [if_pos hm, magnitude_zero, hm]
  · rw [if_neg hm]
    exact search_induction (fun _ _ => magnitude_of_onGrid?) (magnitude_exact h) 17 _

end Scriptlet.Decimal
