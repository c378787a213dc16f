import Mathlib.Algebra.Order.Ring.Nat
import Scriptlet.Binary64

/-!
# Rounding to a magnitude

The magnitude nearest to a fraction depends on the fraction alone and not on how it is written
(`nearest_congr`), and a fraction that is a magnitude's own value is rounded to that magnitude
(`nearest_scaled`).
-/

namespace Scriptlet.Binary64

/-- Rounding a quotient does not depend on how the fraction is written. -/
theorem roundHalfEven_mul_left {k : Nat} (hk : 0 < k) (a b : Nat) :
    roundHalfEven (k * a) (k * b) = roundHalfEven a b := by
  have hbelow : 2 * (k * (a % b)) < k * b ↔ 2 * (a % b) < b := by
    rw [Nat.mul_left_comm, Nat.mul_lt_mul_left hk]
  have habove : k * b < 2 * (k * (a % b)) ↔ b < 2 * (a % b) := by
    rw [Nat.mul_left_comm 2 k, Nat.mul_lt_mul_left hk]
  simp only [roundHalfEven, Nat.mul_div_mul_left _ _ hk, Nat.mul_mod_mul_left, hbelow, habove]

theorem roundHalfEven_mul_self {b : Nat} (hb : 0 < b) (q : Nat) : roundHalfEven (q * b) b = q := by
  simp [roundHalfEven, Nat.mul_div_cancel _ hb, hb]

theorem nearest_mul_left {k : Nat} (hk : 0 < k) (num den : Nat) :
    nearest (k * num) (k * den) = nearest num den := by
  simp only [nearest, Nat.mul_assoc, Nat.mul_div_mul_left _ _ hk, roundHalfEven_mul_left hk]

/-- Two fractions are equal when their cross products are, and then both are expanded to the same
fraction. -/
theorem nearest_congr {num den num' den' : Nat} (hden : 0 < den) (hden' : 0 < den')
    (h : num * den' = num' * den) : nearest num den = nearest num' den' :=
  calc nearest num den
    _ = nearest (den' * num) (den' * den) := (nearest_mul_left hden' ..).symm
    _ = nearest (den * num') (den * den') := by
        rw [Nat.mul_comm den' num, h, Nat.mul_comm num', Nat.mul_comm den']
    _ = nearest num' den' := nearest_mul_left hden ..

/-! ## A magnitude's own value -/

/-- A magnitude is its exponent and mantissa fields side by side, and a normal one carries its
hidden bit over into the exponent. -/
theorem unit_add_significand (m : Nat) : unit m * 2 ^ 52 + significand m = m := by
  simp only [significand, unit, Nat.pow_eq]
  omega

theorem significand_lt (m : Nat) : significand m < 2 ^ 53 := by
  simp only [significand, unit, Nat.pow_eq]
  omega

theorem le_significand {m : Nat} (h : 0 < unit m) : 2 ^ 52 ≤ significand m := by
  simp only [significand, unit, Nat.pow_eq] at h ⊢
  omega

/-- The exponent that rounding looks for in a magnitude's own value is the magnitude's own. -/
theorem log2_scaled_sub (m : Nat) : (scaled m).log2 - 52 = unit m := by
  have hlt := significand_lt m
  -- At the smallest unit the significand may have fewer than 53 bits, above it never.
  rcases Nat.eq_zero_or_pos (unit m) with hzero | hpos
  · have hscaled : scaled m < 2 ^ 53 := by simpa [scaled, hzero] using hlt
    rw [hzero, Nat.sub_eq_zero_iff_le]
    by_cases hm : scaled m = 0
    · simp [hm]
    · have := (Nat.log2_lt hm).2 hscaled
      omega
  · have hle := le_significand hpos
    have hlow : 2 ^ (52 + unit m) ≤ scaled m := by
      rw [Nat.pow_add]
      exact Nat.mul_le_mul_right _ hle
    have hhigh : scaled m < 2 ^ (52 + unit m + 1) := by
      rw [Nat.add_right_comm, Nat.pow_add]
      exact Nat.mul_lt_mul_of_pos_right hlt (Nat.two_pow_pos _)
    have hne : scaled m ≠ 0 := (Nat.lt_of_lt_of_le (Nat.two_pow_pos _) hlow).ne'
    rw [(Nat.log2_eq_iff hne).2 ⟨hlow, hhigh⟩]
    omega

/-- Rounding loses nothing where there is nothing to round. -/
theorem nearest_scaled {m : Nat} (h : m < infinity) : nearest (scaled m) (2 ^ 1074) = m := by
  have hpos : 0 < 2 ^ 1074 := pow_pos Nat.two_pos 1074
  have hquot : scaled m * 2 ^ 1074 / 2 ^ 1074 = scaled m := Nat.mul_div_cancel _ hpos
  have hround : roundHalfEven (scaled m * 2 ^ 1074) (2 ^ 1074 * 2 ^ unit m) = significand m := by
    rw [Nat.mul_comm (scaled m), roundHalfEven_mul_left hpos]
    exact roundHalfEven_mul_self (Nat.two_pow_pos _) _
  simp only [nearest, Nat.pow_eq, hquot, log2_scaled_sub, hround, unit_add_significand]
  exact Nat.min_eq_right h.le

end Scriptlet.Binary64
