/-!
# Magnitudes of binary64 numbers

The magnitude of a binary64 number is its bit pattern without the sign, read as a natural number.
Magnitudes are ordered like the numbers they stand for, and every finite one is a whole number of
smallest subnormals (`scaled`), so rounding a fraction to a number is arithmetic on natural
numbers (`nearest`).
-/

namespace Scriptlet.Binary64

/-- The magnitude of infinity; larger magnitudes are not numbers. -/
def infinity : Nat := 2047 * Nat.pow 2 52

/-- How many doublings separate the unit in the last place of a magnitude from the smallest
subnormal. Subnormals and the first normal binade share the smallest unit. -/
def unit (magnitude : Nat) : Nat := magnitude / Nat.pow 2 52 - 1

/-- The significand of a finite magnitude, as a whole number of its own units. -/
def significand (magnitude : Nat) : Nat := magnitude - unit magnitude * Nat.pow 2 52

/-- The value of a finite magnitude as a number of smallest subnormals, each `2 ^ (-1074)`. -/
def scaled (magnitude : Nat) : Nat := significand magnitude * Nat.pow 2 (unit magnitude)

/-- The quotient `a / b` rounded to a natural number; a half goes to the even neighbour. -/
def roundHalfEven (a b : Nat) : Nat :=
  let q := a / b
  let r := a % b
  if 2 * r < b then q
  else if b < 2 * r then q + 1
  else q + q % 2

/-- The magnitude nearest to `num / den`, ties going to the even significand. The unit is chosen
so that the significand has 53 bits, or is the smallest one; a significand that rounds up to
`2 ^ 53` carries into the unit by itself, and what lies above the largest finite number becomes
infinite. -/
def nearest (num den : Nat) : Nat :=
  let n := num * Nat.pow 2 1074
  let u := (n / den).log2 - 52
  min infinity (u * Nat.pow 2 52 + roundHalfEven n (den * Nat.pow 2 u))

def magnitude (x : Float) : Nat := x.toBits.toNat % Nat.pow 2 63

/-- Whether the sign of a number is set; negative zero is negative. -/
def isNegative (x : Float) : Bool := Nat.pow 2 63 ≤ x.toBits.toNat

/-- The number of a magnitude, with a positive sign. -/
def ofMagnitude (magnitude : Nat) : Float := Float.ofBits (UInt64.ofNat magnitude)

end Scriptlet.Binary64
