import Scriptlet.Binary64

/-!
# Decimal fractions

A decimal is a whole number of some power of ten. It denotes an exact fraction, and the number it
is read as is the binary64 number nearest to that fraction.
-/

namespace Scriptlet

/-- The fraction `coefficient * 10 ^ exponent`. -/
structure Decimal where
  coefficient : Nat
  exponent : Int
  deriving DecidableEq, Repr

namespace Decimal

/-- The numerator over `denominator`. -/
def numerator (d : Decimal) : Nat := d.coefficient * Nat.pow 10 d.exponent.toNat

/-- A power of ten by which the decimal becomes whole. -/
def denominator (d : Decimal) : Nat := Nat.pow 10 (-d.exponent).toNat

/-- The binary64 magnitude a decimal is read as. -/
def magnitude (d : Decimal) : Nat := Binary64.nearest d.numerator d.denominator

/-- The decimal written with the given digits before and after the point. -/
def ofDigits (whole fraction : List Char) : Decimal where
  coefficient := Nat.ofDigitChars 10 (whole ++ fraction) 0
  exponent := -fraction.length

end Decimal

end Scriptlet
