import Scriptlet.Decimal.Shortest

/-!
# Numerals

A numeral is a decimal as it is written: a sign, digits before the point, digits after it, and
perhaps an exponent. Numbers have two written forms. The *exact* form (`Numeral.ofDecimal`) uses an
exponent for very large and very small values and always shows a point or an exponent. The *plain*
form (`Numeral.plain`) never has an exponent and leaves out a fraction that is a lone zero.
-/

namespace Scriptlet

/-- A written decimal. The digits are decimal digits; an empty fraction is written without its
point. -/
structure Numeral where
  negative : Bool := false
  whole : List Char
  fraction : List Char := []
  exponent : Option Int := none
  deriving DecidableEq, Repr

namespace Numeral

/-- The exact form is positional while its leading digit stands for a power of ten in this range,
lower end included. -/
def positional : Int × Int := (-4, 16)

/-- An exponent shows its sign and has at least two digits. -/
def exponentText (e : Int) : List Char :=
  let digits := Nat.toDigits 10 e.natAbs
  let sign := if e < 0 then '-' else '+'
  'e' :: sign :: (List.replicate (2 - digits.length) '0' ++ digits)

def chars (n : Numeral) : List Char :=
  (if n.negative then ['-'] else []) ++ n.whole ++
    (if n.fraction.isEmpty then [] else '.' :: n.fraction) ++
    (n.exponent.map exponentText).getD []

def text (n : Numeral) : String := String.ofList n.chars

/-- Places the point after `point` of the digits, adding zeros where it falls outside them. There
is always a digit before the point. -/
def place (negative : Bool) (digits : List Char) (point : Int) : Numeral :=
  if point ≤ 0 then
    { negative, whole := ['0'], fraction := List.replicate (-point).toNat '0' ++ digits }
  else
    let zeros := List.replicate (point.toNat - digits.length) '0'
    { negative, whole := digits.take point.toNat ++ zeros, fraction := digits.drop point.toNat }

/-- Removes trailing zeros, but not the first digit. -/
def dropTrailingZeros (digits : List Char) : List Char :=
  digits.take 1 ++ ((digits.drop 1).reverse.dropWhile (· == '0')).reverse

/-- The exact form of a decimal with the given sign. -/
def ofDecimal (negative : Bool) (d : Decimal) : Numeral :=
  let all := Nat.toDigits 10 d.coefficient
  let digits := dropTrailingZeros all
  let power := d.exponent + all.length - 1
  if positional.1 ≤ power ∧ power < positional.2 then
    let n := place negative digits (power + 1)
    if n.fraction.isEmpty then { n with fraction := ['0'] } else n
  else
    { negative, whole := digits.take 1, fraction := digits.drop 1, exponent := some power }

/-- Removes leading zeros, but not the last digit. -/
def dropLeadingZeros : List Char → List Char
  | '0' :: d :: ds => dropLeadingZeros (d :: ds)
  | ds => ds

/-- The same number without an exponent: the point moves and zeros fill the gap. A zero is one digit
before the point, however far the point moves to the right. -/
def writeOut (n : Numeral) : Numeral :=
  match n.exponent with
  | none => n
  | some e =>
    let all := n.whole ++ n.fraction
    let digits := dropLeadingZeros all
    let point := digits.length + (n.whole.length - all.length) + e
    place n.negative digits (if digits = ['0'] then min 1 point else point)

/-- Leaves out a fraction that is a lone zero. -/
def dropZeroFraction (n : Numeral) : Numeral :=
  if n.fraction = ['0'] then { n with fraction := [] } else n

/-- The plain form of a numeral. -/
def plain (n : Numeral) : Numeral := n.writeOut.dropZeroFraction

end Numeral

namespace Binary64

/-- The text of a number, its finite numerals written as `form` says. -/
def textWith (form : Numeral → Numeral) (x : Float) : String :=
  let m := magnitude x
  if infinity < m then "nan"
  else if m = infinity then (if isNegative x then "-inf" else "inf")
  else (form (Numeral.ofDecimal (isNegative x) (Decimal.shortest m))).text

/-- The exact form of a number: the shortest decimal that is read as it. -/
def exactText (x : Float) : String := textWith id x

/-- The plain form of a number, as programs print it. -/
def plainText (x : Float) : String := textWith Numeral.plain x

end Binary64

end Scriptlet
