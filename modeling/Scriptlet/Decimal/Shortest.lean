import Scriptlet.Decimal

/-!
# The shortest decimal of a number

Among the decimals that are read as a given number, the shortest one lies on the coarsest grid of
powers of ten that holds any. On that grid only the two neighbours of the number's exact value need
to be tried, the nearer one first. Seventeen digits always suffice; the exact decimal expansion,
which every binary64 number has, stands behind them.
-/

namespace Scriptlet.Decimal

open Binary64 (roundHalfEven scaled)

/-- The exact decimal expansion of a finite magnitude. The smallest subnormal is
`5 ^ 1074 * 10 ^ (-1074)`. -/
def exact (magnitude : Nat) : Decimal where
  coefficient := scaled magnitude * Nat.pow 5 1074
  exponent := -1074

/-- The power of ten of the leading digit of the positive fraction `num / den`. -/
def leadingPower (num den : Nat) : Int :=
  if den ≤ num then (Nat.toDigits 10 (num / den)).length - 1
  else -(Nat.toDigits 10 ((den - 1) / num)).length

/-- The two multiples of `10 ^ power` around `num / den`, as counts of that power, nearer one
first. -/
def neighbours (num den : Nat) (power : Int) : List Nat :=
  let a := num * Nat.pow 10 (-power).toNat
  let b := den * Nat.pow 10 power.toNat
  let below := a / b
  let nearer := roundHalfEven a b
  [nearer, if nearer = below then below + 1 else below]

/-- The decimal on the grid of `10 ^ power` that is read as `magnitude`, if there is one. -/
def onGrid? (magnitude : Nat) (power : Int) : Option Decimal :=
  let around := neighbours (scaled magnitude) (Nat.pow 2 1074) power
  (around.map (Decimal.mk · power)).find? (·.magnitude == magnitude)

/-- The first decimal found on `grids` grids from `10 ^ power` downwards. -/
def search (found? : Int → Option Decimal) (otherwise : Decimal) :
    (grids : Nat) → (power : Int) → Decimal
  | 0, _ => otherwise
  | grids + 1, power =>
    match found? power with
    | some d => d
    | none => search found? otherwise grids (power - 1)

/-- The shortest decimal that is read as the given finite magnitude and, of those, the nearest. -/
def shortest (magnitude : Nat) : Decimal :=
  if magnitude = 0 then ⟨0, 0⟩
  else
    let power := leadingPower (scaled magnitude) (Nat.pow 2 1074)
    search (onGrid? magnitude) (exact magnitude) 17 power

end Scriptlet.Decimal
