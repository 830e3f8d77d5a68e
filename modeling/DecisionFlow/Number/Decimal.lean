import DecisionFlow.Number.Double

/-!
# Decimal numbers and doubles

A decimal is a natural number of digits times a power of ten. Reading rounds it to the nearest
double; writing selects the decimal with the fewest digits that reads back.

* `Double.ofDecimal` — the double nearest to a decimal;
* `Double.shortest` — among the decimals that round to a finite number, one with the fewest digits,
  and the nearest to the number among those.
-/

namespace DecisionFlow

/-- The number `digits * 10 ^ exponent`. -/
structure Decimal where
  /-- The digits, read as one natural number. -/
  digits : Nat
  /-- The power of ten that multiplies them. -/
  exponent : Int
deriving DecidableEq, Repr

namespace Decimal

/-- The decimal digits of a number, the most significant first. -/
def digitChars (n : Nat) : List Char := n.repr.toList

/-- Moves trailing zeros from the digits into the exponent; `fuel` bounds their number. -/
def stripZeros : Nat → Decimal → Decimal
  | 0, d => d
  | fuel + 1, d =>
    if d.digits % 10 = 0 then stripZeros fuel ⟨d.digits / 10, d.exponent + 1⟩ else d

/-- Compares `digits * 10 ^ exponent` with `n * 2 ^ (-1076)`, exactly. -/
def compareQuarters (d : Decimal) (n : Nat) : Ordering :=
  compare (d.digits * 10 ^ d.exponent.toNat * 2 ^ 1076) (n * 10 ^ (-d.exponent).toNat)

end Decimal

namespace Double

/-! ### Reading -/

/-- The double nearest to a decimal of the given sign. The two guards only spare the computation of
huge powers: past ten to the four hundred every decimal is infinite, and a decimal below
two to the minus one thousand and eighty is zero. -/
def ofDecimal (negative : Bool) (d : Decimal) : Double :=
  if d.digits = 0 then signedZero negative
  else if d.exponent > 400 then .infinite negative
  else if (d.digits.log2 : Int) + 1 + 3 * d.exponent < -1080 then signedZero negative
  else nearest negative (d.digits * 10 ^ d.exponent.toNat * unitsPerOne) (10 ^ (-d.exponent).toNat)

/-! ### Writing: the fewest digits -/

/-- The gap, in units, from a finite number to the next one of greater magnitude. -/
def gapAbove (exponent : Fin 2047) : Nat := 2 ^ (exponent.val - 1)

/-- The gap to the neighbour below is half the gap above exactly at a power of two that is not the
least number with a leading bit. -/
def isNarrowBelow (exponent : Fin 2047) (fraction : Fin (2 ^ 52)) : Bool :=
  fraction.val = 0 && 1 < exponent.val

/-- Whether a decimal rounds to the given finite magnitude: it lies between the midpoints to the two
neighbours, the midpoints included when the fraction is even. Quarters of units make both
midpoints whole. -/
def roundsTo (exponent : Fin 2047) (fraction : Fin (2 ^ 52)) (d : Decimal) : Bool :=
  let value := 4 * magnitude exponent fraction
  let gap := gapAbove exponent
  let low := d.compareQuarters (value - if isNarrowBelow exponent fraction then gap else 2 * gap)
  let high := d.compareQuarters (value + 2 * gap)
  let closed := fraction.val % 2 = 0
  (low = .gt || (closed && low = .eq)) && (high = .lt || (closed && high = .eq))

/-- Whether `units` units are less than `10 ^ k`. -/
def belowPowerOfTen (units : Nat) (k : Int) : Bool :=
  units * 10 ^ (-k).toNat < 10 ^ k.toNat * unitsPerOne

/-- The least `k` such that `units` units are less than `10 ^ k`: an estimate from the binary
logarithm is never too large and at most two too small. -/
def decimalScale (units : Nat) : Int :=
  let estimate := ((units.log2 : Int) - 1074) * 30103 / 100000
  if belowPowerOfTen units estimate then estimate
  else if belowPowerOfTen units (estimate + 1) then estimate + 1
  else estimate + 2

/-- The better of the two neighbours of a magnitude on the grid of multiples of `10 ^ grid`, if one
of them rounds to it. When both do, the nearer one is better, and an exact tie goes to the even
digits. -/
def gridCandidate? (exponent : Fin 2047) (fraction : Fin (2 ^ 52)) (grid : Int) :
    Option Decimal :=
  let units := magnitude exponent fraction
  let below := units * 10 ^ (-grid).toNat / (10 ^ grid.toNat * unitsPerOne)
  let lower : Decimal := ⟨below, grid⟩
  let upper : Decimal := ⟨below + 1, grid⟩
  match roundsTo exponent fraction lower, roundsTo exponent fraction upper with
  | true, true =>
    match Decimal.compareQuarters ⟨2 * below + 1, grid⟩ (8 * units) with
    | .gt => some lower
    | .lt => some upper
    | .eq => some (if below % 2 = 0 then lower else upper)
  | true, false => some lower
  | false, true => some upper
  | false, false => none

/-- The exact decimal value of a number of units. -/
def exactDecimal (units : Nat) : Decimal := ⟨units * 5 ^ 1074, -1074⟩

/-- A decimal with the fewest digits that rounds to the given non-zero magnitude, without trailing
zeros. Grids from one to seventeen digits are tried in this order; seventeen always suffice, and
the exact value stands behind them. -/
def shortest (exponent : Fin 2047) (fraction : Fin (2 ^ 52)) : Decimal :=
  let units := magnitude exponent fraction
  let scale := decimalScale units
  let found := (List.range 17).findSome? fun n =>
    gridCandidate? exponent fraction (scale - (n + 1 : Nat))
  (found.getD (exactDecimal units)).stripZeros 800

example : shortest 0 1 = ⟨5, -324⟩ := by decide +kernel
example : ofDecimal false ⟨1, -1⟩ = .finite false 1019 2702159776422298 := by decide +kernel
example : shortest 1019 2702159776422298 = ⟨1, -1⟩ := by decide +kernel

end Double

end DecisionFlow
