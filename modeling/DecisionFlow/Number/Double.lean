import DecisionFlow.Text.DecimalDigit

/-!
# Double-precision numbers

The finite numbers of the binary64 format are whole multiples of one *unit*, the least positive
one, 2⁻¹⁰⁷⁴. All arithmetic here is exact integer arithmetic on units, followed by one rounding.

* `Double` — a number by its sign, exponent and fraction fields;
* `Double.magnitude`, `Double.units` — the exact value of a finite number, counted in units;
* `Double.nearest` — the double closest to a quotient of units, ties to the even fraction;
* `Double.add`, `Double.ofInt` — sum and conversion, each rounded once.
-/

namespace DecisionFlow

/-- A double-precision number by the fields of its format. All not-a-numbers are one value. -/
inductive Double where
  /-- Not a number. -/
  | nan
  /-- An infinity. -/
  | infinite (negative : Bool)
  /-- A finite number: sign, biased exponent and fraction. -/
  | finite (negative : Bool) (exponent : Fin 2047) (fraction : Fin (2 ^ 52))
deriving DecidableEq, Repr

namespace Double

/-- The positive zero. -/
def zero : Double := .finite false 0 0

/-- Zero with the given sign. -/
def signedZero (negative : Bool) : Double := .finite negative 0 0

/-- The absolute value of a finite number, counted in units of 2⁻¹⁰⁷⁴: numbers with exponent zero
have no leading bit, and each further exponent doubles the gap between neighbours. -/
def magnitude (exponent : Fin 2047) (fraction : Fin (2 ^ 52)) : Nat :=
  if exponent.val = 0 then fraction.val
  else (2 ^ 52 + fraction.val) * 2 ^ (exponent.val - 1)

/-- An integer from its sign and absolute value. -/
def signed (negative : Bool) (n : Nat) : Int := if negative then -(n : Int) else n

/-- The number of units in one. -/
def unitsPerOne : Nat := 2 ^ 1074

/-- The exact value of a finite number, counted in units. -/
def units? : Double → Option Int
  | .finite negative exponent fraction => some (signed negative (magnitude exponent fraction))
  | _ => none

/-- Whether the number has no fractional part; the infinities and not-a-number have none to
speak of and are excluded. -/
def whole? (x : Double) : Option Int :=
  match x.units? with
  | some u => if u % (unitsPerOne : Int) = 0 then some (u / (unitsPerOne : Int)) else none
  | none => none

/-! ### Rounding -/

/-- The quotient rounded to the nearest integer, an exact half to the even neighbour. -/
def roundQuotient (num den : Nat) : Nat :=
  let q := num / den
  let r := num % den
  if 2 * r < den then q
  else if den < 2 * r then q + 1
  else if q % 2 = 0 then q else q + 1

/-- The finite number with `significand * 2 ^ shift` units, for a significand of at most `2 ^ 53`
that is below `2 ^ 52` only when `shift` is zero; beyond the largest exponent, an infinity. -/
def ofSignificand (negative : Bool) (significand shift : Nat) : Double :=
  if h : shift + significand / 2 ^ 52 < 2047 then
    .finite negative ⟨shift + significand / 2 ^ 52, h⟩
      ⟨significand % 2 ^ 52, Nat.mod_lt _ (Nat.two_pow_pos 52)⟩
  else .infinite negative

/-- The double nearest to `num / den` units. The gap between neighbours is `2 ^ shift` units, where
`shift` leaves 53 bits of the quotient; ties go to the even fraction. -/
def nearest (negative : Bool) (num den : Nat) : Double :=
  let shift := (num / den).log2 - 52
  ofSignificand negative (roundQuotient num (den * 2 ^ shift)) shift

/-- The double nearest to an integer. -/
def ofInt (n : Int) : Double := nearest (n < 0) (n.natAbs * unitsPerOne) 1

/-- Whether a number is finite. -/
def isFinite : Double → Bool
  | .finite .. => true
  | _ => false

/-! ### Addition -/

/-- The sum, rounded once. A sum that is exactly zero is positive unless both operands are
negative zeros; infinities of opposite signs have no sum. -/
def add : Double → Double → Double
  | .nan, _ => .nan
  | _, .nan => .nan
  | .infinite s, .infinite t => if s = t then .infinite s else .nan
  | .infinite s, .finite .. => .infinite s
  | .finite .., .infinite t => .infinite t
  | .finite s e f, .finite t d g =>
    let sum := signed s (magnitude e f) + signed t (magnitude d g)
    if sum = 0 then signedZero (s && t) else nearest (sum < 0) sum.natAbs 1

example : (ofInt 9007199254740993).units? = (ofInt 9007199254740992).units? := by decide +kernel
example : add (ofInt 1) (ofInt (-1)) = zero := by decide +kernel

end Double

end DecisionFlow
