import DecisionFlow.Number.Layout
import DecisionFlow.Text.DecimalDigit

/-!
# Numbers

A number is an integer of any size or a double. The two mix freely: they are compared by their exact
values, never by rounding one to the other.

* `Number.compare?` — the exact order, undefined only beside not-a-number;
* `Comparison.holds` — the six comparisons on numbers;
* `Number.add?` — the sum; an integer beside a double is rounded to a double first;
* `Numeral.maxDigits` — integers are read and written with at most 4300 digits.
-/

namespace DecisionFlow

/-- The greatest number of decimal digits with which an integer is read or written. -/
def Numeral.maxDigits : Nat := 4300

/-- Whether an integer has too many digits to be written. -/
def Numeral.isTooLong (n : Int) : Bool := 10 ^ Numeral.maxDigits ≤ n.natAbs

/-- The message for an integer that has too many digits to be written. -/
def Numeral.tooLongMessage : String :=
  "Exceeds the limit (" ++ Numeral.maxDigits.repr ++ " digits) for integer string conversion; " ++
    "use sys.set_int_max_str_digits() to increase the limit"

/-- The decimal text of an integer. -/
def Numeral.chars (n : Int) : List Char :=
  NumberFormat.withSign (n < 0) (Decimal.digitChars n.natAbs)

/-- The decimal text of an integer. -/
def Numeral.render (n : Int) : String := String.ofList (Numeral.chars n)

/-- An integer of any size or a double. -/
inductive Number where
  /-- An integer. -/
  | integer (n : Int)
  /-- A double. -/
  | double (x : Double)
deriving DecidableEq, Repr

/-- The six comparisons. -/
inductive Comparison where
  /-- Equal. -/
  | eq
  /-- Not equal. -/
  | ne
  /-- Less. -/
  | lt
  /-- Less or equal. -/
  | le
  /-- Greater. -/
  | gt
  /-- Greater or equal. -/
  | ge
deriving DecidableEq, Repr

namespace Comparison

/-- The operator of a comparison. -/
def text : Comparison → String
  | eq => "=="
  | ne => "!="
  | lt => "<"
  | le => "<="
  | gt => ">"
  | ge => ">="

/-- Whether a comparison asks for an order, and not for equality only. -/
def isOrdering : Comparison → Bool
  | eq | ne => false
  | lt | le | gt | ge => true

/-- Whether a comparison holds of two things in the given order; of things that have no order, only
"not equal" holds. -/
def holds : Comparison → Option Ordering → Bool
  | eq, o => o = some .eq
  | ne, o => o ≠ some .eq
  | lt, o => o = some .lt
  | le, o => o = some .lt || o = some .eq
  | gt, o => o = some .gt
  | ge, o => o = some .gt || o = some .eq

end Comparison

/-- A place on the extended line of exact values. -/
inductive Place where
  /-- Below all finite values. -/
  | bottom
  /-- A finite value, counted in units of 2⁻¹⁰⁷⁴. -/
  | finite (units : Int)
  /-- Above all finite values. -/
  | top
deriving DecidableEq, Repr

namespace Place

/-- The order of the extended line. -/
def compare : Place → Place → Ordering
  | bottom, bottom => .eq
  | bottom, _ => .lt
  | _, bottom => .gt
  | top, top => .eq
  | top, _ => .gt
  | _, top => .lt
  | finite m, finite n => Ord.compare m n

end Place

namespace Number

/-- The exact value of a number, or `none` for not-a-number. -/
def place? : Number → Option Place
  | integer n => some (.finite (n * Double.unitsPerOne))
  | double .nan => none
  | double (.infinite negative) => some (if negative then .bottom else .top)
  | double (.finite negative exponent fraction) =>
    some (.finite (Double.signed negative (Double.magnitude exponent fraction)))

/-- The order of two numbers by exact value; not-a-number has no order with anything. -/
def compare? (a b : Number) : Option Ordering :=
  match a.place?, b.place? with
  | some p, some q => some (p.compare q)
  | _, _ => none

/-- Whether a number is zero, of either sign. -/
def isZero : Number → Bool
  | integer n => n = 0
  | double (.finite _ exponent fraction) => Double.magnitude exponent fraction = 0
  | double _ => false

/-- A number that is a whole number, as an integer. -/
def whole? : Number → Option Int
  | integer n => some n
  | double x => x.whole?

/-- A number as a double, or `none` for an integer beyond the largest finite double. -/
def toDouble? : Number → Option Double
  | integer n => let x := Double.ofInt n; if x.isFinite then some x else none
  | double x => some x

/-- The sum of two numbers: exact for two integers, otherwise of doubles. There is none when an
integer is beyond the range of doubles. -/
def add? : Number → Number → Option Number
  | integer m, integer n => some (integer (m + n))
  | a, b =>
    match a.toDouble?, b.toDouble? with
    | some x, some y => some (double (x.add y))
    | _, _ => none

/-- The text of a number in the given format for doubles. -/
def render (format : NumberFormat) : Number → String
  | integer n => Numeral.render n
  | double x => format.render x

/-- Whether a number is an integer with too many digits to be written. -/
def isTooLong : Number → Bool
  | integer n => Numeral.isTooLong n
  | double _ => false

/-- An integer and a double are equal only when their exact values are. -/
example : compare? (integer 9007199254740993) (double (Double.ofInt 9007199254740992)) = some .gt := by
  decide +kernel

end Number

end DecisionFlow
