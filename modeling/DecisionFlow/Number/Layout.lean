import DecisionFlow.Number.Decimal

/-!
# Texts of doubles

The digits of a double are the fewest that read back; this module lays them out. One record holds
the decisions of a format, so that the two formats in use differ by their values only.

* `NumberFormat` — where positional digits end, and the texts of the special values;
* `NumberFormat.render` — the text of a double.
-/

namespace DecisionFlow

/-- The decisions of a text format for doubles. -/
structure NumberFormat where
  /-- The least exponent of the leading digit that is written positionally. -/
  plainFrom : Int
  /-- The least exponent of the leading digit that is too large to be written positionally. -/
  plainBelow : Int
  /-- The least number of digits of a written exponent. -/
  exponentWidth : Nat
  /-- The text of not-a-number. -/
  nan : String
  /-- The text of the positive infinity; the negative one has a minus sign in front. -/
  infinity : String

namespace NumberFormat

/-- Numbers shown to people are positional from 0.0001 up to below ten to the sixteenth. -/
def display : NumberFormat where
  plainFrom := -4
  plainBelow := 16
  exponentWidth := 2
  nan := "nan"
  infinity := "inf"

/-- Numbers inside JSON are laid out as those shown to people, with names of their own for the
special values. -/
def json : NumberFormat := { display with nan := "NaN", infinity := "Infinity" }

/-- A signed exponent, padded with zeros to the least width. -/
def exponentChars (format : NumberFormat) (e : Int) : List Char :=
  let digits := Decimal.digitChars e.natAbs
  let padding := List.replicate (format.exponentWidth - digits.length) '0'
  (if e < 0 then '-' else '+') :: (padding ++ digits)

/-- The digits with a point after the first, unless there is only one. -/
def mantissaChars : List Char → List Char
  | d :: e :: rest => d :: '.' :: e :: rest
  | digits => digits

/-- Lays out a decimal without trailing zeros: positional digits always show a point, and digits
with an exponent only when there is more than one of them. -/
def layout (format : NumberFormat) (d : Decimal) : List Char :=
  let digits := Decimal.digitChars d.digits
  let leading : Int := d.exponent + digits.length - 1
  if format.plainFrom ≤ leading ∧ leading < format.plainBelow then
    if leading < 0 then
      '0' :: '.' :: (List.replicate (-leading - 1).toNat '0' ++ digits)
    else
      let whole := leading.toNat + 1
      if digits.length ≤ whole then
        digits ++ List.replicate (whole - digits.length) '0' ++ ['.', '0']
      else digits.take whole ++ '.' :: digits.drop whole
  else mantissaChars digits ++ 'e' :: format.exponentChars leading

/-- Puts a minus sign in front of the text of a negative number. -/
def withSign (negative : Bool) (cs : List Char) : List Char :=
  if negative then '-' :: cs else cs

/-- The text of a double. -/
def render (format : NumberFormat) : Double → String
  | .nan => format.nan
  | .infinite negative => String.ofList (withSign negative format.infinity.toList)
  | .finite negative exponent fraction =>
    let digits :=
      if Double.magnitude exponent fraction = 0 then ['0', '.', '0']
      else format.layout (Double.shortest exponent fraction)
    String.ofList (withSign negative digits)

example : display.render (Double.ofDecimal false ⟨1, 16⟩) = "1e+16" := by decide +kernel
example : display.render (Double.ofDecimal true ⟨15, -6⟩) = "-1.5e-05" := by decide +kernel
example : display.render (Double.ofDecimal false ⟨100, 0⟩) = "100.0" := by decide +kernel

end NumberFormat

end DecisionFlow
