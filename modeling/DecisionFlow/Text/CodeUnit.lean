/-!
# Code units

A character beyond U+FFFF is written with two units of sixteen bits, a first and a second half. A half
that stands alone is no character.

* `isFirstHalf`, `isSecondHalf`, `joinHalves` — the halves, and the character of two of them;
* `charOf?` — the character of a number.
-/

namespace DecisionFlow.Text

/-- Whether a unit is the first half of a character. -/
def isFirstHalf (n : Nat) : Bool := 0xD800 ≤ n && n < 0xDC00

/-- Whether a unit is the second half of a character. -/
def isSecondHalf (n : Nat) : Bool := 0xDC00 ≤ n && n < 0xE000

/-- The character of a first and a second half. -/
def joinHalves (first second : Nat) : Char :=
  Char.ofNat (0x10000 + (first - 0xD800) * 0x400 + (second - 0xDC00))

/-- The character with the given number, which a half and a number beyond U+10FFFF do not have. -/
def charOf? (n : Nat) : Option Char := if n.isValidChar then some (Char.ofNat n) else none

example : joinHalves 0xD83D 0xDE00 = '😀' := by decide
example : charOf? 0xD83D = none ∧ charOf? 0x110000 = none := by decide

end DecisionFlow.Text
