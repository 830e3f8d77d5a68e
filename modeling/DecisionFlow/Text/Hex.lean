import DecisionFlow.Text.DecimalDigit

/-!
# Hexadecimal digits

Code points inside escapes are written with a fixed number of lower-case hexadecimal digits.

* `hexDigits` — the last digits of a number, the most significant first;
* `hexValue?` — the value of one digit of either case;
* `readHex?` — the number written by a list of digits.
-/

namespace DecisionFlow.Text

/-- The lower-case hexadecimal digit of a number below sixteen. -/
def hexDigit (d : Nat) : Char := if d < 10 then Char.ofNat (48 + d) else Char.ofNat (87 + d)

/-- The last `width` hexadecimal digits of `n`, the most significant first. -/
def hexDigits : Nat → Nat → List Char
  | 0, _ => []
  | width + 1, n => hexDigits width (n / 16) ++ [hexDigit (n % 16)]

/-- The value of a hexadecimal digit of either case. -/
def hexValue? (c : Char) : Option Nat :=
  let n := c.toNat
  if 48 ≤ n ∧ n ≤ 57 then some (n - 48)
  else if 97 ≤ n ∧ n ≤ 102 then some (n - 87)
  else if 65 ≤ n ∧ n ≤ 70 then some (n - 55)
  else none

/-- The number written by hexadecimal digits, the most significant first. -/
def readHex? (cs : List Char) : Option Nat :=
  cs.foldlM (fun n c => (hexValue? c).map (n * 16 + ·)) 0

theorem hexValue?_hexDigit : ∀ d, d < 16 → hexValue? (hexDigit d) = some d := by decide

/-- **Hexadecimal digits read back.** A number that fits the width is read back exactly. -/
theorem readHex?_hexDigits (width n : Nat) (h : n < 16 ^ width) :
    readHex? (hexDigits width n) = some n := by
  induction width generalizing n with
  | zero =>
    have : n = 0 := by simpa using h
    subst this
    rfl
  | succ width ih =>
    have hdiv : n / 16 < 16 ^ width := by
      rw [Nat.pow_succ] at h
      exact Nat.div_lt_of_lt_mul (by omega)
    have hdigit := hexValue?_hexDigit (n % 16) (Nat.mod_lt _ (by decide))
    have hprev := ih (n / 16) hdiv
    simp only [readHex?] at hprev
    simp only [readHex?, hexDigits, List.foldlM_append, hprev, List.foldlM_cons, List.foldlM_nil,
      hdigit, Option.map_some, Option.bind_eq_bind, Option.bind_some, Option.pure_def,
      Option.some.injEq]
    omega

end DecisionFlow.Text
