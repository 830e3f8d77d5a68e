/-!
# Decimal digits

A decimal digit is a character of the Unicode category Nd (Unicode 14). These characters come in
blocks of ten, from zero to nine, so a table of the zeros gives both the class and the value.

* `digitValue?` — the value of a decimal digit of any script;
* `numeralValue` — the number of a list of digit values, the most significant first;
* `valueByHalves` — the same number from the numbers of the two halves, which is fast for long lists:
  `valueByHalves_eq`;
* `digitsValue` — the number written by a list of digits: `digitsValue_eq`;
* `powNat` — the powers by which numerals are read, and all others in the project.
-/

namespace DecisionFlow.Text

/-- The powers of natural numbers, which come before those of any algebra that is imported. -/
@[default_instance high]
instance (priority := high) powNat : Pow Nat Nat := ⟨Nat.pow⟩

/-- The digit zero of each block of ten, in ascending order. -/
def digitZeros : List Nat :=
  [0x30, 0x660, 0x6F0, 0x7C0, 0x966, 0x9E6, 0xA66, 0xAE6, 0xB66, 0xBE6, 0xC66, 0xCE6, 0xD66,
   0xDE6, 0xE50, 0xED0, 0xF20, 0x1040, 0x1090, 0x17E0, 0x1810, 0x1946, 0x19D0, 0x1A80, 0x1A90,
   0x1B50, 0x1BB0, 0x1C40, 0x1C50, 0xA620, 0xA8D0, 0xA900, 0xA9D0, 0xA9F0, 0xAA50, 0xABF0,
   0xFF10, 0x104A0, 0x10D30, 0x11066, 0x110F0, 0x11136, 0x111D0, 0x112F0, 0x11450, 0x114D0,
   0x11650, 0x116C0, 0x11730, 0x118E0, 0x11950, 0x11C50, 0x11D50, 0x11DA0, 0x16A60, 0x16AC0,
   0x16B50, 0x1D7CE, 0x1D7D8, 0x1D7E2, 0x1D7EC, 0x1D7F6, 0x1E140, 0x1E2F0, 0x1E950, 0x1FBF0]

/-- The value of a decimal digit of any script, or `none` for any other character. -/
def digitValue? (c : Char) : Option Nat :=
  (digitZeros.find? fun z => z ≤ c.toNat && c.toNat < z + 10).map (c.toNat - ·)

/-- Whether a character is a decimal digit of some script. -/
def isDigit (c : Char) : Bool := (digitValue? c).isSome

/-- The value of a digit is below ten. -/
theorem digitValue?_lt {c : Char} {d : Nat} (h : digitValue? c = some d) : d < 10 := by
  simp only [digitValue?, Option.map_eq_some_iff] at h
  obtain ⟨z, hz, rfl⟩ := h
  have := List.find?_some hz
  simp only [Bool.and_eq_true, decide_eq_true_eq] at this
  omega

/-! ### Numerals -/

/-- The number of a list of digit values, the most significant first. -/
def numeralValue (digits : List Nat) : Nat := digits.foldl (fun n d => n * 10 + d) 0

/-- The number of a list of digit values by halves: the number of the front, moved past the back, and
the number of the back. Only so many times are halves halved. -/
def valueByHalves : Nat → List Nat → Nat
  | 0, digits => numeralValue digits
  | times + 1, digits =>
    let back := digits.drop (digits.length / 2)
    valueByHalves times (digits.take (digits.length / 2)) * 10 ^ back.length +
      valueByHalves times back

/-- The number written by the given characters, the most significant digit first. Characters that
are no digits count as zero; callers pass digits only. Halving stops at a few hundred digits. -/
def digitsValue (cs : List Char) : Nat :=
  valueByHalves (cs.length.log2 - 8) (cs.map fun c => (digitValue? c).getD 0)

theorem foldl_numeralValue (start : Nat) (digits : List Nat) :
    digits.foldl (fun n d => n * 10 + d) start =
      start * 10 ^ digits.length + numeralValue digits := by
  induction digits generalizing start with
  | nil => simp [numeralValue]
  | cons d more ih =>
    have hstart := ih (start * 10 + d)
    have hzero := ih d
    simp only [numeralValue, List.foldl_cons, List.length_cons, Nat.zero_mul, Nat.zero_add] at *
    rw [hstart, hzero, Nat.pow_succ', ← Nat.add_assoc, Nat.add_mul, Nat.mul_assoc]

theorem numeralValue_append (front back : List Nat) :
    numeralValue (front ++ back) = numeralValue front * 10 ^ back.length + numeralValue back := by
  rw [← foldl_numeralValue, numeralValue, List.foldl_append]
  rfl

/-- Halving does not change the number. -/
theorem valueByHalves_eq (times : Nat) (digits : List Nat) :
    valueByHalves times digits = numeralValue digits := by
  induction times generalizing digits with
  | zero => rfl
  | succ times ih => rw [valueByHalves, ih, ih, ← numeralValue_append, List.take_append_drop]

/-- The number written by digits is the number of their values. -/
theorem digitsValue_eq (cs : List Char) :
    digitsValue cs = numeralValue (cs.map fun c => (digitValue? c).getD 0) :=
  valueByHalves_eq _ _

example : digitsValue ['4', '2'] = 42 := by decide
example : digitsValue ['\u0664', '2'] = 42 := by decide
example : isDigit '\u19da' = false ∧ isDigit 'a' = false := by decide

end DecisionFlow.Text
