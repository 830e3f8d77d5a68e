import Mathlib.Algebra.Order.Field.Rat
import Mathlib.Algebra.Order.Ring.Cast
import Mathlib.Data.List.Lex
import Mathlib.Data.String.Basic
import Mathlib.Order.WithBot
import Mathlib.Tactic.Ring
import DecisionFlow.Expr.Eval

/-!
# The order of values

Numbers are compared by what they are exactly, whether they are integers or doubles, and strings by their
code points.  Only not-a-number stands outside the order.

* `Comparison.Relates` — a comparison as a relation of a linear order;
* `Double.exactValue?`, `Number.exactValue?` — the exact value of a number, as an extended rational number;
* `Number.exactValue?_eq` — it is that of the place by which the number is compared;
* `Text.codePoints` — the code points of a string;
* `Scalar.compare_number`, `Scalar.compare_nan`, `Scalar.compare_string` — what comparisons of scalars come
  to.
-/

namespace DecisionFlow

/-! ### Comparisons as relations -/

namespace Comparison

/-- The relation that a comparison asks for, in a linear order. -/
def Relates {α : Type} [LinearOrder α] : Comparison → α → α → Prop
  | eq, a, b => a = b
  | ne, a, b => a ≠ b
  | lt, a, b => a < b
  | le, a, b => a ≤ b
  | gt, a, b => b < a
  | ge, a, b => b ≤ a

instance {α : Type} [LinearOrder α] (op : Comparison) (a b : α) : Decidable (op.Relates a b) :=
  match op with
  | eq => inferInstanceAs (Decidable (a = b))
  | ne => inferInstanceAs (Decidable (a ≠ b))
  | lt => inferInstanceAs (Decidable (a < b))
  | le => inferInstanceAs (Decidable (a ≤ b))
  | gt => inferInstanceAs (Decidable (b < a))
  | ge => inferInstanceAs (Decidable (b ≤ a))

/-- Of things without an order, only "not equal" holds. -/
theorem holds_none (op : Comparison) : op.holds none = decide (op = ne) := by
  cases op <;> rfl

/-- Of things in an order, a comparison holds if they stand in its relation. -/
theorem holds_of_compares {α : Type} [LinearOrder α] {o : Ordering} {a b : α} (h : o.Compares a b)
    (op : Comparison) : op.holds (some o) = decide (op.Relates a b) := by
  cases o with
  | lt =>
    have hlt : a < b := h
    cases op <;> simp [holds, Relates, hlt, hlt.le, hlt.ne, hlt.not_ge, hlt.asymm]
  | eq =>
    have heq : a = b := h
    cases op <;> simp [holds, Relates, heq]
  | gt =>
    have hgt : b < a := h
    cases op <;> simp [holds, Relates, hgt, hgt.le, hgt.ne', hgt.not_ge, hgt.asymm]

end Comparison

/-! ### Exact values -/

/-- The rational numbers with a least and a greatest element. -/
abbrev ExtendedRational : Type := WithBot (WithTop ℚ)

/-- The absolute value of a finite double, from its fields: the numbers with exponent zero have no leading
bit, and of the others each has one in front of its fraction. -/
def Double.absolute (exponent : Fin 2047) (fraction : Fin (2 ^ 52)) : ℚ :=
  if exponent.val = 0 then fraction.val / 2 ^ 52 * 2 ^ (-1022 : ℤ)
  else (1 + fraction.val / 2 ^ 52) * 2 ^ ((exponent.val : ℤ) - 1023)

/-- The exact value of a double.  Not-a-number has none. -/
def Double.exactValue? : Double → Option ExtendedRational
  | nan => none
  | infinite negative => some (if negative then ⊥ else ((⊤ : WithTop ℚ) : ExtendedRational))
  | finite negative exponent fraction =>
    some (((if negative then -absolute exponent fraction else absolute exponent fraction : ℚ)) : WithTop ℚ)

/-- The exact value of a number: an integer is its own value. -/
def Number.exactValue? : Number → Option ExtendedRational
  | integer n => some (((n : ℚ) : WithTop ℚ) : ExtendedRational)
  | double x => x.exactValue?

/-- The value of a place, which is counted in units. -/
def Place.exact : Place → ExtendedRational
  | bottom => ⊥
  | finite units => (((units : ℚ) / Double.unitsPerOne : ℚ) : WithTop ℚ)
  | top => ((⊤ : WithTop ℚ) : ExtendedRational)

theorem Double.unitsPerOne_pos : (0 : ℚ) < Double.unitsPerOne := by
  rw [Double.unitsPerOne, Nat.cast_pow, Nat.cast_ofNat]
  exact pow_pos two_pos _

/-- **The order of places is that of their values.** -/
theorem Place.compares (p q : Place) : (p.compare q).Compares p.exact q.exact := by
  cases p with
  | bottom =>
    cases q with
    | bottom => rfl
    | finite n => exact WithBot.bot_lt_coe _
    | top => exact WithBot.bot_lt_coe _
  | finite m =>
    cases q with
    | bottom => exact WithBot.bot_lt_coe _
    | finite n =>
      have hmono : StrictMono fun units : ℤ => (finite units).exact := fun a b hab =>
        WithBot.coe_lt_coe.mpr (WithTop.coe_lt_coe.mpr
          (div_lt_div_of_pos_right (Int.cast_lt.mpr hab) Double.unitsPerOne_pos))
      exact hmono.compares.mpr ((compare_iff m n).mp rfl)
    | top => exact WithBot.coe_lt_coe.mpr (WithTop.coe_lt_top _)
  | top =>
    cases q with
    | bottom => exact WithBot.bot_lt_coe _
    | finite n => exact WithBot.coe_lt_coe.mpr (WithTop.coe_lt_top _)
    | top => rfl

/-- A fraction counts units where there is no leading bit. -/
theorem Double.subnormal_eq (fraction : ℚ) :
    fraction / 2 ^ 52 * 2 ^ (-1022 : ℤ) = fraction / Double.unitsPerOne := by
  have hunits : (Double.unitsPerOne : ℚ) = 2 ^ 52 * 2 ^ 1022 := by
    rw [← pow_add, Double.unitsPerOne, Nat.cast_pow, Nat.cast_ofNat]
  have hpower : (2 : ℚ) ^ (-1022 : ℤ) = (2 ^ 1022)⁻¹ := zpow_neg 2 1022
  rw [hunits, hpower, ← div_eq_mul_inv, div_div]

/-- With a leading bit, each further exponent doubles what the significand counts. -/
theorem Double.normal_eq (fraction : ℚ) (k : ℕ) :
    (1 + fraction / 2 ^ 52) * 2 ^ (((k + 1 : ℕ) : ℤ) - 1023) =
      (2 ^ 52 + fraction) * 2 ^ k / Double.unitsPerOne := by
  have hpower : (2 : ℚ) ^ (((k + 1 : ℕ) : ℤ) - 1023) = 2 ^ k * 2 ^ (-1022 : ℤ) := by
    rw [← zpow_natCast, ← zpow_add₀ two_ne_zero]
    congr 1
    omega
  have hleading : 1 + fraction / 2 ^ 52 = (2 ^ 52 + fraction) / 2 ^ 52 := by
    rw [add_div, div_self (pow_ne_zero 52 two_ne_zero)]
  rw [hpower, hleading, mul_div_right_comm, ← subnormal_eq]
  ring

theorem Double.absolute_eq (exponent : Fin 2047) (fraction : Fin (2 ^ 52)) :
    absolute exponent fraction = (magnitude exponent fraction : ℚ) / Double.unitsPerOne := by
  obtain ⟨exponent, hexponent⟩ := exponent
  unfold absolute magnitude
  cases exponent with
  | zero => exact subnormal_eq fraction.val
  | succ k =>
    have hcast : (((2 ^ 52 + fraction.val) * 2 ^ k : ℕ) : ℚ) = (2 ^ 52 + (fraction.val : ℚ)) * 2 ^ k := by
      push_cast
      rfl
    rw [if_neg (Nat.succ_ne_zero k), if_neg (Nat.succ_ne_zero k), normal_eq, ← hcast]
    rfl

/-- The exact value of a finite double is its number of units, in units. -/
theorem Double.exactValue?_finite (negative : Bool) (exponent : Fin 2047) (fraction : Fin (2 ^ 52)) :
    (finite negative exponent fraction).exactValue? =
      some (Place.finite (signed negative (magnitude exponent fraction))).exact := by
  cases negative with
  | false =>
    have hvalue := absolute_eq exponent fraction
    exact congrArg (fun value : ℚ => some ((value : WithTop ℚ) : ExtendedRational)) hvalue
  | true =>
    have hvalue : -absolute exponent fraction =
        ((-(magnitude exponent fraction : ℤ) : ℤ) : ℚ) / Double.unitsPerOne := by
      rw [absolute_eq, Int.cast_neg, Int.cast_natCast, neg_div]
    exact congrArg (fun value : ℚ => some ((value : WithTop ℚ) : ExtendedRational)) hvalue

/-- **The exact value of a number is that of its place.** -/
theorem Number.exactValue?_eq (x : Number) : x.exactValue? = x.place?.map Place.exact := by
  cases x with
  | integer n =>
    have hunits : ((n * Double.unitsPerOne : ℤ) : ℚ) / Double.unitsPerOne = n := by
      rw [Int.cast_mul, Int.cast_natCast]
      exact mul_div_cancel_right₀ _ Double.unitsPerOne_pos.ne'
    show some ((((n : ℚ) : WithTop ℚ) : ExtendedRational)) = some (Place.exact (.finite _))
    rw [Place.exact, hunits]
  | double x =>
    cases x with
    | nan => rfl
    | infinite negative => cases negative <;> rfl
    | finite negative exponent fraction => exact Double.exactValue?_finite negative exponent fraction

/-- **Numbers are compared by their exact values.** -/
theorem Number.compare?_of_exactValue? {x y : Number} {v w : ExtendedRational} (hx : x.exactValue? = some v)
    (hy : y.exactValue? = some w) : ∃ o, x.compare? y = some o ∧ o.Compares v w := by
  rw [exactValue?_eq] at hx hy
  obtain ⟨p, hp, rfl⟩ := Option.map_eq_some_iff.mp hx
  obtain ⟨q, hq, rfl⟩ := Option.map_eq_some_iff.mp hy
  refine ⟨p.compare q, ?_, p.compares q⟩
  unfold compare?
  rw [hp, hq]

/-- All numbers but one have an exact value. -/
theorem Number.exists_exactValue? {x : Number} (h : x ≠ .double .nan) : ∃ v, x.exactValue? = some v := by
  cases x with
  | integer n => exact ⟨_, rfl⟩
  | double x =>
    cases x with
    | nan => exact absurd rfl h
    | infinite negative => exact ⟨_, rfl⟩
    | finite negative exponent fraction => exact ⟨_, rfl⟩

/-- Not-a-number has no order with anything. -/
theorem Number.compare?_of_nan {x y : Number} (h : x = .double .nan ∨ y = .double .nan) :
    x.compare? y = none := by
  rcases h with rfl | rfl
  · rfl
  · unfold compare?
    cases x.place? <;> rfl

/-! ### Code points -/

namespace Text

/-- The code points of a string. -/
def codePoints (s : String) : List ℕ := s.toList.map Char.toNat

theorem codePoints_strictMono : StrictMono codePoints := fun _ _ h =>
  List.map_lt (fun _ _ hchar => hchar) (String.lt_iff_toList_lt.mp h)

/-- **Strings are compared by their code points.** -/
theorem compares (s t : String) : (Ord.compare s t).Compares (codePoints s) (codePoints t) :=
  codePoints_strictMono.compares.mpr ((compare_iff s t).mp rfl)

end Text

/-! ### Comparisons of scalars -/

namespace Scalar

/-- Two numbers are compared by their exact values. -/
theorem compare_number {x y : Number} {v w : ExtendedRational} (hx : x.exactValue? = some v)
    (hy : y.exactValue? = some w) (op : Comparison) :
    compare op (number x) (number y) = .ok (decide (op.Relates v w)) := by
  obtain ⟨o, ho, hcompares⟩ := Number.compare?_of_exactValue? hx hy
  show Except.ok (op.holds (x.compare? y)) = _
  rw [ho, Comparison.holds_of_compares hcompares]

/-- Beside not-a-number, only "not equal" holds. -/
theorem compare_nan {x y : Number} (h : x = .double .nan ∨ y = .double .nan) (op : Comparison) :
    compare op (number x) (number y) = .ok (decide (op = .ne)) := by
  show Except.ok (op.holds (x.compare? y)) = _
  rw [Number.compare?_of_nan h, Comparison.holds_none]

/-- Two strings are compared by their code points. -/
theorem compare_string (s t : String) (op : Comparison) :
    compare op (string s) (string t) =
      .ok (decide (op.Relates (Text.codePoints s) (Text.codePoints t))) := by
  show Except.ok (op.holds (some (Ord.compare s t))) = _
  rw [Comparison.holds_of_compares (Text.compares s t)]

end Scalar

end DecisionFlow
