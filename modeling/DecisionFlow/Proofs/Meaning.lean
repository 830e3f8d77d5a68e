import DecisionFlow.Event
import DecisionFlow.Proofs.ExactOrder
import DecisionFlow.Proofs.Grammar

/-!
# The meaning of expressions

The ideal semantics of expressions, which knows no limit on depth, as relations: what an expression
yields is derived from what its operands yield, and failing is an outcome like any other.  Numbers are
compared by what they are exactly, and strings by their code points.  The evaluator of the program is
bounded; this module compares the two.

* `AsBoolean`, `Compares` — where a truth value is demanded, and comparisons of two scalars;
* `Yields` — the big-step semantics of expressions, errors included;
* `Written` — the texts of an expression;
* `yields_iff_value` — the semantics is total and single-valued, for it is the graph of the unbounded
  evaluator;
* `decision_cases` — the bounded evaluator has the outcome of the unbounded one, or goes too deep.
-/

namespace DecisionFlow

/-! ### The ideal semantics -/

/-- A truth value is demanded at a place: an outcome that is none is an error there. -/
inductive AsBoolean (place : BooleanPlace) :
    Except EvalError Scalar → Except EvalError Bool → Prop where
  | boolean (b : Bool) : AsBoolean place (.ok (.boolean b)) (.ok b)
  | other {s : Scalar} :
      s.kind ≠ .boolean → AsBoolean place (.ok s) (.error (.booleanExpected place s.kind))
  | failed (e : EvalError) : AsBoolean place (.error e) (.error e)

/-- Two scalars are compared.  Scalars of two kinds are never comparable, and truth values have no
order.  Numbers stand in the order of their exact values, and strings in that of their code points; beside
not-a-number only "not equal" holds. -/
inductive Compares : Comparison → Scalar → Scalar → Except EvalError Bool → Prop where
  | mismatch {op : Comparison} {s t : Scalar} :
      s.kind ≠ t.kind → Compares op s t (.error (.kindMismatch s.kind t.kind op))
  | unordered {op : Comparison} (a b : Bool) :
      op.isOrdering = true → Compares op (.boolean a) (.boolean b) (.error (.unorderedBooleans op))
  | equal (a b : Bool) : Compares .eq (.boolean a) (.boolean b) (.ok (a == b))
  | unequal (a b : Bool) : Compares .ne (.boolean a) (.boolean b) (.ok (a != b))
  | numbers {m n : Number} {v w : ExtendedRational} (op : Comparison) :
      m.exactValue? = some v → n.exactValue? = some w →
      Compares op (.number m) (.number n) (.ok (decide (op.Relates v w)))
  | notANumber {m n : Number} (op : Comparison) :
      m = .double .nan ∨ n = .double .nan →
      Compares op (.number m) (.number n) (.ok (decide (op = .ne)))
  | strings (op : Comparison) (s t : String) :
      Compares op (.string s) (.string t)
        (.ok (decide (op.Relates (Text.codePoints s) (Text.codePoints t))))

/-- `Yields vars e outcome`: the outcome of an expression under the variables, at any depth.
Operands come from left to right, and a connective that is decided by its left side does not ask for
its right side. -/
inductive Yields (vars : Variables) : Expr → Except EvalError Scalar → Prop where
  | literal (s : Scalar) : Yields vars (.literal s) (.ok s)
  | assigned {name : String} {s : Scalar} :
      vars.get? name = some (.scalar s) → Yields vars (.reference name) (.ok s)
  | unknown {name : String} :
      vars.get? name = none → Yields vars (.reference name) (.error (.unknownVariable name))
  | unsupported {name : String} {v : Value} :
      vars.get? name = some v → (∀ s, v ≠ .scalar s) →
      Yields vars (.reference name) (.error (.unsupportedVariable name v.typeName))
  | negation {e : Expr} {outcome : Except EvalError Scalar} {truth : Except EvalError Bool} :
      Yields vars e outcome → AsBoolean .negation outcome truth →
      Yields vars (.negation e) (truth.map fun b => .boolean !b)
  | compareLeft {op : Comparison} {l r : Expr} {err : EvalError} :
      Yields vars l (.error err) → Yields vars (.compare op l r) (.error err)
  | compareRight {op : Comparison} {l r : Expr} {s : Scalar} {err : EvalError} :
      Yields vars l (.ok s) → Yields vars r (.error err) → Yields vars (.compare op l r) (.error err)
  | compare {op : Comparison} {l r : Expr} {s t : Scalar} {truth : Except EvalError Bool} :
      Yields vars l (.ok s) → Yields vars r (.ok t) → Compares op s t truth →
      Yields vars (.compare op l r) (truth.map .boolean)
  | logicalFailed {op : Connective} {l r : Expr} {outcome : Except EvalError Scalar}
      {err : EvalError} :
      Yields vars l outcome → AsBoolean (.connective op) outcome (.error err) →
      Yields vars (.logical op l r) (.error err)
  | logicalDecided {op : Connective} {l r : Expr} {outcome : Except EvalError Scalar} :
      Yields vars l outcome → AsBoolean (.connective op) outcome (.ok op.decisive) →
      Yields vars (.logical op l r) (.ok (.boolean op.decisive))
  | logicalOpen {op : Connective} {l r : Expr} {left right : Except EvalError Scalar}
      {truth : Except EvalError Bool} :
      Yields vars l left → AsBoolean (.connective op) left (.ok !op.decisive) →
      Yields vars r right → AsBoolean (.connective op) right truth →
      Yields vars (.logical op l r) (truth.map .boolean)

/-- A text is written in the grammar, as the given expression. -/
def Written (text : String) (e : Expr) : Prop :=
  ∃ tokens, tokenize text = .ok tokens ∧ Derives .disjunction tokens e

/-! ### The semantics is the graph of the unbounded evaluator -/

theorem asBoolean_iff {place : BooleanPlace} {outcome : Except EvalError Scalar}
    {truth : Except EvalError Bool} :
    AsBoolean place outcome truth ↔ outcome.bind (Scalar.boolean? place) = truth := by
  constructor
  · intro h
    cases h with
    | boolean b => rfl
    | @other s hkind => cases s <;> first | exact absurd rfl hkind | rfl
    | failed e => rfl
  · rintro rfl
    cases outcome with
    | error e => exact .failed e
    | ok s =>
      cases s with
      | boolean b => exact .boolean b
      | number n => exact .other nofun
      | string s => exact .other nofun

/-- Two numbers compare as the evaluator has it. -/
theorem compares_number (op : Comparison) (m n : Number) :
    Compares op (.number m) (.number n) (Scalar.compare op (.number m) (.number n)) := by
  by_cases hnan : m = .double .nan ∨ n = .double .nan
  · rw [Scalar.compare_nan hnan]
    exact .notANumber op hnan
  · obtain ⟨hm, hn⟩ := not_or.mp hnan
    obtain ⟨v, hv⟩ := Number.exists_exactValue? hm
    obtain ⟨w, hw⟩ := Number.exists_exactValue? hn
    rw [Scalar.compare_number hv hw]
    exact .numbers op hv hw

theorem compares_iff {op : Comparison} {s t : Scalar} {truth : Except EvalError Bool} :
    Compares op s t truth ↔ s.compare op t = truth := by
  constructor
  · intro h
    cases h with
    | mismatch hkind => cases s <;> cases t <;> first | exact absurd rfl hkind | rfl
    | unordered a b hop => exact if_pos hop
    | equal a b => cases a <;> cases b <;> rfl
    | unequal a b => cases a <;> cases b <;> rfl
    | numbers op hm hn => exact Scalar.compare_number hm hn op
    | notANumber op hnan => exact Scalar.compare_nan hnan op
    | strings op s t => exact Scalar.compare_string s t op
  · rintro rfl
    cases s with
    | boolean a =>
      cases t with
      | boolean b =>
        cases op with
        | eq => cases a <;> cases b <;> exact .equal _ _
        | ne => cases a <;> cases b <;> exact .unequal _ _
        | lt | le | gt | ge => exact .unordered a b rfl
      | number n => exact .mismatch nofun
      | string t => exact .mismatch nofun
    | number m =>
      cases t with
      | boolean b => exact .mismatch nofun
      | number n => exact compares_number op m n
      | string t => exact .mismatch nofun
    | string s =>
      cases t with
      | boolean b => exact .mismatch nofun
      | number n => exact .mismatch nofun
      | string t =>
        rw [Scalar.compare_string]
        exact .strings op s t

namespace Expr

variable (vars : Variables)

theorem value_negation (e : Expr) :
    (negation e).value vars =
      ((e.value vars).bind (Scalar.boolean? .negation)).map fun b => .boolean !b := by
  simp only [value]
  cases e.value vars with
  | error err => rfl
  | ok s => cases s <;> rfl

theorem value_compare (op : Comparison) (l r : Expr) :
    (compare op l r).value vars =
      (l.value vars).bind fun s => (r.value vars).bind fun t => (s.compare op t).map .boolean := by
  simp only [value]
  cases l.value vars with
  | error err => rfl
  | ok s =>
    cases r.value vars with
    | error err => rfl
    | ok t =>
      show (s.compare op t).bind (fun b => .ok (Scalar.boolean b)) = (s.compare op t).map .boolean
      cases s.compare op t <;> rfl

theorem value_logical (op : Connective) (l r : Expr) :
    (logical op l r).value vars =
      ((l.value vars).bind (Scalar.boolean? (.connective op))).bind fun b =>
        if b = op.decisive then .ok (.boolean b)
        else ((r.value vars).bind (Scalar.boolean? (.connective op))).map .boolean := by
  simp only [value]
  cases l.value vars with
  | error err => rfl
  | ok s =>
    cases s with
    | number n => rfl
    | string t => rfl
    | boolean b =>
      show (if b = op.decisive then _ else _) = if b = op.decisive then _ else _
      split
      · rfl
      · cases r.value vars with
        | error err => rfl
        | ok t => cases t <;> rfl

end Expr

/-- The ideal semantics has the outcome of the evaluator. -/
theorem yields_value (vars : Variables) (e : Expr) : Yields vars e (e.value vars) := by
  induction e with
  | literal s => exact .literal s
  | reference name =>
    unfold Expr.value Variables.scalar?
    split
    · exact .unknown ‹_›
    · exact .assigned ‹_›
    · rename_i v hother hget
      exact .unsupported hget hother
  | negation operand ih =>
    rw [Expr.value_negation]
    exact .negation ih (asBoolean_iff.mpr rfl)
  | compare op left right ihl ihr =>
    rw [Expr.value_compare]
    cases hleft : left.value vars with
    | error e =>
      rw [hleft] at ihl
      exact .compareLeft ihl
    | ok s =>
      rw [hleft] at ihl
      cases hright : right.value vars with
      | error e =>
        rw [hright] at ihr
        exact .compareRight ihl ihr
      | ok t =>
        rw [hright] at ihr
        exact .compare ihl ihr (compares_iff.mpr rfl)
  | logical op left right ihl ihr =>
    rw [Expr.value_logical]
    cases hleft : (left.value vars).bind (Scalar.boolean? (.connective op)) with
    | error e => exact .logicalFailed ihl (asBoolean_iff.mpr hleft)
    | ok b =>
      show Yields vars _ (if b = op.decisive then _ else _)
      split
      · rename_i hdecided
        subst hdecided
        exact .logicalDecided ihl (asBoolean_iff.mpr hleft)
      · rename_i hopen
        rw [Bool.eq_not_of_ne hopen] at hleft
        exact .logicalOpen ihl (asBoolean_iff.mpr hleft) ihr (asBoolean_iff.mpr rfl)

/-- The ideal semantics has no other outcome. -/
theorem Yields.value_eq {vars : Variables} {e : Expr} {outcome : Except EvalError Scalar}
    (h : Yields vars e outcome) : e.value vars = outcome := by
  induction h with
  | literal s => rfl
  | assigned hget => simp only [Expr.value, Variables.scalar?, hget]
  | unknown hget => simp only [Expr.value, Variables.scalar?, hget]
  | unsupported hget hother => simp only [Expr.value, Variables.scalar?, hget]
  | negation _ htruth ih => rw [Expr.value_negation, ih, asBoolean_iff.mp htruth]
  | compareLeft _ ih =>
    rw [Expr.value_compare, ih]
    rfl
  | compareRight _ _ ihl ihr =>
    rw [Expr.value_compare, ihl, ihr]
    rfl
  | compare _ _ htruth ihl ihr =>
    rw [Expr.value_compare, ihl, ihr, ← compares_iff.mp htruth]
    rfl
  | logicalFailed _ htruth ih =>
    rw [Expr.value_logical, ih, asBoolean_iff.mp htruth]
    rfl
  | @logicalDecided op l r outcome _ htruth ih =>
    rw [Expr.value_logical, ih, asBoolean_iff.mp htruth]
    exact if_pos rfl
  | @logicalOpen op l r left right truth _ hleft _ hright ihl ihr =>
    rw [Expr.value_logical, ihl, asBoolean_iff.mp hleft, ihr, asBoolean_iff.mp hright]
    exact if_neg (by cases op.decisive <;> decide)

theorem yields_iff_value {vars : Variables} {e : Expr} {outcome : Except EvalError Scalar} :
    Yields vars e outcome ↔ e.value vars = outcome :=
  ⟨Yields.value_eq, fun h => h ▸ yields_value vars e⟩

theorem parse_eq_ok_iff {text : String} {e : Expr} : Expr.parse text = .ok e ↔ Written text e := by
  unfold Expr.parse Written
  cases tokenize text with
  | error e => simp
  | ok tokens => simp [ofTokens_eq_ok_iff]

/-- The truth value of a text is that of its expression. -/
theorem Condition.truth_of_parse {text : String} {e : Expr} (h : Expr.parse text = .ok e)
    (vars : Variables) :
    truth text vars =
      ((e.value vars).bind (Scalar.boolean? .condition)).mapError ConditionError.valueless := by
  unfold truth
  rw [h]
  rfl

/-! ### The bounded evaluator -/

/-- Whatever the depth, a decision is that of the unbounded evaluator, or the text went too deep. -/
theorem decision_cases (depth : Nat) (text : String) (vars : Variables) :
    (∃ b, Condition.truth text vars = .ok b ∧ Condition.decision depth text vars = ⟨b, none⟩) ∨
    (∃ cause, Condition.truth text vars = .error cause ∧
      Condition.decision depth text vars = ⟨false, some (.because cause)⟩) ∨
    (depth < Condition.reach text vars ∧
      Condition.decision depth text vars = ⟨false, some .tooDeep⟩) := by
  unfold Condition.decision
  rw [Condition.truthWithin_eq]
  by_cases hreach : Condition.reach text vars ≤ depth
  · rw [Bounded.within_of_le _ hreach]
    cases htruth : Condition.truth text vars with
    | ok b => exact .inl ⟨b, rfl, rfl⟩
    | error cause => exact .inr (.inl ⟨cause, rfl, rfl⟩)
  · rw [Bounded.within_of_lt _ (Nat.not_le.mp hreach)]
    exact .inr (.inr ⟨Nat.not_le.mp hreach, rfl⟩)

end DecisionFlow
