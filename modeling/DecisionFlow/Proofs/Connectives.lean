import Mathlib.Data.Fintype.Option
import DecisionFlow.Proofs.Dependence

/-!
# The laws of the connectives

The operands of a connective are true, false, of another kind or without a value, and the right one counts
only if the left one does not decide.  The laws of Boolean algebra have to be looked at anew for such
operands.  Associativity holds as it stands, errors included; the distributive laws and those of De Morgan
hold but for the error, for an operand that is of another kind fails at the connective where it stands.

* `Expr.truthAt` — the truth value of an expression at a place that demands one;
* `Connective.combine`, `Connective.combine?` — the outcome of a connective from those of its sides, with
  errors and without;
* `Connective.combine_assoc`, `Connective.combine?_distrib`, `Connective.combine?_not` — the laws of the
  outcomes;
* `Expr.SameOutcome`, `Expr.SameValue` — two expressions have the same value or error, or the same value and
  an error at the same time;
* `logical_laws` — the laws of expressions.
-/

namespace DecisionFlow

/-! ### Outcomes of connectives -/

/-- The other connective. -/
def Connective.dual : Connective → Connective
  | and => or
  | or => and

/-- The outcome of a connective, given those of its sides. -/
def Connective.combine (op : Connective) (left right : Except EvalError Bool) : Except EvalError Bool :=
  left.bind fun b => if b = op.decisive then .ok b else right

/-- The outcome of a connective where errors are not told apart. -/
def Connective.combine? (op : Connective) (left right : Option Bool) : Option Bool :=
  left.bind fun b => if b = op.decisive then some b else right

namespace Connective

/-- **Associativity**, errors included: the first side that decides or fails gives the outcome. -/
theorem combine_assoc (op : Connective) (a b c : Except EvalError Bool) :
    op.combine (op.combine a b) c = op.combine a (op.combine b c) := by
  cases a with
  | error e => rfl
  | ok x =>
    by_cases hx : x = op.decisive
    · show op.combine (if x = op.decisive then .ok x else b) c = if x = op.decisive then .ok x else _
      rw [if_pos hx, if_pos hx]
      exact if_pos hx
    · show op.combine (if x = op.decisive then .ok x else b) c = if x = op.decisive then .ok x else _
      rw [if_neg hx, if_neg hx]

theorem toOption_combine (op : Connective) (a b : Except EvalError Bool) :
    (op.combine a b).toOption = op.combine? a.toOption b.toOption := by
  cases a with
  | error e => rfl
  | ok x =>
    show (if x = op.decisive then .ok x else b : Except EvalError Bool).toOption =
      if x = op.decisive then some x else b.toOption
    split <;> rfl

/-- **Distributivity**, over all operands that are true, false or fail. -/
theorem combine?_distrib (op : Connective) (a b c : Option Bool) :
    op.combine? a (op.dual.combine? b c) = op.dual.combine? (op.combine? a b) (op.combine? a c) := by
  cases op <;> revert a b c <;> decide

/-- **De Morgan's law**, over all operands that are true, false or fail. -/
theorem combine?_not (op : Connective) (a b : Option Bool) :
    (op.combine? a b).map (fun b => !b) = op.dual.combine? (a.map fun b => !b) (b.map fun b => !b) := by
  cases op <;> revert a b <;> decide

end Connective

/-! ### Truth values of expressions -/

namespace Expr

variable (vars : Variables)

/-- The truth value of an expression at a place that demands one. -/
def truthAt (place : BooleanPlace) (e : Expr) : Except EvalError Bool :=
  (e.value vars).bind (Scalar.boolean? place)

/-- The truth value of an expression, if it has one. -/
def truth? (e : Expr) : Option Bool := (e.truthAt vars .condition).toOption

/-- Where a truth value is demanded matters for the error only. -/
theorem toOption_truthAt (place : BooleanPlace) (e : Expr) :
    (e.truthAt vars place).toOption = e.truth? vars := by
  unfold truth? truthAt
  cases e.value vars with
  | error err => rfl
  | ok s => cases s <;> rfl

theorem truth?_eq_some_iff {e : Expr} {b : Bool} :
    e.truth? vars = some b ↔ e.value vars = .ok (.boolean b) := by
  unfold truth? truthAt
  cases e.value vars with
  | error err => exact ⟨nofun, nofun⟩
  | ok s =>
    cases s with
    | boolean x =>
      refine ⟨fun h => ?_, fun h => ?_⟩
      · cases h
        rfl
      · cases h
        rfl
    | number n => exact ⟨nofun, nofun⟩
    | string t => exact ⟨nofun, nofun⟩

/-- A connective has a truth value or fails, as its sides make it. -/
theorem value_logical_eq (op : Connective) (l r : Expr) :
    (logical op l r).value vars =
      (op.combine (l.truthAt vars (.connective op)) (r.truthAt vars (.connective op))).map .boolean := by
  rw [value_logical]
  show (l.truthAt vars (.connective op)).bind _ = _
  unfold Connective.combine
  cases l.truthAt vars (.connective op) with
  | error e => rfl
  | ok b =>
    show (if b = op.decisive then _ else _) = Except.map Scalar.boolean (if b = op.decisive then _ else _)
    split <;> rfl

theorem truthAt_logical (place : BooleanPlace) (op : Connective) (l r : Expr) :
    (logical op l r).truthAt vars place =
      op.combine (l.truthAt vars (.connective op)) (r.truthAt vars (.connective op)) := by
  rw [truthAt, value_logical_eq]
  cases op.combine (l.truthAt vars (.connective op)) (r.truthAt vars (.connective op)) <;> rfl

theorem truth?_logical (op : Connective) (l r : Expr) :
    (logical op l r).truth? vars = op.combine? (l.truth? vars) (r.truth? vars) := by
  rw [truth?, truthAt_logical, Connective.toOption_combine, toOption_truthAt, toOption_truthAt]

theorem truthAt_negation (place : BooleanPlace) (e : Expr) :
    (negation e).truthAt vars place = (e.truthAt vars .negation).map fun b => !b := by
  rw [truthAt, value_negation, ← truthAt]
  cases e.truthAt vars .negation <;> rfl

theorem truth?_negation (e : Expr) : (negation e).truth? vars = (e.truth? vars).map fun b => !b := by
  rw [truth?, truthAt_negation, ← toOption_truthAt vars .negation e]
  cases e.truthAt vars .negation <;> rfl

/-- The value of a connective is its truth value. -/
theorem toOption_value_logical (op : Connective) (l r : Expr) :
    ((logical op l r).value vars).toOption = ((logical op l r).truth? vars).map .boolean := by
  rw [truth?, truthAt_logical, value_logical_eq]
  cases op.combine (l.truthAt vars (.connective op)) (r.truthAt vars (.connective op)) <;> rfl

/-- The value of a negation is its truth value. -/
theorem toOption_value_negation (e : Expr) :
    ((negation e).value vars).toOption = ((negation e).truth? vars).map .boolean := by
  rw [truth?, truthAt_negation, value_negation, ← truthAt]
  cases e.truthAt vars .negation <;> rfl

end Expr

/-! ### Expressions with the same outcome -/

namespace Expr

variable {vars : Variables} {e e' : Expr}

/-- An outcome that is not too deep is the one without a limit. -/
theorem valueWithin_of_shallow {limit : Nat} (h : e.valueWithin vars limit ≠ .error .tooDeep) :
    e.valueWithin vars limit = (e.value vars).mapError .because := by
  rw [valueWithin_eq_within, Ne, Bounded.within_eq_tooDeep_iff, Nat.not_lt] at h
  rw [valueWithin_eq_within, Bounded.within_of_le _ h]

/-- Two expressions have the same outcome, a value or an error, wherever neither goes too deep. -/
def SameOutcome (vars : Variables) (e e' : Expr) : Prop :=
  ∀ limit, e.valueWithin vars limit ≠ .error .tooDeep → e'.valueWithin vars limit ≠ .error .tooDeep →
    e.valueWithin vars limit = e'.valueWithin vars limit

/-- Two expressions both fail or have the same value, wherever neither goes too deep. -/
def SameValue (vars : Variables) (e e' : Expr) : Prop :=
  ∀ limit, e.valueWithin vars limit ≠ .error .tooDeep → e'.valueWithin vars limit ≠ .error .tooDeep →
    (e.valueWithin vars limit).toOption = (e'.valueWithin vars limit).toOption

theorem SameOutcome.of_value (h : e.value vars = e'.value vars) : SameOutcome vars e e' := by
  intro limit hshallow hshallow'
  rw [valueWithin_of_shallow hshallow, valueWithin_of_shallow hshallow', h]

theorem toOption_mapError {ε δ α : Type} (r : Except ε α) (f : ε → δ) :
    (r.mapError f).toOption = r.toOption := by
  cases r <;> rfl

theorem SameValue.of_value (h : (e.value vars).toOption = (e'.value vars).toOption) :
    SameValue vars e e' := by
  intro limit hshallow hshallow'
  rw [valueWithin_of_shallow hshallow, valueWithin_of_shallow hshallow', toOption_mapError,
    toOption_mapError, h]

/-- Texts of expressions with the same outcome are decided in the same way. -/
theorem SameOutcome.decision_eq (h : SameOutcome vars e e') {depth : Nat} {text other : String}
    (he : parseWithin depth text = .ok e) (he' : parseWithin depth other = .ok e')
    (hshallow : (Condition.decision depth text vars).failure ≠ some .tooDeep)
    (hshallow' : (Condition.decision depth other vars).failure ≠ some .tooDeep) :
    Condition.decision depth text vars = Condition.decision depth other vars := by
  have hvalue {text : String} {e : Expr} (he : parseWithin depth text = .ok e)
      (hshallow : (Condition.decision depth text vars).failure ≠ some .tooDeep) :
      e.valueWithin vars depth ≠ .error .tooDeep := by
    intro hdeep
    unfold Condition.decision Condition.truthWithin at hshallow
    rw [he] at hshallow
    simp only [bind, Except.bind, Except.mapError, hdeep] at hshallow
    exact hshallow rfl
  exact Condition.decision_congr he he' (h depth (hvalue he hshallow) (hvalue he' hshallow'))

end Expr

/-! ### The laws -/

section Laws

variable (vars : Variables) (a b c : Expr)

theorem value_logical_assoc (op : Connective) :
    (Expr.logical op (.logical op a b) c).value vars = (Expr.logical op a (.logical op b c)).value vars := by
  rw [Expr.value_logical_eq, Expr.value_logical_eq, Expr.truthAt_logical, Expr.truthAt_logical,
    Connective.combine_assoc]

theorem toOption_value_logical_distrib (op : Connective) :
    ((Expr.logical op a (.logical op.dual b c)).value vars).toOption =
      ((Expr.logical op.dual (.logical op a b) (.logical op a c)).value vars).toOption := by
  rw [Expr.toOption_value_logical, Expr.toOption_value_logical]
  simp only [Expr.truth?_logical, Connective.combine?_distrib]

theorem toOption_value_negation_logical (op : Connective) :
    ((Expr.negation (.logical op a b)).value vars).toOption =
      ((Expr.logical op.dual (.negation a) (.negation b)).value vars).toOption := by
  rw [Expr.toOption_value_negation, Expr.toOption_value_logical]
  simp only [Expr.truth?_logical, Expr.truth?_negation, Connective.combine?_not]

theorem toOption_value_negation_negation :
    ((Expr.negation (.negation a)).value vars).toOption = (a.truth? vars).map .boolean := by
  rw [Expr.toOption_value_negation, Expr.truth?_negation, Expr.truth?_negation]
  cases a.truth? vars <;> simp

/-- **The connectives keep their laws** in the presence of errors, wherever no side goes too deep.
Associativity holds with the errors, so texts that differ in it only are decided in the same way, and what
is reported of them has the same cause.  Each connective distributes over the other one, and a negation
goes over to the sides of a connective and turns it into the other one: both sides of these laws fail
together, and otherwise have the same value.  A double negation has the value of what is negated if that is
a truth value, and fails otherwise. -/
theorem logical_laws :
    (∀ op, Expr.SameOutcome vars (.logical op (.logical op a b) c) (.logical op a (.logical op b c))) ∧
    (∀ (op : Connective) (depth : Nat) (text other : String),
      Expr.parseWithin depth text = .ok (.logical op (.logical op a b) c) →
      Expr.parseWithin depth other = .ok (.logical op a (.logical op b c)) →
      (Condition.decision depth text vars).failure ≠ some .tooDeep →
      (Condition.decision depth other vars).failure ≠ some .tooDeep →
      Condition.decision depth text vars = Condition.decision depth other vars) ∧
    (∀ op : Connective, Expr.SameValue vars (.logical op a (.logical op.dual b c))
      (.logical op.dual (.logical op a b) (.logical op a c))) ∧
    (∀ op : Connective, Expr.SameValue vars (.negation (.logical op a b))
      (.logical op.dual (.negation a) (.negation b))) ∧
    ∀ limit, (Expr.negation (.negation a)).valueWithin vars limit ≠ .error .tooDeep →
      (∀ t, a.value vars = .ok (.boolean t) →
        (Expr.negation (.negation a)).valueWithin vars limit = .ok (.boolean t)) ∧
      ((∀ t, a.value vars ≠ .ok (.boolean t)) →
        ∃ e, (Expr.negation (.negation a)).valueWithin vars limit = .error e) := by
  have hassoc (op : Connective) := Expr.SameOutcome.of_value (value_logical_assoc vars a b c op)
  refine ⟨hassoc, fun op depth text other h h' => (hassoc op).decision_eq h h',
    fun op => .of_value (toOption_value_logical_distrib vars a b c op),
    fun op => .of_value (toOption_value_negation_logical vars a b op), fun limit hshallow => ?_⟩
  have hdouble := toOption_value_negation_negation vars a
  rw [← Expr.toOption_mapError _ Bounded.because, ← Expr.valueWithin_of_shallow hshallow] at hdouble
  refine ⟨fun t ht => ?_, fun hother => ?_⟩
  · rw [(Expr.truth?_eq_some_iff vars).mpr ht] at hdouble
    cases hvalue : (Expr.negation (.negation a)).valueWithin vars limit with
    | error e =>
      rw [hvalue] at hdouble
      cases hdouble
    | ok s =>
      rw [hvalue] at hdouble
      exact congrArg Except.ok (Option.some.inj hdouble)
  · cases hvalue : (Expr.negation (.negation a)).valueWithin vars limit with
    | error e => exact ⟨e, rfl⟩
    | ok s =>
      rw [hvalue] at hdouble
      obtain ⟨t, ht, -⟩ := Option.map_eq_some_iff.mp hdouble.symm
      exact absurd ((Expr.truth?_eq_some_iff vars).mp ht) (hother t)

end Laws

/-- With a number for the second operand: both ways of association fail with one error, and the two sides of
a distributive law fail with different ones. -/
theorem logical_laws_number :
    let vars : Variables := .ofList [("n", .integer 1)]
    let mismatch (op : Connective) : EvalError := .booleanExpected (.connective op) .number
    let decision (text : String) : Decision := Condition.decision Depth.standard text vars
    let whole : Expr := .logical .and (.literal (.boolean true))
      (.logical .or (.reference "n") (.literal (.boolean true)))
    let split : Expr := .logical .or (.logical .and (.literal (.boolean true)) (.reference "n"))
      (.logical .and (.literal (.boolean true)) (.literal (.boolean true)))
    decision "true && n && false" = ⟨false, some (.because (.valueless (mismatch .and)))⟩ ∧
    decision "true && (n && false)" = ⟨false, some (.because (.valueless (mismatch .and)))⟩ ∧
    decision "true && n && false" = decision "true && (n && false)" ∧
    whole.valueWithin vars 3 = .error (.because (mismatch .or)) ∧
    split.valueWithin vars 3 = .error (.because (mismatch .and)) ∧
    (whole.valueWithin vars 3).toOption = (split.valueWithin vars 3).toOption := by
  intro vars mismatch decision whole split
  have hleft : decision "true && n && false" =
      ⟨false, some (.because (.valueless (mismatch .and)))⟩ := by decide +kernel
  have hright : decision "true && (n && false)" =
      ⟨false, some (.because (.valueless (mismatch .and)))⟩ := by decide +kernel
  have hwhole : whole.valueWithin vars 3 = .error (.because (mismatch .or)) :=
    eq_error_of_swap (by decide +kernel)
  have hsplit : split.valueWithin vars 3 = .error (.because (mismatch .and)) :=
    eq_error_of_swap (by decide +kernel)
  obtain ⟨-, hassoc, -⟩ := logical_laws vars (.literal (.boolean true)) (.reference "n")
    (.literal (.boolean false))
  obtain ⟨-, -, hdistrib, -⟩ := logical_laws vars (.literal (.boolean true)) (.reference "n")
    (.literal (.boolean true))
  have hsame : decision "true && n && false" = decision "true && (n && false)" := by
    refine hassoc .and Depth.standard _ _ (eq_ok_of_toOption (by decide +kernel))
      (eq_ok_of_toOption (by decide +kernel)) ?_ ?_
    · show (decision "true && n && false").failure ≠ _
      rw [hleft]
      exact nofun
    · show (decision "true && (n && false)").failure ≠ _
      rw [hright]
      exact nofun
  have hboth : (whole.valueWithin vars 3).toOption = (split.valueWithin vars 3).toOption := by
    refine hdistrib .and 3 ?_ ?_
    · show whole.valueWithin vars 3 ≠ _
      rw [hwhole]
      exact nofun
    · show split.valueWithin vars 3 ≠ _
      rw [hsplit]
      exact nofun
  exact ⟨hleft, hright, hsame, hwhole, hsplit, hboth⟩

end DecisionFlow
