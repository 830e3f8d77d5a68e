import DecisionFlow.Expr.Eval

/-!
# Conditions

A condition is a text that decides between two branches. It holds only if it is a well-formed
expression whose value is `true`; whatever goes wrong makes it not hold and is reported beside the
answer.

* `ConditionError` — why a text decides nothing, with its message;
* `Condition.truth` — the truth value of a text, or the cause why there is none;
* `Condition.truthWithin` — the same with a bound on nesting;
* `Decision`, `Condition.decision` — whether the condition holds, and what went wrong if something did.
-/

namespace DecisionFlow

/-- Why a text has no truth value. -/
inductive ConditionError where
  /-- The text is no expression. -/
  | malformed (e : SyntaxError)
  /-- The expression has no value, or one that is no truth value. -/
  | valueless (e : EvalError)
deriving DecidableEq, Repr

/-- The message of a condition error. -/
def ConditionError.message : ConditionError → String
  | malformed e => e.message
  | valueless e => e.message

namespace Condition

/-- The truth value of a text, at any depth. -/
def truth (text : String) (vars : Variables) : Except ConditionError Bool := do
  let e ← (Expr.parse text).mapError .malformed
  ((e.value vars).bind (Scalar.boolean? .condition)).mapError .valueless

/-- The truth value of a text, to the given depth. -/
def truthWithin (depth : Nat) (text : String) (vars : Variables) :
    Except (Bounded ConditionError) Bool := do
  let e ← (Expr.parseWithin depth text).mapError (Bounded.map .malformed)
  ((e.valueWithin vars depth).bind fun s => Expr.lift (s.boolean? .condition)).mapError
    (Bounded.map .valueless)

end Condition

/-- How a condition was decided. -/
structure Decision where
  /-- Whether the condition holds. -/
  holds : Bool
  /-- What went wrong, if something did. -/
  failure : Option (Bounded ConditionError)
deriving DecidableEq, Repr

/-- The decision of a text: it holds only if its truth value is `true`. -/
def Condition.decision (depth : Nat) (text : String) (vars : Variables) : Decision :=
  match truthWithin depth text vars with
  | .ok b => ⟨b, none⟩
  | .error e => ⟨false, some e⟩

end DecisionFlow
