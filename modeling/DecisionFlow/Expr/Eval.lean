import DecisionFlow.Expr.Parser
import DecisionFlow.Variables

/-!
# Values of expressions

An expression has a scalar value under the variables, or a cause why it has none. Operands are valued
from left to right; a connective whose left side decides does not look at its right side; kinds are
strict.

* `EvalError` — why an expression has no value;
* `Scalar.compare` — a comparison of two scalars;
* `Expr.value` — the value at any depth;
* `Expr.valueWithin` — the value to a limited depth.
-/

namespace DecisionFlow

/-- A place that demands a truth value. -/
inductive BooleanPlace where
  /-- The operand of a negation. -/
  | negation
  /-- A side of a connective. -/
  | connective (op : Connective)
  /-- The condition as a whole. -/
  | condition
deriving DecidableEq, Repr

/-- The name of such a place in messages. -/
def BooleanPlace.text : BooleanPlace → String
  | negation => "Operator '!'"
  | connective op => "Operator '" ++ op.text ++ "'"
  | condition => "Condition"

/-- Why an expression has no value. -/
inductive EvalError where
  /-- A variable is not there. -/
  | unknownVariable (name : String)
  /-- A variable holds no scalar; the name of its type is given. -/
  | unsupportedVariable (name typeName : String)
  /-- Something other than a truth value stands where one is demanded. -/
  | booleanExpected (place : BooleanPlace) (got : Kind)
  /-- Two kinds that cannot be compared. -/
  | kindMismatch (left right : Kind) (op : Comparison)
  /-- Truth values have no order. -/
  | unorderedBooleans (op : Comparison)
deriving DecidableEq, Repr

/-- The message of an evaluation error. -/
def EvalError.message : EvalError → String
  | unknownVariable name => "Unknown variable '" ++ name ++ "'"
  | unsupportedVariable name typeName => "Variable '" ++ name ++ "' has unsupported type " ++ typeName
  | booleanExpected place got => place.text ++ " expects a boolean, got " ++ got.text
  | kindMismatch left right op =>
    "Cannot compare " ++ left.text ++ " with " ++ right.text ++ " using '" ++ op.text ++ "'"
  | unorderedBooleans op => "Operator '" ++ op.text ++ "' does not apply to booleans"

namespace Scalar

/-- A scalar that has to be a truth value. -/
def boolean? (place : BooleanPlace) : Scalar → Except EvalError Bool
  | boolean b => .ok b
  | s => .error (.booleanExpected place s.kind)

/-- A comparison of two scalars: of one kind only, truth values for equality only, numbers by exact
value and strings by code point. -/
def compare (op : Comparison) : Scalar → Scalar → Except EvalError Bool
  | boolean a, boolean b =>
    if op.isOrdering then .error (.unorderedBooleans op)
    else .ok (op.holds (some (if a = b then .eq else .lt)))
  | number a, number b => .ok (op.holds (a.compare? b))
  | string a, string b => .ok (op.holds (some (Ord.compare a b)))
  | s, t => .error (.kindMismatch s.kind t.kind op)

end Scalar

/-- The scalar that a variable holds. -/
def Variables.scalar? (vars : Variables) (name : String) : Except EvalError Scalar :=
  match vars.get? name with
  | none => .error (.unknownVariable name)
  | some (.scalar s) => .ok s
  | some v => .error (.unsupportedVariable name v.typeName)

/-- The value that decides a connective without a look at its right side. -/
def Connective.decisive : Connective → Bool
  | and => false
  | or => true

namespace Expr

/-- The value of an expression at any depth. -/
def value (vars : Variables) : Expr → Except EvalError Scalar
  | literal s => .ok s
  | reference name => vars.scalar? name
  | negation operand => do
    let b ← (← operand.value vars).boolean? .negation
    return .boolean !b
  | compare op left right => do
    let l ← left.value vars
    let r ← right.value vars
    return .boolean (← l.compare op r)
  | logical op left right => do
    let l ← (← left.value vars).boolean? (.connective op)
    if l = op.decisive then return .boolean l
    return .boolean (← (← right.value vars).boolean? (.connective op))

/-- A result of an operation that is not bounded, as one of a bounded computation. -/
def lift {α : Type} (r : Except EvalError α) : Except (Bounded EvalError) α := r.mapError .because

/-- The value of an expression to a limited depth: only the levels that valuing enters count. -/
def valueWithin (vars : Variables) : Nat → Expr → Except (Bounded EvalError) Scalar
  | 0, _ => .error .tooDeep
  | _ + 1, literal s => .ok s
  | _ + 1, reference name => lift (vars.scalar? name)
  | depth + 1, negation operand => do
    let b ← lift ((← operand.valueWithin vars depth).boolean? .negation)
    return .boolean !b
  | depth + 1, compare op left right => do
    let l ← left.valueWithin vars depth
    let r ← right.valueWithin vars depth
    return .boolean (← lift (l.compare op r))
  | depth + 1, logical op left right => do
    let l ← lift ((← left.valueWithin vars depth).boolean? (.connective op))
    if l = op.decisive then return .boolean l
    return .boolean (← lift ((← right.valueWithin vars depth).boolean? (.connective op)))

end Expr

end DecisionFlow
