import DecisionFlow.Expr.Token
import DecisionFlow.Value.Basic

/-!
# Expressions

* `Expr` — the tree of a condition: literals, variables, negations, comparisons and connectives;
* `Expr.negate` — an expression under negations.
-/

namespace DecisionFlow

/-- A condition as a tree. -/
inductive Expr where
  /-- A value written in the condition. -/
  | literal (value : Scalar)
  /-- A variable by its name. -/
  | reference (name : String)
  /-- A negation. -/
  | negation (operand : Expr)
  /-- A comparison. -/
  | compare (op : Comparison) (left right : Expr)
  /-- A conjunction or disjunction. -/
  | logical (op : Connective) (left right : Expr)
deriving DecidableEq, Repr

namespace Expr

/-- An expression under a number of negations. -/
def negate : Nat → Expr → Expr
  | 0, e => e
  | n + 1, e => negation (negate n e)

end Expr

end DecisionFlow
