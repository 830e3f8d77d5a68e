import DecisionFlow.Value.Basic

/-!
# Standard JSON

The standard has no numbers for not-a-number and the infinities. Where a value has to be standard JSON,
null stands for them.

* `Json.standard` — the standard form of a value.
-/

namespace DecisionFlow.Json

mutual

/-- A value with null in place of every double that is not finite. -/
def standard : Value → Value
  | .scalar (.number (.double x)) => if x.isFinite then .double x else .null
  | .scalar s => .scalar s
  | .null => .null
  | .list items => .list (standardItems items)
  | .object fields => .object (standardFields fields)
  | .foreign type place => .foreign type place

/-- The standard forms of items. -/
def standardItems : List Value → List Value
  | [] => []
  | item :: more => standard item :: standardItems more

/-- The fields with the standard forms of their values. -/
def standardFields : List (String × Value) → List (String × Value)
  | [] => []
  | (name, value) :: more => (name, standard value) :: standardFields more

end

example : standard (.list [.double .nan, .integer 1]) = .list [.null, .integer 1] := by decide

end DecisionFlow.Json
