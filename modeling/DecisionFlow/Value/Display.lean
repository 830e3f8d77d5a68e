import DecisionFlow.Depth
import DecisionFlow.Text.Quoted
import DecisionFlow.Value.Basic

/-!
# Showing values

The text of a value for people: quoted strings, capitalised truth values, `None` for null, brackets
around items and braces around fields, and for things of other types their type and place. An integer
with too many digits has no text, nor has a value that is nested too deeply.

* `Value.display` — the text of a value;
* `Value.unshowable?` — why a value has no text, if it has none.
-/

namespace DecisionFlow.Value

/-- The text of a scalar. -/
def displayScalar : Scalar → String
  | .boolean true => "True"
  | .boolean false => "False"
  | .number n => n.render .display
  | .string s => Text.quoted s

mutual

/-- The text of a value. -/
def display : Value → String
  | null => "None"
  | scalar s => displayScalar s
  | list items => "[" ++ ", ".intercalate (displayItems items) ++ "]"
  | object fields => "\x7b" ++ ", ".intercalate (displayFields fields) ++ "\x7d"
  | foreign type place => foreignText type place

/-- The texts of items. -/
def displayItems : List Value → List String
  | [] => []
  | item :: more => display item :: displayItems more

/-- The texts of fields. -/
def displayFields : List (String × Value) → List String
  | [] => []
  | (name, value) :: more => (Text.quoted name ++ ": " ++ display value) :: displayFields more

end

/-- Why a value has no text. -/
inductive Unshowable where
  /-- The value is nested too deeply. -/
  | tooDeep
  /-- An integer in it has too many digits. -/
  | numeralTooLong
deriving DecidableEq, Repr

/-- The message for a value that has no text. -/
def Unshowable.message : Unshowable → String
  | tooDeep => tooDeepMessage
  | numeralTooLong => Numeral.tooLongMessage

mutual

/-- What keeps a value from being shown within the given depth, if anything does: of several things,
the first. -/
def unshowable? : Nat → Value → Option Unshowable
  | 0, _ => some .tooDeep
  | _ + 1, null => none
  | _ + 1, scalar (.number n) => if n.isTooLong then some .numeralTooLong else none
  | _ + 1, scalar _ => none
  | depth + 1, list items => unshowableItems? depth items
  | depth + 1, object fields => unshowableFields? depth fields
  | _ + 1, foreign _ _ => none

/-- What keeps items from being shown. -/
def unshowableItems? : Nat → List Value → Option Unshowable
  | _, [] => none
  | depth, item :: more => (unshowable? depth item).or (unshowableItems? depth more)

/-- What keeps fields from being shown. -/
def unshowableFields? : Nat → List (String × Value) → Option Unshowable
  | _, [] => none
  | depth, (_, value) :: more => (unshowable? depth value).or (unshowableFields? depth more)

end

example : display (.object [("k", .list [.null, .boolean true, .string "a"])])
    = "\x7b'k': [None, True, 'a']\x7d" := by decide +kernel

end DecisionFlow.Value
