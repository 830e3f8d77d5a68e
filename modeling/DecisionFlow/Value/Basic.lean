import DecisionFlow.Number.Basic

/-!
# Values

The data that requests carry and variables hold: null, scalars, lists and objects, and in variables also
things of other types. Only scalars take part in conditions, and each scalar has one of three kinds.

* `Scalar`, `Kind`, `Scalar.kind` — booleans, numbers and strings;
* `Value` — scalars, null, lists, objects with their fields in order, and everything else, by its type
  and its place in memory;
* `Value.isTruthy` — whether a value counts as given;
* `Value.same` — structural equality, decided; it is equality (`eq_of_same`, `same_self`).
-/

namespace DecisionFlow

/-- A value that conditions can compute with. -/
inductive Scalar where
  /-- A truth value. -/
  | boolean (b : Bool)
  /-- A number. -/
  | number (n : Number)
  /-- A string. -/
  | string (s : String)
deriving DecidableEq, Repr

/-- The kind of a scalar. Scalars of different kinds are never compared. -/
inductive Kind where
  /-- Truth values. -/
  | boolean
  /-- Numbers, integers and doubles alike. -/
  | number
  /-- Strings. -/
  | string
deriving DecidableEq, Repr

/-- The name of a kind in messages. -/
def Kind.text : Kind → String
  | boolean => "boolean"
  | number => "number"
  | string => "string"

/-- The kind of a scalar. -/
def Scalar.kind : Scalar → Kind
  | boolean _ => .boolean
  | number _ => .number
  | string _ => .string

/-- Any datum of a request or a variable. -/
inductive Value where
  /-- The absent value. -/
  | null
  /-- A truth value, a number or a string. -/
  | scalar (s : Scalar)
  /-- A list. -/
  | list (items : List Value)
  /-- An object: named fields in order. -/
  | object (fields : List (String × Value))
  /-- A thing of any other type, or one that may be changed where it stands: it is known by the name of
  its type and by its place. -/
  | foreign (type : String) (place : Nat)
deriving Repr

namespace Value

instance : Inhabited Value := ⟨.null⟩

/-- A truth value. -/
abbrev boolean (b : Bool) : Value := .scalar (.boolean b)

/-- A number. -/
abbrev number (n : Number) : Value := .scalar (.number n)

/-- An integer. -/
abbrev integer (n : Int) : Value := .scalar (.number (.integer n))

/-- A double. -/
abbrev double (x : Double) : Value := .scalar (.number (.double x))

/-- A string. -/
abbrev string (s : String) : Value := .scalar (.string s)

/-- The name of a value's type in messages. -/
def typeName : Value → String
  | null => "NoneType"
  | scalar (.boolean _) => "bool"
  | scalar (.number (.integer _)) => "int"
  | scalar (.number (.double _)) => "float"
  | scalar (.string _) => "str"
  | list _ => "list"
  | object _ => "dict"
  | foreign type _ => type

/-- The text of a thing of another type. -/
def foreignText (type : String) (place : Nat) : String :=
  "<" ++ type ++ " object at 0x" ++ String.ofList (Nat.toDigits 16 place) ++ ">"

/-- Whether a value counts as given: null, `false`, zero and everything empty do not. -/
def isTruthy : Value → Bool
  | null => false
  | scalar (.boolean b) => b
  | scalar (.number n) => !n.isZero
  | scalar (.string s) => !s.isEmpty
  | list items => !items.isEmpty
  | object fields => !fields.isEmpty
  | foreign _ _ => true

/-- The fields of an object. -/
def fields? : Value → Option (List (String × Value))
  | object fields => some fields
  | _ => none

/-- The text of a string. -/
def text? : Value → Option String
  | scalar (.string s) => some s
  | _ => none

/-! ### Equality -/

mutual

/-- Structural equality of values, by recursion on the tree. -/
def same : Value → Value → Bool
  | null, null => true
  | scalar s, scalar t => s = t
  | list xs, list ys => sameItems xs ys
  | object fs, object gs => sameFields fs gs
  | foreign s m, foreign t n => s = t && m = n
  | _, _ => false

/-- Structural equality of the items of lists. -/
def sameItems : List Value → List Value → Bool
  | [], [] => true
  | x :: xs, y :: ys => same x y && sameItems xs ys
  | _, _ => false

/-- Structural equality of the fields of objects, in order. -/
def sameFields : List (String × Value) → List (String × Value) → Bool
  | [], [] => true
  | (k, x) :: fs, (l, y) :: gs => k = l && same x y && sameFields fs gs
  | _, _ => false

end

mutual

theorem eq_of_same : ∀ {v w : Value}, same v w = true → v = w
  | null, null, _ => rfl
  | scalar _, scalar _, h => by simpa [same] using h
  | list xs, list ys, h => by
    have hitems : sameItems xs ys = true := by simpa [same] using h
    rw [eq_of_sameItems hitems]
  | object fs, object gs, h => by
    have hfields : sameFields fs gs = true := by simpa [same] using h
    rw [eq_of_sameFields hfields]
  | foreign s m, foreign t n, h => by
    obtain ⟨rfl, rfl⟩ : s = t ∧ m = n := by simpa [same] using h
    rfl
  | null, scalar _, h | null, list _, h | null, object _, h | null, foreign _ _, h
  | scalar _, null, h | scalar _, list _, h | scalar _, object _, h | scalar _, foreign _ _, h
  | list _, null, h | list _, scalar _, h | list _, object _, h | list _, foreign _ _, h
  | object _, null, h | object _, scalar _, h | object _, list _, h | object _, foreign _ _, h
  | foreign _ _, null, h | foreign _ _, scalar _, h | foreign _ _, list _, h
  | foreign _ _, object _, h => by simp [same] at h

theorem eq_of_sameItems : ∀ {xs ys : List Value}, sameItems xs ys = true → xs = ys
  | [], [], _ => rfl
  | x :: xs, y :: ys, h => by
    simp only [sameItems, Bool.and_eq_true] at h
    rw [eq_of_same h.1, eq_of_sameItems h.2]
  | [], _ :: _, h | _ :: _, [], h => by simp [sameItems] at h

theorem eq_of_sameFields :
    ∀ {fs gs : List (String × Value)}, sameFields fs gs = true → fs = gs
  | [], [], _ => rfl
  | (k, x) :: fs, (l, y) :: gs, h => by
    simp only [sameFields, Bool.and_eq_true, decide_eq_true_eq] at h
    rw [h.1.1, eq_of_same h.1.2, eq_of_sameFields h.2]
  | [], _ :: _, h | _ :: _, [], h => by simp [sameFields] at h

end

mutual

theorem same_self : ∀ v : Value, same v v = true
  | null => rfl
  | scalar _ => by simp [same]
  | list xs => by simp [same, sameItems_self xs]
  | object fs => by simp [same, sameFields_self fs]
  | foreign _ _ => by simp [same]

theorem sameItems_self : ∀ xs : List Value, sameItems xs xs = true
  | [] => rfl
  | x :: xs => by simp [sameItems, same_self x, sameItems_self xs]

theorem sameFields_self : ∀ fs : List (String × Value), sameFields fs fs = true
  | [] => rfl
  | (_, x) :: fs => by simp [sameFields, same_self x, sameFields_self fs]

end

instance : DecidableEq Value := fun v w =>
  if h : same v w = true then isTrue (eq_of_same h)
  else isFalse fun e => h (e ▸ same_self v)

end Value

end DecisionFlow
