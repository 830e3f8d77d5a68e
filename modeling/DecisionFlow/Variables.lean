import DecisionFlow.Entries
import DecisionFlow.Value.Display

/-!
# Variables

The store that the actions of one run share: names with values, in order of first assignment, each
name once.

* `Variables` — the store;
* `Variables.set`, `Variables.get?` — assignment and look-up;
* `Variables.unshowable?` — what keeps the variables from being shown, if anything does.
-/

namespace DecisionFlow

/-- Variables in order of first assignment. -/
structure Variables where
  /-- The names and their values, in order. -/
  entries : Entries Value
  /-- No name occurs twice. -/
  nodup_keys : (Entries.keys entries).Nodup

namespace Variables

/-- No variables. -/
def empty : Variables := ⟨[], by simp⟩

instance : EmptyCollection Variables := ⟨empty⟩

instance : Inhabited Variables := ⟨empty⟩

/-- Assigns a variable: in place if it is there, last if it is new. -/
def set (vars : Variables) (name : String) (value : Value) : Variables :=
  ⟨vars.entries.insert name value, Entries.nodup_keys_insert vars.nodup_keys⟩

/-- The variables after the given assignments, in turn, to none. -/
def ofList (pairs : List (String × Value)) : Variables :=
  ⟨Entries.ofList pairs, Entries.nodup_keys_ofList pairs⟩

/-- The value of a variable. A variable that holds null is there. -/
def get? (vars : Variables) (name : String) : Option Value := vars.entries.lookup name

/-- Whether a variable has been assigned. -/
def contains (vars : Variables) (name : String) : Bool := (vars.get? name).isSome

/-- The number of variables. -/
def size (vars : Variables) : Nat := vars.entries.length

/-- The variables in order. -/
def toList (vars : Variables) : List (String × Value) := vars.entries

/-- What keeps variables from being shown within the given depth, if anything does: of several things,
the first. -/
def unshowable? (depth : Nat) (vars : Variables) : Option Value.Unshowable :=
  Value.unshowableFields? depth vars.toList

end Variables

end DecisionFlow
