import DecisionFlow.Action.Basic

/-!
# Assemblies

An action may be made of other actions that exist already. Its assembly tells which of its parts
came about in this way: they carry the serial number under which they were made, and parts of one
number are one and the same part, used in several places.

* `Assembly` — an action with the numbers of its parts;
* `Assembly.action`, `Assembly.ofAction` — the action of an assembly, and the assembly of an action
  that is made in one piece;
* `Assembly.numbered` — an assembly as a part of its own;
* `Assembly.Respects` — that parts of one number are one part.
-/

namespace DecisionFlow

/-- An action as it is put together. -/
inductive Assembly where
  /-- An action that has no actions inside it. -/
  | leaf (a : Action)
  /-- A condition with two branches. -/
  | condition (expression : String) (whenTrue whenFalse : Assembly)
  /-- A loop with a body. -/
  | loop (count : Int) (body : Assembly)
  /-- Two actions in order. -/
  | sequence (first next : Assembly)
  /-- A part with its serial number. -/
  | part (serial : Nat) (inside : Assembly)

namespace Assembly

/-- The action of an assembly. -/
def action : Assembly → Action
  | leaf a => a
  | condition expression whenTrue whenFalse =>
    .condition expression whenTrue.action whenFalse.action
  | loop count body => .loop count body.action
  | sequence first next => .sequence first.action next.action
  | part _ inside => inside.action

/-- The assembly of an action that is made in one piece. -/
def ofAction : Action → Assembly
  | .condition expression whenTrue whenFalse =>
    condition expression (ofAction whenTrue) (ofAction whenFalse)
  | .loop count body => loop count (ofAction body)
  | .sequence first next => sequence (ofAction first) (ofAction next)
  | a => leaf a

/-- The serial number of an assembly, if it is a part. -/
def serial? : Assembly → Option Nat
  | part serial _ => some serial
  | _ => none

/-- An assembly as a part, which keeps the number that it has or else gets the given one. -/
def numbered (serial : Nat) (assembly : Assembly) : Assembly :=
  match assembly.serial? with
  | some _ => assembly
  | none => part serial assembly

/-- An assembly without its own number. -/
def uncovered : Assembly → Assembly
  | part _ inside => inside.uncovered
  | assembly => assembly

/-- The parts of an assembly are the actions of their numbers. -/
def Respects (actions : Nat → Action) : Assembly → Prop
  | leaf _ => True
  | condition _ whenTrue whenFalse => whenTrue.Respects actions ∧ whenFalse.Respects actions
  | loop _ body => body.Respects actions
  | sequence first next => first.Respects actions ∧ next.Respects actions
  | part serial inside => inside.action = actions serial ∧ inside.Respects actions

theorem action_ofAction (a : Action) : (ofAction a).action = a := by
  induction a with
  | condition _ _ _ iht ihf => simp [ofAction, action, iht, ihf]
  | loop _ _ ih => simp [ofAction, action, ih]
  | sequence _ _ ihf ihn => simp [ofAction, action, ihf, ihn]
  | _ => rfl

theorem respects_ofAction (actions : Nat → Action) (a : Action) :
    (ofAction a).Respects actions := by
  induction a with
  | condition _ _ _ iht ihf => exact ⟨iht, ihf⟩
  | loop _ _ ih => exact ih
  | sequence _ _ ihf ihn => exact ⟨ihf, ihn⟩
  | _ => trivial

theorem action_numbered (serial : Nat) (assembly : Assembly) :
    (assembly.numbered serial).action = assembly.action := by
  unfold numbered
  split <;> rfl

theorem action_uncovered (assembly : Assembly) : assembly.uncovered.action = assembly.action := by
  induction assembly with
  | part _ _ ih => exact ih
  | _ => rfl

theorem Respects.uncovered {actions : Nat → Action} {assembly : Assembly}
    (h : assembly.Respects actions) : assembly.uncovered.Respects actions := by
  induction assembly with
  | part _ _ ih => exact ih h.2
  | _ => exact h

theorem Respects.action_eq {actions : Nat → Action} {assembly : Assembly} {serial : Nat}
    (h : assembly.Respects actions) (hserial : assembly.serial? = some serial) :
    assembly.action = actions serial := by
  cases assembly with
  | part _ _ =>
    cases hserial
    exact h.1
  | _ => cases hserial

end Assembly

end DecisionFlow
