import DecisionFlow.Value.Basic

/-!
# Actions

An action is the executable form of a decision tree. Beside the five forms that trees compile to there
are four that are only ever built by hand: they change a variable, fail, or do nothing.

* `Action` — the forms of actions;
* `ActionKind`, `Action.kind?` — the kinds by which executors tell actions apart;
* `Action.chain` — the members of a sequence.
-/

namespace DecisionFlow

/-- An executable decision tree. -/
inductive Action where
  /-- Nothing: an action that is not there, as a branch or a body that is left out. -/
  | absent
  /-- Send a text message. -/
  | sms (phoneNumber : String)
  /-- Send an e-mail. -/
  | email (sender receiver : String)
  /-- Decide between two branches. -/
  | condition (expression : String) (whenTrue whenFalse : Action)
  /-- Run the body a number of times; a negative number counts as zero. -/
  | loop (count : Int) (body : Action)
  /-- Run one action and then another. -/
  | sequence (first next : Action)
  /-- Assign a variable. -/
  | assign (name : String) (value : Value)
  /-- Add a number to a variable, which counts as zero if it is not there. -/
  | increase (name : String) (amount : Number)
  /-- Fail with a message. -/
  | fail (message : String)
  /-- Do nothing. -/
  | skip
deriving DecidableEq, Repr

instance : Inhabited Action := ⟨.absent⟩

/-- The kinds of actions. -/
inductive ActionKind where
  /-- Text messages. -/
  | sms
  /-- E-mails. -/
  | email
  /-- Conditions. -/
  | condition
  /-- Loops. -/
  | loop
  /-- Sequences. -/
  | sequence
  /-- Assignments. -/
  | assign
  /-- Additions to a variable. -/
  | increase
  /-- Failures. -/
  | fail
  /-- Actions that do nothing. -/
  | skip
deriving DecidableEq, Repr

/-- The name of a kind. -/
def ActionKind.text : ActionKind → String
  | sms => "sms"
  | email => "email"
  | condition => "condition"
  | loop => "loop"
  | sequence => "sequential"
  | assign => "set"
  | increase => "add"
  | fail => "fail"
  | skip => "skip"

/-- The kind with the given name. -/
def ActionKind.ofText? (name : String) : Option ActionKind :=
  [sms, email, condition, loop, sequence, assign, increase, fail, skip].find? (·.text = name)

namespace Action

/-- The kind of an action that is there. -/
def kind? : Action → Option ActionKind
  | absent => none
  | sms _ => some .sms
  | email _ _ => some .email
  | condition _ _ _ => some .condition
  | loop _ _ => some .loop
  | sequence _ _ => some .sequence
  | assign _ _ => some .assign
  | increase _ _ => some .increase
  | fail _ => some .fail
  | skip => some .skip

/-- Whether there is anything to run. -/
def isPresent (a : Action) : Bool := a.kind?.isSome

/-- The members of a sequence in order; a sequence that stands first is one member. -/
def chain : Action → List Action
  | sequence first next => first :: next.chain
  | a => [a]

/-- An action and what comes after it, if anything does. -/
def andNext (first : Action) : Action → Action
  | absent => first
  | next => sequence first next

end Action

end DecisionFlow
