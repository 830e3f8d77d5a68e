import DecisionFlow.Action.Basic
import DecisionFlow.Event

/-!
# Runs of actions

A run changes variables, reports events and may fail; after a failure nothing more happens. An action
never runs the actions inside it by itself: it hands them to the executor, which may keep a record of
them and may hold some of them back.

* `Run` — a run so far;
* `Executor` — what is done with an action that is handed over;
* `Action.run` — an action on a run so far;
* `Action.execute` — an action from the beginning.
-/

namespace DecisionFlow

/-- Why a run ends early. -/
inductive RunFailure where
  /-- An action fails by its own will. -/
  | raised (message : String)
  /-- Nothing can be added to what a variable holds. -/
  | notAddable (held : Value) (amount : Number)
  /-- A sum of an integer and a double is asked for, and the integer is beyond the doubles. -/
  | beyondDoubles
  /-- The count of a loop has too many digits to be reported. -/
  | countTooLong
  /-- An action that is not there is to be run. -/
  | nothingToRun
  /-- An action is to be recorded with variables that cannot be shown. -/
  | unrecordable (e : Value.Unshowable)
  /-- Too many actions wait for one another. -/
  | tooDeep
deriving DecidableEq, Repr

/-- The message of a failure. -/
def RunFailure.message : RunFailure → String
  | raised message => message
  | notAddable held amount =>
    let left := held.typeName
    let right := (Value.number amount).typeName
    if left = "str" ∨ left = "list" then
      "can only concatenate " ++ left ++ " (not \"" ++ right ++ "\") to " ++ left
    else "unsupported operand type(s) for +: '" ++ left ++ "' and '" ++ right ++ "'"
  | beyondDoubles => "int too large to convert to float"
  | countTooLong => Numeral.tooLongMessage
  | nothingToRun => "'NoneType' object has no attribute 'execute'"
  | unrecordable e => e.message
  | tooDeep => tooDeepMessage

/-- An action handed to the executor, with the variables at that moment. -/
structure Call where
  /-- The action. -/
  action : Action
  /-- The variables before the action. -/
  vars : Variables
  /-- Only an action that is there is recorded. -/
  isPresent : action.isPresent = true

/-- The kind of the action that was handed over. -/
def Call.kind (call : Call) : ActionKind := call.action.kind?.get call.isPresent

/-- A run so far. -/
structure Run where
  /-- The variables. -/
  vars : Variables
  /-- The events in order. -/
  trail : Array Event
  /-- The recorded actions in order. -/
  calls : Array Call
  /-- The failure that ended the run, if it has failed. -/
  failure : Option RunFailure

namespace Run

/-- A run that begins with the given variables. -/
def start (vars : Variables) : Run := ⟨vars, #[], #[], none⟩

/-- One more thing that happens, unless the run has failed. -/
def proceed (happen : Run → Run) (r : Run) : Run :=
  match r.failure with
  | none => happen r
  | some _ => r

/-- Reports an event. -/
def report (event : Event) : Run → Run := proceed fun r => { r with trail := r.trail.push event }

/-- Reports an event if there is one. -/
def report? : Option Event → Run → Run
  | some event, r => r.report event
  | none, r => r

/-- Records an action that is handed over, with the variables. If a depth is given, they have to be
showable within it. -/
def record (shownWithin : Option Nat) (a : Action) (h : a.isPresent = true) : Run → Run :=
  proceed fun r =>
    match shownWithin.bind r.vars.unshowable? with
    | none => { r with calls := r.calls.push ⟨a, r.vars, h⟩ }
    | some e => { r with failure := some (.unrecordable e) }

/-- Assigns a variable. -/
def assign (name : String) (value : Value) : Run → Run :=
  proceed fun r => { r with vars := r.vars.set name value }

/-- Fails. -/
def fail (cause : RunFailure) : Run → Run := proceed fun r => { r with failure := some cause }

/-- The number to which an amount is added: zero for a variable that is not there, and one or zero
for a truth value. -/
def summand (amount : Number) : Option Value → Except RunFailure Number
  | none => .ok (.integer 0)
  | some (.scalar (.number n)) => .ok n
  | some (.scalar (.boolean b)) => .ok (.integer (if b then 1 else 0))
  | some held => .error (.notAddable held amount)

/-- The number that a variable holds after an addition. -/
def sum (held : Option Value) (amount : Number) : Except RunFailure Number :=
  match summand amount held with
  | .error cause => .error cause
  | .ok n =>
    match n.add? amount with
    | some total => .ok total
    | none => .error .beyondDoubles

/-- Adds a number to a variable. -/
def increase (name : String) (amount : Number) : Run → Run :=
  proceed fun r =>
    match sum (r.vars.get? name) amount with
    | .ok total => r.assign name (.number total)
    | .error cause => r.fail cause

/-- Repeats a body with a line before each time, the given number of times, or until it fails. -/
def repeated (total : Int) (body : Run → Run) : Nat → Run → Run
  | 0, r => r
  | remaining + 1, r =>
    match r.failure with
    | some _ => r
    | none => repeated total body remaining (body (r.report (.iteration (total - remaining) total)))

end Run

/-- What is done with an action that is handed over. -/
inductive Executor where
  /-- It is run. -/
  | plain
  /-- It is recorded and, unless it is of a blocked kind, run. A record that will be shown within a
  certain depth takes only what can be shown there. -/
  | recording (blocked : List ActionKind) (shownWithin : Option Nat)
deriving DecidableEq, Repr

namespace Executor

/-- The run after the executor has taken note of an action, if the action is there. -/
def note (a : Action) : Executor → Run → Run
  | plain, r => r
  | recording _ shownWithin, r => if h : a.isPresent = true then r.record shownWithin a h else r

/-- Whether an executor holds back an action, for its kind. An action that is not there has no kind
and is never held back. -/
def holdsBack (a : Action) : Executor → Bool
  | plain => false
  | recording blocked _ =>
    match a.kind? with
    | some kind => blocked.contains kind
    | none => false

/-- An action is handed over, which costs depth. -/
def delegate (executor : Executor) (a : Action) (perform : Nat → Run → Run)
    (depth : Nat) (r : Run) : Run :=
  let noted := executor.note a r
  if executor.holdsBack a then noted
  else
    match Depth.take? Depth.delegation depth with
    | some depth => perform depth noted
    | none => noted.fail .tooDeep

/-- An action that may be left out is handed over if it is there. -/
def delegateIfPresent (executor : Executor) (a : Action) (perform : Nat → Run → Run)
    (depth : Nat) (r : Run) : Run :=
  if a.isPresent then executor.delegate a perform depth r else r

end Executor

namespace Action

/-- Whether an action is a sequence. -/
def isSequence (a : Action) : Bool := a.kind? = some .sequence

/-- An action on a run so far, within the given depth. Branches and bodies may be left out, the two
members of a sequence may not. A sequence hands over its members one by one: its own rest, if that is
a sequence, is no member. -/
def run (executor : Executor) : Action → Nat → Run → Run
  | absent, _, r => r.fail .nothingToRun
  | sms phoneNumber, _, r => r.report (.smsSent phoneNumber)
  | email sender receiver, _, r => r.report (.emailSent sender receiver)
  | condition expression whenTrue whenFalse, depth, r =>
    let decision := Condition.decision depth expression r.vars
    let decided := (r.report? (decision.event? expression)).report
      (.conditionDecided expression decision.holds)
    if decision.holds then
      executor.delegateIfPresent whenTrue (fun depth r => whenTrue.run executor depth r) depth decided
    else
      executor.delegateIfPresent whenFalse (fun depth r => whenFalse.run executor depth r) depth
        decided
  | loop count body, depth, r =>
    if Numeral.isTooLong count then r.fail .countTooLong
    else
      let started := r.report (.loopStarted count)
      if body.isPresent then
        let iterated := Run.repeated count
          (executor.delegate body (fun depth r => body.run executor depth r) depth) count.toNat
          started
        iterated.report (.loopCompleted count)
      else started.report .loopSkipped
  | sequence first next, depth, r =>
    let after := executor.delegate first (fun depth r => first.run executor depth r) depth r
    if next.isSequence then next.run executor depth after
    else executor.delegate next (fun depth r => next.run executor depth r) depth after
  | assign name value, _, r => r.assign name value
  | increase name amount, _, r => r.increase name amount
  | fail message, _, r => r.fail (.raised message)
  | skip, _, r => r

/-- An action from the beginning, within the given depth and on the given variables. It is started
directly, so neither recorded nor held back. -/
def execute (depth : Nat) (executor : Executor) (a : Action) (vars : Variables) : Run :=
  a.run executor depth (Run.start vars)

end Action

end DecisionFlow
