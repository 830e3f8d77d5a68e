import DecisionFlow.Condition
import DecisionFlow.Json.Writer

/-!
# Events of a run

What a run reports, one line an event: a title and, for most events, details as an object on the same
line.

* `Event` — the events;
* `Event.title`, `Event.details?` — the two parts of a line;
* `Event.line` — the line.
-/

namespace DecisionFlow

/-- Something that a run reports. -/
inductive Event where
  /-- A text message was sent. -/
  | smsSent (phoneNumber : String)
  /-- An e-mail was sent. -/
  | emailSent (sender receiver : String)
  /-- A condition has no truth value. -/
  | conditionFailed (expression : String) (cause : Bounded ConditionError)
  /-- A condition was decided. -/
  | conditionDecided (expression : String) (result : Bool)
  /-- A loop begins. -/
  | loopStarted (count : Int)
  /-- A loop ends at once, for it has no body. -/
  | loopSkipped
  /-- A loop runs its body once more. -/
  | iteration (number total : Int)
  /-- A loop has ended. -/
  | loopCompleted (total : Int)
deriving DecidableEq, Repr

namespace Event

/-- The title of an event. -/
def title : Event → String
  | smsSent _ => "SendSmsAction: Sending SMS"
  | emailSent _ _ => "SendEmailAction: Sending Email"
  | conditionFailed _ _ => "ConditionAction: Error evaluating expression"
  | conditionDecided _ _ => "ConditionAction: Evaluating expression"
  | loopStarted _ => "LoopAction: Starting loop"
  | loopSkipped => "LoopAction: No subtree provided, skipping"
  | iteration _ _ => "LoopAction: Iteration"
  | loopCompleted _ => "LoopAction: Loop completed"

/-- The details of an event. -/
def details? : Event → Option (Entries Value)
  | smsSent phoneNumber => some [("phoneNumber", .string phoneNumber)]
  | emailSent sender receiver => some [("sender", .string sender), ("receiver", .string receiver)]
  | conditionFailed expression cause =>
    some [("expression", .string expression), ("error", .string (cause.message ConditionError.message))]
  | conditionDecided expression result =>
    some [("expression", .string expression), ("result", .boolean result)]
  | loopStarted count => some [("count", .integer count)]
  | loopSkipped => none
  | iteration number total => some [("iteration", .integer number), ("of", .integer total)]
  | loopCompleted total => some [("totalIterations", .integer total)]

/-- The line of an event. -/
def line (event : Event) : String :=
  match event.details? with
  | none => event.title
  | some fields => event.title ++ " " ++ Json.render (.object fields)

example : (iteration 1 2).line = "LoopAction: Iteration \x7b\"iteration\": 1, \"of\": 2\x7d" := by
  decide +kernel

end Event

/-- The event of a decision that went wrong, if it did. -/
def Decision.event? (decision : Decision) (expression : String) : Option Event :=
  decision.failure.map (Event.conditionFailed expression)

end DecisionFlow
