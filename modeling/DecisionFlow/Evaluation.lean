import DecisionFlow.Event

/-!
# Evaluating conditions

Whoever evaluates a condition is told whether it holds.  That something went wrong with the text is no
reason to fail: the condition does not hold, and a line in the trail says why.  Only that line can fail:
there may be no depth left for it, and where it is written it may not be taken.

* `Sink` — what lines are written to;
* `ReportFailure` — why an event is not reported;
* `Event.reportTo` — one event;
* `Condition.evaluate` — the decision of a text, with what went wrong reported.
-/

namespace DecisionFlow

/-- What lines are written to: for each line the reason why it is not taken, if it is not. -/
abbrev Sink := String → Option String

/-- The sink that takes every line. -/
def Sink.standard : Sink := fun _ => none

/-- Why an event is not reported. -/
inductive ReportFailure where
  /-- No depth is left for the report. -/
  | tooDeep
  /-- The line is not taken. -/
  | refused (reason : String)
deriving DecidableEq, Repr

/-- The message of a failure to report. -/
def ReportFailure.message : ReportFailure → String
  | tooDeep => tooDeepMessage
  | refused reason => reason

/-- Reports an event, which costs depth. -/
def Event.reportTo (sink : Sink) (depth : Nat) (event : Event) : Except ReportFailure Unit :=
  if depth < Depth.report then .error .tooDeep
  else
    match sink event.line with
    | none => .ok ()
    | some reason => .error (.refused reason)

/-- Whether a condition holds, once what went wrong with it has been reported. -/
def Condition.evaluate (sink : Sink) (depth : Nat) (text : String) (vars : Variables) :
    Except ReportFailure Decision :=
  let decision := decision depth text vars
  match decision.event? text with
  | none => .ok decision
  | some event => (event.reportTo sink depth).map fun _ => decision

end DecisionFlow
