import DecisionFlow.Action.Compile
import DecisionFlow.Action.Run

/-!
# Executing a tree on request

A payload passes three gates before anything runs: it has to be an object with a type, to compile, and
to have an action. Only then is the action run, once, on no variables, by whatever performer the
service is given.

* `Verdict` — how a request ends;
* `LogEntry` — what the server logs on the way;
* `Execution.ofPayload` — the verdict, the events and the log of a payload.
-/

namespace DecisionFlow

/-- How a request to execute a tree ends. -/
inductive Verdict where
  /-- The payload is no object with a type. -/
  | invalidBody
  /-- The payload describes no valid tree. -/
  | invalidTree (e : TreeError)
  /-- The tree is nested too deeply to be compiled or run. -/
  | tooDeep
  /-- The tree has no action. -/
  | noAction
  /-- The run failed. -/
  | failed (cause : RunFailure)
  /-- The run completed with the given variables. -/
  | completed (vars : Variables)

namespace Verdict

/-- The verdict on a payload that does not compile. -/
def ofTreeError : Bounded TreeError → Verdict
  | .tooDeep => tooDeep
  | .because e => invalidTree e

/-- The verdict on a run. -/
def ofRun (r : Run) : Verdict :=
  match r.failure with
  | none => completed r.vars
  | some .tooDeep => tooDeep
  | some cause => failed cause

/-- The status of the answer. -/
def status : Verdict → Nat
  | invalidBody => 400
  | invalidTree _ => 422
  | tooDeep => 422
  | noAction => 400
  | failed _ => 500
  | completed _ => 200

/-- The text for a verdict other than success. -/
def detail? : Verdict → Option String
  | invalidBody => some "Invalid request body. Expected an ActionNode with a 'type' property."
  | invalidTree e => some e.message
  | tooDeep => some "Decision tree is nested too deeply."
  | noAction => some "Failed to create action from the provided decision tree."
  | failed cause => some ("An error occurred while executing the decision tree: " ++ cause.message)
  | completed _ => none

end Verdict

/-- An entry of the server's log. -/
inductive LogEntry where
  /-- A request has come in. -/
  | received (payload : Value)
  /-- A node has an unknown type. -/
  | unknownType (notice : UnknownType)
  /-- An action is about to run. -/
  | executing
  /-- A run failed. -/
  | runFailed (cause : RunFailure)
  /-- A run completed. -/
  | completed
deriving DecidableEq, Repr

/-- The text of a log entry, which may be of several lines. -/
def LogEntry.text : LogEntry → String
  | received payload => "\n=== NEW REQUEST RECEIVED ===\nRequest body: " ++ Json.render payload
  | unknownType notice => notice.message
  | executing => "Executing decision tree..."
  | runFailed .tooDeep => "Error executing decision tree: nesting too deep"
  | runFailed cause => "Error executing decision tree: " ++ cause.message
  | completed => "=== EXECUTION COMPLETE ==="

/-- What comes of a payload. -/
structure Execution where
  /-- How the request ends. -/
  verdict : Verdict
  /-- The events of the run, if there was one. -/
  trail : Array Event
  /-- The log in order. -/
  log : List LogEntry

namespace Execution

/-- Whether a payload is an object with a type that counts as given. -/
def hasType (payload : Value) : Bool :=
  match payload with
  | .object fields => ((fields.lookup "type").getD .null).isTruthy
  | _ => false

/-- The execution of an action, after the given log. -/
def ofRun (r : Run) (log : List LogEntry) : Execution where
  verdict := .ofRun r
  trail := r.trail
  log := log ++ [.executing,
    match r.failure with
    | none => .completed
    | some cause => .runFailed cause]

/-- The execution of a payload by a performer. -/
def ofPayload (depth : Nat) (logRequests : Bool) (perform : Action → Variables → Run)
    (payload : Value) : Execution :=
  let received := if logRequests then [.received payload] else []
  if hasType payload then
    let compiled := compileValue depth payload
    let log := received ++ compiled.notices.map .unknownType
    match compiled.result with
    | .error e => ⟨.ofTreeError e, #[], log⟩
    | .ok .absent => ⟨.noAction, #[], log⟩
    | .ok a => ofRun (perform a ∅) log
  else ⟨.invalidBody, #[], received⟩

end Execution

end DecisionFlow
