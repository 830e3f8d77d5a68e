import DecisionFlow.Action.Compare
import DecisionFlow.Action.Compile
import DecisionFlow.Action.Run
import DecisionFlow.Evaluation
import DecisionFlow.Value.Display

/-!
# Sessions

A session holds named contexts, each with variables of its own, and named actions, which may be run on
any context. Commands are answered one after the other. One that cannot be obeyed changes nothing but
what a failing run has already assigned; one that has been obeyed but whose outcome cannot be shown
is answered by the reason for that.

* `Blueprint` — an action built by hand, which may refer to named actions;
* `Command`, `Outcome`, `SessionError` — what is asked, and what comes of it;
* `Session.answer` — one command; `Session.answer_eq` is about the session after it;
* `Session.answers`, `Session.after` — the replies to a list of commands, and the session after it.
-/

namespace DecisionFlow

/-- A plan of an action. -/
inductive Blueprint where
  /-- An action as it is. -/
  | plain (a : Action)
  /-- A condition with two branches. -/
  | condition (expression : String) (whenTrue whenFalse : Blueprint)
  /-- A loop with a body. -/
  | loop (count : Int) (body : Blueprint)
  /-- Two actions in order. -/
  | sequence (first next : Blueprint)
  /-- The action of a name. -/
  | named (name : String)

instance : Inhabited Blueprint := ⟨.plain .absent⟩

/-- Why a command fails. -/
inductive SessionError where
  /-- There is no context of the name. -/
  | unknownContext (name : String)
  /-- There is no action of the name. -/
  | unknownAction (name : String)
  /-- A view of variables is for reading only. -/
  | readOnlyView
  /-- A variable holds what has no text. -/
  | notShowable (e : Value.Unshowable)
  /-- A plan, or two actions to be compared, are nested too deeply. -/
  | tooDeep
  /-- The tree has no action. -/
  | uncompilable (e : Bounded TreeError)
  /-- What went wrong with a condition cannot be reported. -/
  | unreportable (e : ReportFailure)
deriving DecidableEq, Repr

/-- The message of a session error. -/
def SessionError.message : SessionError → String
  | unknownContext name => Text.quoted name
  | unknownAction name => Text.quoted name
  | readOnlyView => "'mappingproxy' object does not support item assignment"
  | notShowable e => e.message
  | tooDeep => tooDeepMessage
  | uncompilable e => e.message TreeError.message
  | unreportable e => e.message

/-- What a plan comes to, given the named actions. Every plan inside another costs one of the
depth. -/
def Blueprint.assemble (actions : Entries Assembly) :
    Nat → Blueprint → Except SessionError Assembly
  | 0, _ => .error .tooDeep
  | _ + 1, plain a => .ok (.ofAction a)
  | depth + 1, condition expression whenTrue whenFalse => do
    return .condition expression (← whenTrue.assemble actions depth)
      (← whenFalse.assemble actions depth)
  | depth + 1, loop count body => do return .loop count (← body.assemble actions depth)
  | depth + 1, sequence first next => do
    return .sequence (← first.assemble actions depth) (← next.assemble actions depth)
  | _ + 1, named name =>
    match actions.lookup name with
    | some assembly => .ok assembly
    | none => .error (.unknownAction name)

/-- A command of a session. -/
inductive Command where
  /-- Begin a context with the given variables, in place of any of that name. -/
  | create (context : String) (vars : Variables)
  /-- Assign a variable. -/
  | assign (context name : String) (value : Value)
  /-- Look up a variable, with a value for one that is not there. -/
  | get (context name : String) (default : Value)
  /-- Ask whether a variable is there. -/
  | has (context name : String)
  /-- Ask for the number of variables. -/
  | size (context : String)
  /-- Ask for the text of a context. -/
  | display (context : String)
  /-- Ask for the variables. -/
  | snapshot (context : String)
  /-- Assign a variable in a copy of the variables. -/
  | assignCopy (context name : String) (value : Value)
  /-- Assign a variable while a view of the variables is held. -/
  | assignWatched (context name : String) (value : Value)
  /-- Try to assign a variable in a view of the variables. -/
  | assignView (context name : String) (value : Value)
  /-- Decide a condition. -/
  | evaluate (context expression : String)
  /-- Compile a tree to a named action. -/
  | compile (action : String) (tree : Value)
  /-- Build a named action from a plan. -/
  | build (action : String) (plan : Blueprint)
  /-- Compare two named actions. -/
  | equal (action other : String)
  /-- Choose the kinds of actions that a recording executor holds back, by their names. A name that no
  kind has holds nothing back. -/
  | block (kinds : List String)
  /-- Run a named action. -/
  | run (context action : String)

/-- What comes of a command that does not fail. -/
inductive Outcome where
  /-- A number of variables. -/
  | size (n : Nat)
  /-- The variables of a context. -/
  | contents (vars : Variables)
  /-- A value. -/
  | value (v : Value)
  /-- Whether a variable is there. -/
  | present (b : Bool)
  /-- The text of a context. -/
  | text (s : String)
  /-- A changed copy, and the variables it was made from. -/
  | copied (copy vars : Variables)
  /-- What a view shows before and after an assignment. -/
  | watched (before after : Variables)
  /-- A decision, with the event that it reports if it went wrong. -/
  | decided (result : Bool) (event? : Option Event)
  /-- An action under its new name. -/
  | action (a : Action)
  /-- Whether two actions are equal. -/
  | equal (b : Bool)
  /-- The number of names of kinds that were given. -/
  | blocked (n : Nat)
  /-- A run, which may have failed. -/
  | finished (r : Run)

/-- What keeps an outcome from being shown within the given depth, if anything does. -/
def Outcome.unshowable? (depth : Nat) : Outcome → Option Value.Unshowable
  | contents vars => vars.unshowable? depth
  | value v => v.unshowable? depth
  | copied copy vars => (copy.unshowable? depth).or (vars.unshowable? depth)
  | watched before after => (before.unshowable? depth).or (after.unshowable? depth)
  | finished r =>
    (r.calls.toList.findSome? (·.vars.unshowable? depth)).or (r.vars.unshowable? depth)
  | _ => none

/-- The reply to a command. -/
structure Reply where
  /-- The notices for nodes of unknown type. -/
  notices : List UnknownType
  /-- What came of the command. -/
  result : Except SessionError Outcome

/-- The named contexts and actions. -/
structure Session where
  /-- The variables of each context. -/
  contexts : Entries Variables
  /-- The actions, as they were put together. -/
  actions : Entries Assembly
  /-- The number of actions that have been made. -/
  made : Nat
  /-- The executor to which every run hands its actions. -/
  executor : Executor

namespace Session

/-- The depth to which a reply shows values. -/
def replyDepth (depth : Nat) : Nat := depth / Depth.replied

/-- A session without contexts and actions, which records the actions that are handed over, to show
them in its replies, or does not. -/
def start (depth : Nat) (records : Bool) : Session :=
  ⟨[], [], 0, if records then .recording [] (some (replyDepth depth)) else .plain⟩

/-- The text of a context. -/
def displayContext (depth : Nat) (vars : Variables) : Except SessionError String :=
  let v := Value.object vars.toList
  match v.unshowable? depth with
  | none => .ok ("ExecutionContext(" ++ v.display ++ ")")
  | some e => .error (.notShowable e)

/-- The variables of a context. -/
def context? (session : Session) (name : String) : Except SessionError Variables :=
  match session.contexts.lookup name with
  | some vars => .ok vars
  | none => .error (.unknownContext name)

/-- The action of a name, as it was put together. -/
def action? (session : Session) (name : String) : Except SessionError Assembly :=
  match session.actions.lookup name with
  | some assembly => .ok assembly
  | none => .error (.unknownAction name)

/-- The session with other variables in a context. -/
def withContext (session : Session) (name : String) (vars : Variables) : Session :=
  { session with contexts := session.contexts.insert name vars }

/-- The session with an action under a name. An action that has a number already is not made anew. -/
def withAction (session : Session) (name : String) (assembly : Assembly) : Session :=
  { session with
    actions := session.actions.insert name (assembly.numbered session.made)
    made := session.made + 1 }

/-- The session and the outcome after a command that leaves no notice. -/
def perform (depth : Nat) (session : Session) :
    Command → Except SessionError (Session × Outcome)
  | .create context vars => .ok (session.withContext context vars, .size vars.size)
  | .assign context name value => do
    let vars := (← session.context? context).set name value
    return (session.withContext context vars, .contents vars)
  | .get context name default => do
    return (session, .value (((← session.context? context).get? name).getD default))
  | .has context name => do return (session, .present ((← session.context? context).contains name))
  | .size context => do return (session, .size (← session.context? context).size)
  | .display context => do
    return (session, .text (← displayContext depth (← session.context? context)))
  | .snapshot context => do return (session, .contents (← session.context? context))
  | .assignCopy context name value => do
    let vars ← session.context? context
    return (session, .copied (vars.set name value) vars)
  | .assignWatched context name value => do
    let vars ← session.context? context
    if let some e := vars.unshowable? (replyDepth depth) then .error (.notShowable e)
    return (session.withContext context (vars.set name value), .watched vars (vars.set name value))
  | .assignView context _ _ => do
    let _ ← session.context? context
    .error .readOnlyView
  | .evaluate context expression => do
    let vars ← session.context? context
    let decision ← (Condition.evaluate .standard depth expression vars).mapError .unreportable
    return (session, .decided decision.holds (decision.event? expression))
  | .compile name tree =>
    match (compileValue depth tree).result with
    | .ok a => .ok (session.withAction name (.ofAction a), .action a)
    | .error e => .error (.uncompilable e)
  | .build name plan => do
    let assembly ← plan.assemble session.actions depth
    return (session.withAction name assembly, .action assembly.action)
  | .equal name other => do
    let a ← session.action? name
    let b ← session.action? other
    match a.sameWithin depth b with
    | some result => return (session, .equal result)
    | none => .error .tooDeep
  | .block kinds =>
    let executor : Executor :=
      match session.executor with
      | .plain => .plain
      | .recording _ shownWithin =>
        .recording (kinds.filterMap ActionKind.ofText?) shownWithin
    .ok ({ session with executor }, .blocked kinds.length)
  | .run context name => do
    let vars ← session.context? context
    let r := (← session.action? name).action.execute depth session.executor vars
    return (session.withContext context r.vars, .finished r)

/-- The notices that a command leaves, whatever comes of it. -/
def noticesOf (depth : Nat) : Command → List UnknownType
  | .compile _ tree => (compileValue depth tree).notices
  | _ => []

/-- The session after a command, and the reply. -/
def answer (depth : Nat) (session : Session) (command : Command) : Session × Reply :=
  match session.perform depth command with
  | .ok (session, outcome) =>
    match outcome.unshowable? (replyDepth depth) with
    | none => (session, ⟨noticesOf depth command, .ok outcome⟩)
    | some e => (session, ⟨noticesOf depth command, .error (.notShowable e)⟩)
  | .error e => (session, ⟨noticesOf depth command, .error e⟩)

/-- The session after a command is the one that comes of it, if the command is obeyed. -/
theorem answer_eq (depth : Nat) (session : Session) (command : Command) :
    (session.answer depth command).1 =
      ((session.perform depth command).toOption.map Prod.fst).getD session := by
  unfold answer
  cases session.perform depth command with
  | error e => rfl
  | ok found =>
    obtain ⟨next, outcome⟩ := found
    cases hshown : outcome.unshowable? (replyDepth depth) <;> simp [hshown] <;> rfl

/-- The replies to a list of commands. -/
def answers (depth : Nat) (session : Session) : List Command → List Reply
  | [] => []
  | command :: more =>
    let (session, reply) := session.answer depth command
    reply :: session.answers depth more

/-- The session after commands, one after the other. -/
def after (depth : Nat) (session : Session) (commands : List Command) : Session :=
  commands.foldl (fun session command => (session.answer depth command).1) session

end Session

end DecisionFlow
