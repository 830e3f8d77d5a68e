import DecisionFlow.Text.Blank
import DecisionFlow.Text.Quoted
import DecisionFlow.Tree.Basic

/-!
# Steps: nodes with checked parameters

A node of a known type becomes a step when its parameters are what the type asks for; parameters that
the type does not use are ignored.

* `NodeType` — the four known types;
* `ParamError` — what is wrong with the parameters of a node;
* `Step.ofParams` — the step of a node;
* `UnknownType` — the notice for a node of any other type.
-/

namespace DecisionFlow

/-- The known types of nodes. -/
inductive NodeType where
  /-- Send a text message. -/
  | sms
  /-- Send an e-mail. -/
  | email
  /-- Decide between two branches. -/
  | condition
  /-- Repeat a body. -/
  | loop
deriving DecidableEq, Repr

/-- The type with the given name. -/
def NodeType.ofText? (name : String) : Option NodeType :=
  if name = "sms" then some .sms
  else if name = "email" then some .email
  else if name = "condition" then some .condition
  else if name = "loop" then some .loop
  else none

/-- Which address of an e-mail is missing. -/
inductive MissingAddress where
  /-- The sender. -/
  | sender
  /-- The receiver. -/
  | receiver
  /-- Both. -/
  | both
deriving DecidableEq, Repr

/-- What is wrong with the parameters of a node. -/
inductive ParamError where
  /-- A text message has no number to go to. -/
  | phoneNumber
  /-- An e-mail lacks an address. -/
  | address (missing : MissingAddress)
  /-- A condition has no text. -/
  | expression
  /-- A loop has no count that is a natural number. -/
  | count
deriving DecidableEq, Repr

/-- The message of a parameter error. -/
def ParamError.message : ParamError → String
  | phoneNumber => "SendSmsAction requires 'phoneNumber' parameter"
  | address .sender => "SendEmailAction requires 'sender' parameter"
  | address .receiver => "SendEmailAction requires 'receiver' parameter"
  | address .both => "SendEmailAction requires 'sender' and 'receiver' parameters"
  | expression => "ConditionAction requires 'expression' parameter"
  | count => "LoopAction requires 'count' parameter as a non-negative integer"

/-- A node's own part, checked. -/
inductive Step where
  /-- Send a text message to a number. -/
  | sms (phoneNumber : String)
  /-- Send an e-mail from one address to another. -/
  | email (sender receiver : String)
  /-- Decide by a condition. -/
  | condition (expression : String)
  /-- Repeat a number of times. -/
  | loop (count : Nat)
deriving DecidableEq, Repr

namespace Step

/-- A parameter that is a string and not empty. -/
def givenText? (params : Entries Value) (key : String) : Option String :=
  match params.lookup key with
  | some (.scalar (.string s)) => if s.isEmpty then none else some s
  | _ => none

/-- A parameter that is a natural number, written as an integer or as a double. -/
def naturalNumber? (params : Entries Value) (key : String) : Option Nat :=
  match params.lookup key with
  | some (.scalar (.number n)) =>
    match n.whole? with
    | some (.ofNat count) => some count
    | _ => none
  | _ => none

/-- The step of a node of a known type. -/
def ofParams (type : NodeType) (params : Entries Value) : Except ParamError Step :=
  match type with
  | .sms =>
    match givenText? params "phoneNumber" with
    | some phoneNumber => .ok (sms phoneNumber)
    | none => .error .phoneNumber
  | .email =>
    match givenText? params "sender", givenText? params "receiver" with
    | some sender, some receiver => .ok (email sender receiver)
    | none, some _ => .error (.address .sender)
    | some _, none => .error (.address .receiver)
    | none, none => .error (.address .both)
  | .condition =>
    match (params.lookup "expression").bind Value.text? with
    | some text => if Text.isBlankText text then .error .expression else .ok (condition text)
    | none => .error .expression
  | .loop =>
    match naturalNumber? params "count" with
    | some count => .ok (loop count)
    | none => .error .count

end Step

/-- A node whose type is not known: its type, if it has one. -/
structure UnknownType where
  /-- The type, if it is a string. -/
  type : Option String
deriving DecidableEq, Repr

/-- The notice for a node whose type is not known. -/
def UnknownType.message (e : UnknownType) : String :=
  "Unknown action type: " ++
    match e.type with
    | some type => Text.quoted type
    | none => "None"

end DecisionFlow
