import DecisionFlow.Action.Basic
import DecisionFlow.Tree.Step

/-!
# Compiling trees

Every node is checked before what hangs on it, its branches and body before the node after it. A node
of unknown type leaves a notice and ends its chain there; a node with bad parameters ends the
compilation.

* `Compilation` — the notices left and the outcome;
* `Tree.compile` — the action of a tree, absent if its first node is of unknown type;
* `TreeError`, `compileValue`, `compileHead` — the action that a value describes, of its whole chain or
  of its first node alone.
-/

namespace DecisionFlow

/-- What compiling leaves: notices in order, and an outcome. -/
structure Compilation (α : Type) where
  /-- The notices for nodes of unknown type. -/
  notices : List UnknownType
  /-- The outcome. -/
  result : Except (Bounded ParamError) α

namespace Compilation

variable {α β : Type}

/-- An outcome that leaves no notice. -/
def pure (a : α) : Compilation α := ⟨[], .ok a⟩

/-- An error that leaves no notice. -/
def error (e : Bounded ParamError) : Compilation α := ⟨[], .error e⟩

/-- One compilation and, if it succeeds, another. -/
def bind (c : Compilation α) (f : α → Compilation β) : Compilation β :=
  match c.result with
  | .ok a => ⟨c.notices ++ (f a).notices, (f a).result⟩
  | .error e => ⟨c.notices, .error e⟩

/-- The outcome of a successful compilation, changed. -/
def map (f : α → β) (c : Compilation α) : Compilation β := ⟨c.notices, c.result.map f⟩

end Compilation

namespace Tree

/-- What a node comes to: a checked step, nothing for an unknown type, or an error. -/
def step? (type : Option String) (params : Entries Value) : Except ParamError (Option Step) :=
  match type.bind NodeType.ofText? with
  | some known => (Step.ofParams known params).map some
  | none => .ok none

/-- The compilation of what hangs on a link other than `next`, which costs depth. -/
def compileLink (compile : Nat → Compilation Action) (depth : Nat) : Compilation Action :=
  match Depth.take? Depth.compiledLink depth with
  | some depth => compile depth
  | none => .error .tooDeep

/-- The action of a tree. -/
def compile : Tree → Nat → Compilation Action
  | absent, _ => .pure .absent
  | node type params whenTrue whenFalse body next, depth =>
    if depth < Depth.compiledChain then .error .tooDeep
    else
      match step? type params with
      | .error e => .error (.because e)
      | .ok none => ⟨[⟨type⟩], .ok .absent⟩
      | .ok (some (.sms phoneNumber)) => (next.compile depth).map (Action.sms phoneNumber).andNext
      | .ok (some (.email sender receiver)) =>
        (next.compile depth).map (Action.email sender receiver).andNext
      | .ok (some (.condition expression)) =>
        (compileLink (fun depth => whenTrue.compile depth) depth).bind fun onTrue =>
          (compileLink (fun depth => whenFalse.compile depth) depth).bind fun onFalse =>
            (next.compile depth).map (Action.condition expression onTrue onFalse).andNext
      | .ok (some (.loop count)) =>
        (compileLink (fun depth => body.compile depth) depth).bind fun body =>
          (next.compile depth).map (Action.loop count body).andNext

end Tree

/-- Why no action can be made of a value. -/
inductive TreeError where
  /-- There is no tree at all. -/
  | missingTree
  /-- There is no node at all. -/
  | missingNode
  /-- The value is no tree. -/
  | undecodable (e : DecodeError)
  /-- A node has bad parameters. -/
  | invalid (e : ParamError)
deriving DecidableEq, Repr

/-- The message of a tree error. -/
def TreeError.message : TreeError → String
  | missingTree => "Cannot create an action tree without a node"
  | missingNode => "Cannot create an action without a node"
  | undecodable e => e.message
  | invalid e => e.message

/-- The notices and the action, or the error, of a value. -/
structure Compiled where
  /-- The notices for nodes of unknown type. -/
  notices : List UnknownType
  /-- The action, absent if there is nothing to run. -/
  result : Except (Bounded TreeError) Action

/-- The compilation of a decoded tree. -/
def Compiled.ofTree (depth : Nat) : Except (Bounded DecodeError) Tree → Compiled
  | .ok tree =>
    let compilation := tree.compile depth
    ⟨compilation.notices, compilation.result.mapError (Bounded.map .invalid)⟩
  | .error e => ⟨[], .error (e.map .undecodable)⟩

/-- The action that a value describes. -/
def compileValue (depth : Nat) : Value → Compiled
  | .null => ⟨[], .error (.because .missingTree)⟩
  | v => .ofTree depth (Tree.ofValue depth v)

/-- The action of the first node that a value describes. -/
def compileHead (depth : Nat) : Value → Compiled
  | .null => ⟨[], .error (.because .missingNode)⟩
  | v => .ofTree depth ((Tree.ofValue depth v).map Tree.head)

end DecisionFlow
