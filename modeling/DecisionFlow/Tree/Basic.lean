import DecisionFlow.Depth
import DecisionFlow.Entries
import DecisionFlow.Value.Basic

/-!
# Decision trees as received

A node has a type, parameters and four links: the branches of a condition, the body of a loop, and
the node that comes next. Nothing is checked here beyond the shape.

* `Tree` — a node with what hangs on it, or the absent tree in place of a link that is not there;
* `DecodeError` — the ways in which a value is no tree;
* `Tree.ofFields`, `Tree.ofValue` — a tree from an object. The first defect is reported: a node's
  parameters come before its branches, its branches and body before the node after it.
-/

namespace DecisionFlow

/-- A decision tree as received. -/
inductive Tree where
  /-- Nothing: a link that is not there, or the end of a chain. -/
  | absent
  /-- A node with its links. The type is there only if it is a string. -/
  | node (type : Option String) (params : Entries Value) (whenTrue whenFalse body next : Tree)
deriving DecidableEq, Repr

instance : Inhabited Tree := ⟨.absent⟩

/-- The fields of a node that hold objects. -/
inductive NodeField where
  /-- The parameters. -/
  | params
  /-- The branch taken when a condition holds. -/
  | whenTrue
  /-- The branch taken when a condition does not hold. -/
  | whenFalse
  /-- The body of a loop. -/
  | body
  /-- The node that comes next. -/
  | next
deriving DecidableEq, Repr

/-- The name of a field. -/
def NodeField.key : NodeField → String
  | params => "params"
  | whenTrue => "trueAction"
  | whenFalse => "falseAction"
  | body => "subtree"
  | next => "next"

/-- Why a value is no decision tree. -/
inductive DecodeError where
  /-- The value is no object. -/
  | notAnObject
  /-- A field holds something that is neither null nor an object. -/
  | fieldNotAnObject (field : NodeField)
deriving DecidableEq, Repr

/-- The message of a decoding error. -/
def DecodeError.message : DecodeError → String
  | notAnObject => "ActionNode must be an object"
  | fieldNotAnObject field => "'" ++ field.key ++ "' must be an object"

namespace Tree

/-- A field of an object is smaller than the fields of the object. -/
theorem sizeOf_lt_of_lookup {fields inner : Entries Value} {key : String}
    (h : fields.lookup key = some (.object inner)) : sizeOf inner < sizeOf fields := by
  induction fields with
  | nil => simp at h
  | cons p rest ih =>
    obtain ⟨k, v⟩ := p
    rw [List.lookup_cons] at h
    simp only [List.cons.sizeOf_spec, Prod.mk.sizeOf_spec]
    split at h
    · simp only [Option.some.injEq] at h
      subst h
      simp only [Value.object.sizeOf_spec]
      omega
    · have := ih h
      omega

/-- The object that a field holds, if the field is there and not null. -/
def object? (fields : Entries Value) (field : NodeField) :
    Except DecodeError (Option { inner : Entries Value // sizeOf inner < sizeOf fields }) :=
  match h : fields.lookup field.key with
  | none => .ok none
  | some .null => .ok none
  | some (.object inner) => .ok (some ⟨inner, sizeOf_lt_of_lookup h⟩)
  | some _ => .error (.fieldNotAnObject field)

/-- The tree behind a link: absent, or what `decode` makes of the object there. -/
def link (fields : Entries Value) (field : NodeField)
    (decode : (inner : Entries Value) → sizeOf inner < sizeOf fields →
      Except (Bounded DecodeError) Tree) : Except (Bounded DecodeError) Tree :=
  match object? fields field with
  | .ok none => .ok .absent
  | .ok (some ⟨inner, h⟩) => decode inner h
  | .error e => .error (.because e)

/-- The parameters of a node; a node without any has none set. -/
def paramsOf (fields : Entries Value) : Except (Bounded DecodeError) (Entries Value) :=
  match object? fields .params with
  | .ok none => .ok []
  | .ok (some inner) => .ok inner.val
  | .error e => .error (.because e)

/-- The type of a node, if it is a string. -/
def typeOf (fields : Entries Value) : Option String := (fields.lookup "type").bind Value.text?

/-- The tree of a node with the given fields. Links other than `next` cost depth. -/
def ofFields (depth : Nat) (fields : Entries Value) : Except (Bounded DecodeError) Tree := do
  let params ← paramsOf fields
  let whenTrue ← link fields .whenTrue fun inner _ =>
    match Depth.take? Depth.decodedLink depth with
    | some depth => ofFields depth inner
    | none => .error .tooDeep
  let whenFalse ← link fields .whenFalse fun inner _ =>
    match Depth.take? Depth.decodedLink depth with
    | some depth => ofFields depth inner
    | none => .error .tooDeep
  let body ← link fields .body fun inner _ =>
    match Depth.take? Depth.decodedLink depth with
    | some depth => ofFields depth inner
    | none => .error .tooDeep
  let next ← link fields .next fun inner _ => ofFields depth inner
  return .node (typeOf fields) params whenTrue whenFalse body next
termination_by sizeOf fields

/-- The tree that a value describes. -/
def ofValue (depth : Nat) : Value → Except (Bounded DecodeError) Tree
  | .object fields => ofFields depth fields
  | _ => .error (.because .notAnObject)

/-- A tree without the nodes that come next. -/
def head : Tree → Tree
  | absent => absent
  | node type params whenTrue whenFalse body _ => node type params whenTrue whenFalse body absent

end Tree

end DecisionFlow
