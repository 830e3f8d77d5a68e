import DecisionFlow.Action.Compile

/-!
# Which values are trees

A value is a tree if every object that its links lead to has the shape of a node.  The decoder walks
the links in a fixed order; this module says without any order what it accepts.

* `NodeAt` — the objects that the links of an object lead to, each with its nesting;
* `Value.HasDefect` — a shape error anywhere in a value, also behind a link that nothing will use;
* `Decodes` — the tree of an object, node by node;
* `Tree.Decoded` — what each outcome of the decoder says about the value;
* `Tree.ofValue_decoded` — the decoder says nothing else.
-/

namespace DecisionFlow

/-! ### The nodes of a value -/

/-- How much deeper than its own node a link leads: chains do not nest. -/
def NodeField.nesting : NodeField → Nat
  | next => 0
  | params | whenTrue | whenFalse | body => 1

/-- `NodeAt fields links node`: the object `node` is a node of the tree that `fields` describe, with so
many links other than `next` on the way to it. -/
inductive NodeAt : Entries Value → Nat → Entries Value → Prop where
  | root (fields : Entries Value) : NodeAt fields 0 fields
  | link {fields inner node : Entries Value} {links : Nat} {field : NodeField} :
      field ≠ .params → fields.lookup field.key = some (.object inner) →
      NodeAt inner links node → NodeAt fields (field.nesting + links) node

/-- The object that a field of a node holds, if it holds one. -/
def NodeField.inner? (field : NodeField) (node : Entries Value) : Option (Entries Value) :=
  (node.lookup field.key).bind Value.fields?

/-- A field of a node holds what it may hold: nothing, null or an object. -/
def NodeField.Accepts (field : NodeField) (node : Entries Value) : Prop :=
  ∀ v, node.lookup field.key = some v → v = .null ∨ ∃ inner, v = .object inner

namespace Value

/-- `value.HasDefect e`: the shape of a value has the defect, at whatever place. -/
inductive HasDefect : Value → DecodeError → Prop where
  | notAnObject {value : Value} : (∀ fields, value ≠ .object fields) → HasDefect value .notAnObject
  | field {fields node : Entries Value} {links : Nat} {field : NodeField} :
      NodeAt fields links node → ¬field.Accepts node →
      HasDefect (.object fields) (.fieldNotAnObject field)

/-- `value.Nests links`: a node of the value has so many links other than `next` on the way to it. -/
def Nests (value : Value) (links : Nat) : Prop :=
  ∃ fields node, value = .object fields ∧ NodeAt fields links node

/-- What is behind a link has no defect that the whole does not have. -/
theorem HasDefect.of_link {fields inner : Entries Value} {field : NodeField} {e : DecodeError}
    (hfield : field ≠ .params) (hlookup : fields.lookup field.key = some (.object inner))
    (h : HasDefect (.object inner) e) : HasDefect (.object fields) e := by
  cases h with
  | notAnObject hvalue => exact absurd rfl (hvalue inner)
  | field hnode hrejects => exact .field (.link hfield hlookup hnode) hrejects

theorem Nests.of_link {fields inner : Entries Value} {field : NodeField} {links : Nat}
    (hfield : field ≠ .params) (hlookup : fields.lookup field.key = some (.object inner))
    (h : Nests (.object inner) links) : Nests (.object fields) (field.nesting + links) := by
  obtain ⟨inner', node, hinner, hnode⟩ := h
  cases hinner
  exact ⟨fields, node, rfl, .link hfield hlookup hnode⟩

/-- An object has a defect only if one of its own fields has, or what is behind one of its links. -/
theorem HasDefect.cases_object {fields : Entries Value} {e : DecodeError}
    (h : HasDefect (.object fields) e) :
    (∃ field : NodeField, ¬field.Accepts fields) ∨
      ∃ (field : NodeField) (inner : Entries Value),
        field ≠ .params ∧ fields.lookup field.key = some (.object inner) ∧
          HasDefect (.object inner) e := by
  cases h with
  | notAnObject hvalue => exact absurd rfl (hvalue fields)
  | field hnode hrejects =>
    cases hnode with
    | root => exact .inl ⟨_, hrejects⟩
    | link hfield hlookup hnode => exact .inr ⟨_, _, hfield, hlookup, .field hnode hrejects⟩

end Value

/-! ### The tree of an object -/

/-- `Decodes object? tree`: the tree has the nodes of the object, each with its type, its parameters and
its links, or is absent where there is no object. -/
inductive Decodes : Option (Entries Value) → Tree → Prop where
  | absent : Decodes none .absent
  | node {fields : Entries Value} {whenTrue whenFalse body next : Tree} :
      Decodes (NodeField.whenTrue.inner? fields) whenTrue →
      Decodes (NodeField.whenFalse.inner? fields) whenFalse →
      Decodes (NodeField.body.inner? fields) body →
      Decodes (NodeField.next.inner? fields) next →
      Decodes (some fields) (.node (Tree.typeOf fields) ((NodeField.params.inner? fields).getD [])
        whenTrue whenFalse body next)

namespace NodeField

variable {field : NodeField} {fields inner : Entries Value}

theorem inner?_eq_some_iff :
    field.inner? fields = some inner ↔ fields.lookup field.key = some (.object inner) := by
  unfold inner?
  rw [Option.bind_eq_some_iff]
  constructor
  · rintro ⟨v, hlookup, hv⟩
    cases v with
    | object found =>
      cases hv
      exact hlookup
    | _ => cases hv
  · exact fun hlookup => ⟨_, hlookup, rfl⟩

/-- A field may hold an object. -/
theorem accepts_of_lookup (h : fields.lookup field.key = some (.object inner)) :
    field.Accepts fields := by
  intro v hv
  rw [h] at hv
  exact .inr ⟨inner, (Option.some.inj hv).symm⟩

end NodeField

/-- An object has one tree. -/
theorem Decodes.unique {object? : Option (Entries Value)} {tree other : Tree}
    (h : Decodes object? tree) (hother : Decodes object? other) : tree = other := by
  induction h generalizing other with
  | absent =>
    cases hother
    rfl
  | node _ _ _ _ iht ihf ihb ihn =>
    cases hother with
    | node ht hf hb hn => rw [iht ht, ihf hf, ihb hb, ihn hn]

/-- `tree.Nests links`: a node of the tree has so many links other than `next` on the way to it. -/
def Tree.Nests : Tree → Nat → Prop
  | absent, _ => False
  | node _ _ whenTrue whenFalse body next, links =>
    links = 0 ∨
      (∃ n, links = 1 + n ∧ (whenTrue.Nests n ∨ whenFalse.Nests n ∨ body.Nests n)) ∨
      next.Nests links

/-- A tree nests as the object does whose tree it is. -/
theorem Decodes.nests {object? : Option (Entries Value)} {tree : Tree} (h : Decodes object? tree)
    {links : Nat} (hlinks : tree.Nests links) :
    ∃ fields node, object? = some fields ∧ NodeAt fields links node := by
  induction h generalizing links with
  | absent => exact hlinks.elim
  | @node fields whenTrue whenFalse body next _ _ _ _ iht ihf ihb ihn =>
    have hinside (field : NodeField) (hfield : field ≠ .params) {n : Nat}
        (h : ∃ inner node, field.inner? fields = some inner ∧ NodeAt inner n node) :
        ∃ fields' node, some fields = some fields' ∧ NodeAt fields' (field.nesting + n) node := by
      obtain ⟨inner, node, hinner, hnode⟩ := h
      exact ⟨fields, node, rfl, .link hfield (NodeField.inner?_eq_some_iff.mp hinner) hnode⟩
    rcases hlinks with rfl | ⟨n, rfl, hn | hn | hn⟩ | hn
    · exact ⟨fields, fields, rfl, .root fields⟩
    · exact hinside .whenTrue nofun (iht hn)
    · exact hinside .whenFalse nofun (ihf hn)
    · exact hinside .body nofun (ihb hn)
    · simpa only [NodeField.nesting, Nat.zero_add] using hinside .next nofun (ihn hn)

/-! ### What the decoder says -/

namespace Tree

/-- What an outcome of the decoder says about the value that it was given: a tree is that of an object
without a defect; an error is a defect of the value; and what is too deep has a node behind more links
than there is depth for. -/
def Decoded (depth : Nat) (value : Value) : Except (Bounded DecodeError) Tree → Prop
  | .ok tree => (∀ e, ¬value.HasDefect e) ∧ ∃ fields, value = .object fields ∧ Decodes (some fields) tree
  | .error (.because e) => value.HasDefect e
  | .error .tooDeep => ∃ links, value.Nests links ∧ depth < Depth.decodedLink * links

/-- The same for a link of an object.  What stops at a link stops at the object. -/
def DecodedLink (depth : Nat) (fields : Entries Value) (field : NodeField) :
    Except (Bounded DecodeError) Tree → Prop
  | .ok tree => field.Accepts fields ∧
      (∀ inner e, fields.lookup field.key = some (.object inner) →
        ¬Value.HasDefect (.object inner) e) ∧
      Decodes (field.inner? fields) tree
  | .error stop => Decoded depth (.object fields) (.error stop)

/-- A field holds an object, or nothing to speak of, or something that it may not hold. -/
theorem object?_cases (fields : Entries Value) (field : NodeField) :
    (object? fields field = .ok none ∧ field.Accepts fields ∧ field.inner? fields = none) ∨
    (∃ inner h, object? fields field = .ok (some ⟨inner, h⟩) ∧ field.Accepts fields ∧
      field.inner? fields = some inner) ∨
    (object? fields field = .error (.fieldNotAnObject field) ∧ ¬field.Accepts fields) := by
  unfold object? NodeField.Accepts NodeField.inner?
  split
  · rename_i hlookup
    simp [hlookup]
  · rename_i hlookup
    simp [hlookup, Value.fields?]
  · rename_i inner hlookup
    exact .inr (.inl ⟨inner, sizeOf_lt_of_lookup hlookup, rfl, by simp [hlookup],
      by rw [hlookup]; rfl⟩)
  · rename_i v hnull hobject hlookup
    refine .inr (.inr ⟨rfl, fun haccepts => ?_⟩)
    rcases haccepts v hlookup with rfl | ⟨inner, rfl⟩
    · exact hnull rfl
    · exact hobject inner rfl

theorem paramsOf_cases (fields : Entries Value) :
    (paramsOf fields = .ok ((NodeField.params.inner? fields).getD []) ∧
      NodeField.params.Accepts fields) ∨
    (paramsOf fields = .error (.because (.fieldNotAnObject .params)) ∧
      ¬NodeField.params.Accepts fields) := by
  unfold paramsOf
  rcases object?_cases fields .params with ⟨hnone, haccepts, hinner⟩ |
    ⟨inner, hlt, hsome, haccepts, hinner⟩ | ⟨herror, hrejects⟩
  · exact .inl ⟨by rw [hnone, hinner]; rfl, haccepts⟩
  · exact .inl ⟨by rw [hsome, hinner]; rfl, haccepts⟩
  · exact .inr ⟨by rw [herror], hrejects⟩

/-- What is behind a link has been decoded, if what `decode` makes of an object there has. -/
theorem link_decoded {depth : Nat} {fields : Entries Value} {field : NodeField}
    {decode : (inner : Entries Value) → sizeOf inner < sizeOf fields →
      Except (Bounded DecodeError) Tree}
    (hdecode : ∀ inner hlt, fields.lookup field.key = some (.object inner) →
      DecodedLink depth fields field (decode inner hlt)) :
    DecodedLink depth fields field (link fields field decode) := by
  unfold link
  rcases object?_cases fields field with ⟨hnone, haccepts, habsent⟩ | ⟨inner, hlt, hsome, _, hinner⟩ |
    ⟨herror, hrejects⟩
  · rw [hnone]
    refine ⟨haccepts, fun inner e hlookup => ?_, ?_⟩
    · rw [NodeField.inner?_eq_some_iff.mpr hlookup] at habsent
      cases habsent
    · rw [habsent]
      exact .absent
  · rw [hsome]
    exact hdecode inner hlt (NodeField.inner?_eq_some_iff.mp hinner)
  · rw [herror]
    exact .field (.root fields) hrejects

/-- An object behind a link, decoded with the depth that the link leaves. -/
theorem Decoded.behind {depth inside : Nat} {fields inner : Entries Value} {field : NodeField}
    {outcome : Except (Bounded DecodeError) Tree} (hfield : field ≠ .params)
    (hlookup : fields.lookup field.key = some (.object inner))
    (hdepth : depth ≤ inside + Depth.decodedLink * field.nesting)
    (h : Decoded inside (.object inner) outcome) : DecodedLink depth fields field outcome := by
  cases outcome with
  | ok tree =>
    obtain ⟨hsound, inner', hinner, hdecodes⟩ := h
    cases hinner
    refine ⟨NodeField.accepts_of_lookup hlookup, fun inner' e hinner' => ?_, ?_⟩
    · rw [hlookup] at hinner'
      cases hinner'
      exact hsound e
    · rw [NodeField.inner?_eq_some_iff.mpr hlookup]
      exact hdecodes
  | error stop =>
    cases stop with
    | because e => exact .of_link hfield hlookup h
    | tooDeep =>
      obtain ⟨links, hlinks, hlt⟩ := h
      refine ⟨_, hlinks.of_link hfield hlookup, ?_⟩
      rw [Nat.mul_add]
      omega

/-- The tree of an object behind a link that costs depth. -/
def ofFieldsInside (depth : Nat) (inner : Entries Value) : Except (Bounded DecodeError) Tree :=
  match Depth.take? Depth.decodedLink depth with
  | some inside => ofFields inside inner
  | none => .error .tooDeep

theorem ofFields_eq (depth : Nat) (fields : Entries Value) :
    ofFields depth fields = do
      let params ← paramsOf fields
      let whenTrue ← link fields .whenTrue fun inner _ => ofFieldsInside depth inner
      let whenFalse ← link fields .whenFalse fun inner _ => ofFieldsInside depth inner
      let body ← link fields .body fun inner _ => ofFieldsInside depth inner
      let next ← link fields .next fun inner _ => ofFields depth inner
      return .node (typeOf fields) params whenTrue whenFalse body next := by
  rw [ofFields]
  rfl

/-- An object behind a link that costs depth, if what the depth leaves suffices. -/
theorem ofFieldsInside_decoded {depth : Nat} {fields inner : Entries Value} {field : NodeField}
    (hfield : field ≠ .params) (hnesting : field.nesting = 1)
    (hlookup : fields.lookup field.key = some (.object inner))
    (h : ∀ inside, Decoded inside (.object inner) (ofFields inside inner)) :
    DecodedLink depth fields field (ofFieldsInside depth inner) := by
  unfold ofFieldsInside
  split
  · rename_i inside htake
    have hdepth := Depth.take?_eq_some.mp htake
    refine (h inside).behind hfield hlookup ?_
    rw [hnesting]
    omega
  · rename_i htake
    have hdepth := Depth.take?_eq_none.mp htake
    exact ⟨_, ⟨fields, inner, rfl, .link hfield hlookup (.root inner)⟩, by rw [hnesting]; omega⟩

/-- A node is sound if its parameters and its links are. -/
theorem decoded_node {depth : Nat} {fields : Entries Value} {whenTrue whenFalse body next : Tree}
    (hparams : NodeField.params.Accepts fields)
    (htrue : DecodedLink depth fields .whenTrue (.ok whenTrue))
    (hfalse : DecodedLink depth fields .whenFalse (.ok whenFalse))
    (hbody : DecodedLink depth fields .body (.ok body))
    (hnext : DecodedLink depth fields .next (.ok next)) :
    Decoded depth (.object fields) (.ok (.node (typeOf fields)
      ((NodeField.params.inner? fields).getD []) whenTrue whenFalse body next)) := by
  refine ⟨fun e hdefect => ?_, fields, rfl, .node htrue.2.2 hfalse.2.2 hbody.2.2 hnext.2.2⟩
  rcases hdefect.cases_object with ⟨field, hrejects⟩ | ⟨field, inner, hfield, hlookup, hinner⟩
  · cases field with
    | params => exact hrejects hparams
    | whenTrue => exact hrejects htrue.1
    | whenFalse => exact hrejects hfalse.1
    | body => exact hrejects hbody.1
    | next => exact hrejects hnext.1
  · cases field with
    | params => exact hfield rfl
    | whenTrue => exact htrue.2.1 inner e hlookup hinner
    | whenFalse => exact hfalse.2.1 inner e hlookup hinner
    | body => exact hbody.2.1 inner e hlookup hinner
    | next => exact hnext.2.1 inner e hlookup hinner

/-- **Every outcome of the decoder says of an object what it should.** -/
theorem ofFields_decoded (depth : Nat) (fields : Entries Value) :
    Decoded depth (.object fields) (ofFields depth fields) := by
  -- the links lead to smaller objects, whatever depth they leave
  induction hsize : sizeOf fields using Nat.strongRecOn generalizing depth fields with
  | ind size ih =>
    subst hsize
    rw [ofFields_eq]
    have hinside (field : NodeField) (hfield : field ≠ .params) (hnesting : field.nesting = 1) :
        DecodedLink depth fields field
          (link fields field fun inner _ => ofFieldsInside depth inner) :=
      link_decoded fun inner hlt hlookup =>
        ofFieldsInside_decoded hfield hnesting hlookup fun inside => ih _ hlt inside inner rfl
    have hnext : DecodedLink depth fields .next
        (link fields .next fun inner _ => ofFields depth inner) :=
      link_decoded fun inner hlt hlookup =>
        (ih _ hlt depth inner rfl).behind (by decide) hlookup (Nat.le_refl depth)
    have htrue := hinside .whenTrue (by decide) rfl
    have hfalse := hinside .whenFalse (by decide) rfl
    have hbody := hinside .body (by decide) rfl
    revert htrue hfalse hbody hnext
    generalize link fields .whenTrue _ = onTrue
    generalize link fields .whenFalse _ = onFalse
    generalize link fields .body _ = inside
    generalize link fields .next _ = rest
    intro hnext htrue hfalse hbody
    -- the first outcome that is no tree is the outcome of the node
    rcases paramsOf_cases fields with ⟨hparams, haccepts⟩ | ⟨hparams, hrejects⟩
    · rw [hparams]
      cases onTrue with
      | error stop => exact htrue
      | ok whenTrue =>
        cases onFalse with
        | error stop => exact hfalse
        | ok whenFalse =>
          cases inside with
          | error stop => exact hbody
          | ok body =>
            cases rest with
            | error stop => exact hnext
            | ok next => exact decoded_node haccepts htrue hfalse hbody hnext
    · rw [hparams]
      exact .field (.root fields) hrejects

/-- **Every outcome of the decoder says of a value what it should.** -/
theorem ofValue_decoded (depth : Nat) (value : Value) :
    Decoded depth value (ofValue depth value) := by
  cases value with
  | object fields => exact ofFields_decoded depth fields
  | null => exact .notAnObject nofun
  | scalar s => exact .notAnObject nofun
  | list items => exact .notAnObject nofun
  | foreign type place => exact .notAnObject nofun

end Tree

end DecisionFlow
