import DecisionFlow.Proofs.Decompilation
import DecisionFlow.Proofs.Faults
import Mathlib.Logic.Relation

/-!
# What does not matter in a value

The decoder and the compiler ask an object for certain keys, one after the other, and take what they find
there as null if there is nothing.  So it does not matter in which order the keys of an object stand, nor
what else stands in it; and what hangs on a link that the type of a node does not use has to be of the
right shape, but is not looked at any further.

* `Entries.valueOf` — the value of a key, null if it is not there; `Tree.ofFields_eq_valueOf` says that
  a node is made of such values only;
* `Tree.UsesLink`, `Tree.UsesParam` — the links and the parameters that the type of a node uses;
* `Tree.Alike` — trees that differ in nothing that the compiler uses; `Tree.Alike.compile_eq`;
* `OutcomesAgree` — two outcomes are the same error, or are related;
* `Value.Reorders`, `Edit` — keys in another order, and the other changes that do not matter;
* `Edit.agree` — each of them leaves the outcome of the decoder as it is, up to what is not used;
* `compile_of_edits` — after any number of changes, there and back, what is compiled is the same.
-/

namespace DecisionFlow

/-! ### Asking for keys -/

namespace Entries

/-- The value of a key.  A key that is not there counts as null. -/
def valueOf (fields : Entries Value) (key : String) : Value := (fields.lookup key).getD .null

variable {before after : Entries Value} {key : String} {v : Value}

/-- A value other than null stands under its key. -/
theorem lookup_of_valueOf {fields : Entries Value} (h : valueOf fields key = v) (hnull : v ≠ .null) :
    fields.lookup key = some v := by
  unfold valueOf at h
  cases hlookup : fields.lookup key with
  | none =>
    rw [hlookup] at h
    exact absurd h.symm hnull
  | some found =>
    rw [hlookup] at h
    exact congrArg some h

/-- An entry is only found by its own key. -/
theorem valueOf_add {other : String} (h : other ≠ key) :
    valueOf (before ++ (key, v) :: after) other = valueOf (before ++ after) other := by
  have hother : (other == key) = false := beq_false_of_ne h
  simp [valueOf, List.lookup_append, List.lookup_cons, hother]

theorem valueOf_of_notMem (h : key ∉ keys (before ++ after)) : valueOf (before ++ after) key = .null := by
  rw [valueOf, lookup_eq_none_iff.mpr h]
  rfl

theorem valueOf_added (h : key ∉ keys (before ++ after)) : valueOf (before ++ (key, v) :: after) key = v := by
  have hbefore : key ∉ keys before := by
    intro hmem
    apply h
    rw [keys, List.map_append]
    exact List.mem_append_left _ hmem
  rw [valueOf, List.lookup_append, lookup_eq_none_iff.mpr hbefore, List.lookup_cons_self]
  rfl

/-- Writing null where there is no entry changes no value. -/
theorem valueOf_null (h : key ∉ keys (before ++ after)) (other : String) :
    valueOf (before ++ after) other = valueOf (before ++ (key, .null) :: after) other := by
  by_cases hother : other = key
  · rw [hother, valueOf_of_notMem h, valueOf_added h]
  · rw [valueOf_add hother]

/-- With another value in one entry, every key has the same value, or it has the two in question. -/
theorem valueOf_replaced (before after : Entries Value) (key : String) (v w : Value) (other : String) :
    valueOf (before ++ (key, v) :: after) other = valueOf (before ++ (key, w) :: after) other ∨
      (other = key ∧ valueOf (before ++ (key, v) :: after) other = v ∧
        valueOf (before ++ (key, w) :: after) other = w) := by
  by_cases hother : other = key
  · subst hother
    cases hbefore : before.lookup other with
    | some found => exact .inl (by simp [valueOf, List.lookup_append, hbefore])
    | none => exact .inr ⟨rfl, by simp [valueOf, List.lookup_append, hbefore]⟩
  · exact .inl (by rw [valueOf_add hother, valueOf_add hother])

/-- **The order of the keys does not matter**, where no key stands twice. -/
theorem valueOf_of_perm {fields others : Entries Value} (h : fields.Perm others)
    (hnodup : (keys fields).Nodup) (key : String) : valueOf fields key = valueOf others key := by
  suffices hlookup : fields.lookup key = others.lookup key by rw [valueOf, hlookup, valueOf]
  induction h with
  | nil => rfl
  | cons p _ ih =>
    have hrest := ih (List.nodup_cons.mp hnodup).2
    rw [List.lookup_cons, List.lookup_cons, hrest]
  | swap p q rest =>
    have hne : q.1 ≠ p.1 := fun h => (List.nodup_cons.mp hnodup).1 (h ▸ List.mem_cons_self)
    rw [List.lookup_cons, List.lookup_cons, List.lookup_cons, List.lookup_cons]
    by_cases hq : key = q.1
    · have hp : (key == p.1) = false := beq_false_of_ne fun h => hne (hq.symm.trans h)
      rw [hp]
    · rw [beq_false_of_ne hq]
  | trans h _ ih ih' => exact (ih hnodup).trans (ih' ((h.map Prod.fst).nodup_iff.mp hnodup))

end Entries

/-! ### What a node is made of -/

/-- What the decoder makes of the value of a field: `decode` of an object, `absent` of null. -/
def NodeField.decode {α : Type} (field : NodeField) (absent : α)
    (decode : Entries Value → Except (Bounded DecodeError) α) : Value → Except (Bounded DecodeError) α
  | .null => .ok absent
  | .object inner => decode inner
  | _ => .error (.because (.fieldNotAnObject field))

/-- The tree of an object behind a link. -/
def NodeField.ofFields (field : NodeField) (depth : Nat) (inner : Entries Value) :
    Except (Bounded DecodeError) Tree :=
  if field = .next then Tree.ofFields depth inner else Tree.ofFieldsInside depth inner

/-- What the decoder makes of the value of a link. -/
def NodeField.decodeLink (field : NodeField) (depth : Nat) : Value → Except (Bounded DecodeError) Tree :=
  field.decode .absent (field.ofFields depth)

namespace Tree

open Entries (valueOf)

theorem typeOf_eq_valueOf (fields : Entries Value) : typeOf fields = (valueOf fields "type").text? := by
  unfold typeOf valueOf
  cases fields.lookup "type" <;> rfl

/-- Whether a field holds an object is told by the value of its key. -/
theorem object?_valueOf (fields : Entries Value) (field : NodeField) :
    (object? fields field = .ok none ∧ valueOf fields field.key = .null) ∨
    (∃ inner h, object? fields field = .ok (some ⟨inner, h⟩) ∧
      valueOf fields field.key = .object inner) ∨
    (object? fields field = .error (.fieldNotAnObject field) ∧
      ∀ {α : Type} (absent : α) decode, field.decode absent decode (valueOf fields field.key) =
        .error (.because (.fieldNotAnObject field))) := by
  unfold object? valueOf
  split
  · rename_i hlookup
    exact .inl ⟨rfl, by rw [hlookup]; rfl⟩
  · rename_i hlookup
    exact .inl ⟨rfl, by rw [hlookup]; rfl⟩
  · rename_i inner hlookup
    exact .inr (.inl ⟨inner, sizeOf_lt_of_lookup hlookup, rfl, by rw [hlookup]; rfl⟩)
  · rename_i v hnull hobject hlookup
    refine .inr (.inr ⟨rfl, fun absent decode => ?_⟩)
    rw [hlookup]
    cases v with
    | null => exact absurd rfl hnull
    | object inner => exact absurd rfl (hobject inner)
    | _ => rfl

theorem paramsOf_eq_valueOf (fields : Entries Value) :
    paramsOf fields = NodeField.params.decode [] .ok (valueOf fields NodeField.params.key) := by
  unfold paramsOf
  obtain ⟨hobject, hvalue⟩ | ⟨inner, _, hobject, hvalue⟩ | ⟨hobject, hvalue⟩ :=
    object?_valueOf fields .params
  · rw [hobject, hvalue]
    rfl
  · rw [hobject, hvalue]
    rfl
  · rw [hobject, hvalue]

theorem link_eq_valueOf (fields : Entries Value) (field : NodeField)
    (decode : Entries Value → Except (Bounded DecodeError) Tree) :
    link fields field (fun inner _ => decode inner) =
      field.decode .absent decode (valueOf fields field.key) := by
  unfold link
  obtain ⟨hobject, hvalue⟩ | ⟨inner, _, hobject, hvalue⟩ | ⟨hobject, hvalue⟩ :=
    object?_valueOf fields field
  · rw [hobject, hvalue]
    rfl
  · rw [hobject, hvalue]
    rfl
  · rw [hobject, hvalue]

/-- **A node is made of the values of six keys.** -/
theorem ofFields_eq_valueOf (depth : Nat) (fields : Entries Value) :
    ofFields depth fields = do
      let params ← NodeField.params.decode [] .ok (valueOf fields NodeField.params.key)
      let whenTrue ← NodeField.whenTrue.decodeLink depth (valueOf fields NodeField.whenTrue.key)
      let whenFalse ← NodeField.whenFalse.decodeLink depth (valueOf fields NodeField.whenFalse.key)
      let body ← NodeField.body.decodeLink depth (valueOf fields NodeField.body.key)
      let next ← NodeField.next.decodeLink depth (valueOf fields NodeField.next.key)
      return .node (valueOf fields "type").text? params whenTrue whenFalse body next := by
  rw [ofFields_eq, typeOf_eq_valueOf, paramsOf_eq_valueOf]
  simp only [link_eq_valueOf]
  rfl

end Tree

/-! ### What the compiler uses -/

/-- The scalar that a value is, if it is one. -/
def Value.scalar? : Value → Option Scalar
  | .scalar s => some s
  | _ => none

/-- The links that a type uses. -/
def NodeType.links : NodeType → List NodeField
  | sms | email => [.next]
  | condition => [.whenTrue, .whenFalse, .next]
  | loop => [.body, .next]

/-- Two sets of parameters have the same scalars as the parameters that a type uses. -/
def NodeType.SameParams (known : NodeType) (params others : Entries Value) : Prop :=
  ∀ key ∈ known.keys, (Entries.valueOf params key).scalar? = (Entries.valueOf others key).scalar?

namespace Step

open Entries (valueOf)

variable {params others : Entries Value} {key : String}

/-- A parameter is a scalar just if its value is. -/
theorem lookup_eq_scalar_iff {s : Scalar} :
    params.lookup key = some (.scalar s) ↔ (valueOf params key).scalar? = some s := by
  unfold valueOf
  cases params.lookup key with
  | none => simp [Value.scalar?]
  | some v => cases v <;> simp [Value.scalar?]

theorem givenText?_congr (h : (valueOf params key).scalar? = (valueOf others key).scalar?) :
    givenText? params key = givenText? others key := by
  apply Option.ext
  intro text
  rw [givenText?_eq_some_iff, givenText?_eq_some_iff, lookup_eq_scalar_iff, lookup_eq_scalar_iff, h]

theorem naturalNumber?_eq_some_iff {count : Nat} :
    naturalNumber? params key = some count ↔
      ∃ n : Number, params.lookup key = some (.number n) ∧ n.whole? = some (count : Int) := by
  constructor
  · exact lookup_of_naturalNumber?
  · rintro ⟨n, hlookup, hwhole⟩
    simp only [naturalNumber?, hlookup, hwhole]

theorem naturalNumber?_congr (h : (valueOf params key).scalar? = (valueOf others key).scalar?) :
    naturalNumber? params key = naturalNumber? others key := by
  apply Option.ext
  intro count
  simp only [naturalNumber?_eq_some_iff, lookup_eq_scalar_iff, h]

theorem text?_eq_some_iff {text : String} :
    (params.lookup key).bind Value.text? = some text ↔ params.lookup key = some (.string text) := by
  constructor
  · exact lookup_of_text?
  · intro hlookup
    rw [hlookup]
    rfl

theorem text?_congr (h : (valueOf params key).scalar? = (valueOf others key).scalar?) :
    (params.lookup key).bind Value.text? = (others.lookup key).bind Value.text? := by
  apply Option.ext
  intro text
  rw [text?_eq_some_iff, text?_eq_some_iff, lookup_eq_scalar_iff, lookup_eq_scalar_iff, h]

/-- **A type asks its parameters for nothing but the scalars that it uses.** -/
theorem ofParams_congr {known : NodeType} (h : known.SameParams params others) :
    ofParams known params = ofParams known others := by
  cases known with
  | sms =>
    rw [ofParams, ofParams, givenText?_congr (h "phoneNumber" (by decide))]
  | email =>
    rw [ofParams, ofParams, givenText?_congr (h "sender" (by decide)),
      givenText?_congr (h "receiver" (by decide))]
  | condition =>
    rw [ofParams, ofParams, text?_congr (h "expression" (by decide))]
  | loop =>
    rw [ofParams, ofParams, naturalNumber?_congr (h "count" (by decide))]

end Step

namespace Tree

/-- The type of a node uses a link. -/
def UsesLink (type : Option String) (field : NodeField) : Prop :=
  ∃ known, type.bind NodeType.ofText? = some known ∧ field ∈ known.links

/-- The type of a node uses a parameter. -/
def UsesParam (type : Option String) (key : String) : Prop :=
  ∃ known, type.bind NodeType.ofText? = some known ∧ key ∈ known.keys

instance (type : Option String) (field : NodeField) : Decidable (UsesLink type field) :=
  inferInstanceAs (Decidable (∃ known, known ∈ type.bind NodeType.ofText? ∧ field ∈ known.links))

instance (type : Option String) (key : String) : Decidable (UsesParam type key) :=
  inferInstanceAs (Decidable (∃ known, known ∈ type.bind NodeType.ofText? ∧ key ∈ known.keys))

theorem step?_congr {type : Option String} {params others : Entries Value}
    (h : ∀ key, UsesParam type key →
      (Entries.valueOf params key).scalar? = (Entries.valueOf others key).scalar?) :
    step? type params = step? type others := by
  unfold step?
  cases hknown : type.bind NodeType.ofText? with
  | none => rfl
  | some known =>
    have hsame : known.SameParams params others := fun key hkey => h key ⟨known, hknown, hkey⟩
    exact congrArg (Except.map some) (Step.ofParams_congr hsame)

/-- Two trees differ in nothing that the compiler uses: nodes come to the same, and what hangs on the
links that they use is alike. -/
inductive Alike : Tree → Tree → Prop where
  | absent : Alike .absent .absent
  | node {type : Option String} {params params' : Entries Value}
      {whenTrue whenFalse body next whenTrue' whenFalse' body' next' : Tree} :
      step? type params = step? type params' →
      (UsesLink type .whenTrue → Alike whenTrue whenTrue') →
      (UsesLink type .whenFalse → Alike whenFalse whenFalse') →
      (UsesLink type .body → Alike body body') →
      (UsesLink type .next → Alike next next') →
      Alike (.node type params whenTrue whenFalse body next)
        (.node type params' whenTrue' whenFalse' body' next')

namespace Alike

variable {tree other : Tree}

theorem refl (tree : Tree) : Alike tree tree := by
  induction tree with
  | absent => exact .absent
  | node type params _ _ _ _ iht ihf ihb ihn =>
    exact .node rfl (fun _ => iht) (fun _ => ihf) (fun _ => ihb) (fun _ => ihn)

/-- The first nodes of trees that are alike are alike. -/
theorem head (h : Alike tree other) : Alike tree.head other.head := by
  cases h with
  | absent => exact .absent
  | node hstep htrue hfalse hbody _ => exact .node hstep htrue hfalse hbody fun _ => .absent

/-- **Trees that are alike compile to the same**, with the same notices, or to the same error. -/
theorem compile_eq (h : Alike tree other) (depth : Nat) : tree.compile depth = other.compile depth := by
  induction h generalizing depth with
  | absent => rfl
  | @node type params params' _ _ _ _ _ _ _ _ hstep _ _ _ _ iht ihf ihb ihn =>
    rw [compile, compile, ← hstep]
    cases houtcome : step? type params with
    | error e => rfl
    | ok found =>
      cases found with
      | none => rfl
      | some step =>
        -- What the step is decides the type, and so which links are used.
        cases given_of_step? houtcome with
        | sms =>
          rw [ihn ⟨.sms, rfl, by decide⟩]
        | email =>
          rw [ihn ⟨.email, rfl, by decide⟩]
        | condition =>
          rw [funext (iht ⟨.condition, rfl, by decide⟩), funext (ihf ⟨.condition, rfl, by decide⟩),
            ihn ⟨.condition, rfl, by decide⟩]
        | loop =>
          rw [funext (ihb ⟨.loop, rfl, by decide⟩), ihn ⟨.loop, rfl, by decide⟩]

end Alike

end Tree

/-! ### Outcomes of the decoder -/

/-- Two outcomes are the same error, or results that are related. -/
inductive OutcomesAgree {ε α β : Type} (R : α → β → Prop) : Except ε α → Except ε β → Prop where
  | error (e : ε) : OutcomesAgree R (.error e) (.error e)
  | ok {a : α} {b : β} : R a b → OutcomesAgree R (.ok a) (.ok b)

namespace OutcomesAgree

variable {ε α α' β β' : Type} {R : α → α' → Prop} {S : β → β' → Prop}

theorem refl {R : α → α → Prop} (h : ∀ a, R a a) (outcome : Except ε α) :
    OutcomesAgree R outcome outcome := by
  cases outcome with
  | error e => exact .error e
  | ok a => exact .ok (h a)

theorem imp {R' : α → α' → Prop} {x : Except ε α} {y : Except ε α'} (h : OutcomesAgree R x y)
    (himp : ∀ a b, R a b → R' a b) : OutcomesAgree R' x y := by
  cases h with
  | error e => exact .error e
  | ok hR => exact .ok (himp _ _ hR)

theorem bind {x : Except ε α} {y : Except ε α'} {f : α → Except ε β} {g : α' → Except ε β'}
    (h : OutcomesAgree R x y) (hfg : ∀ a b, R a b → OutcomesAgree S (f a) (g b)) :
    OutcomesAgree S (x >>= f) (y >>= g) := by
  cases h with
  | error e => exact .error e
  | ok hR => exact hfg _ _ hR

end OutcomesAgree

/-- Two trees are alike, if the type of the node before them uses the link to them. -/
def Tree.AlikeBehind (type : Option String) (field : NodeField) (tree other : Tree) : Prop :=
  Tree.UsesLink type field → tree.Alike other

section Node

open Entries (valueOf)

variable {depth : Nat} {fields others : Entries Value}

/-- **Nodes agree** if they have the same type, parameters that come to the same, and links that agree as
far as the type uses them. -/
theorem agree_ofFields (htype : (valueOf fields "type").text? = (valueOf others "type").text?)
    (hparams : OutcomesAgree
      (fun params params' => Tree.step? (valueOf fields "type").text? params =
        Tree.step? (valueOf fields "type").text? params')
      (NodeField.params.decode [] .ok (valueOf fields NodeField.params.key))
      (NodeField.params.decode [] .ok (valueOf others NodeField.params.key)))
    (hlinks : ∀ field : NodeField, field ≠ .params →
      OutcomesAgree (Tree.AlikeBehind (valueOf fields "type").text? field)
        (field.decodeLink depth (valueOf fields field.key))
        (field.decodeLink depth (valueOf others field.key))) :
    OutcomesAgree Tree.Alike (Tree.ofFields depth fields) (Tree.ofFields depth others) := by
  rw [Tree.ofFields_eq_valueOf, Tree.ofFields_eq_valueOf, ← htype]
  apply hparams.bind
  intro params params' hstep
  apply (hlinks .whenTrue nofun).bind
  intro whenTrue whenTrue' htrue
  apply (hlinks .whenFalse nofun).bind
  intro whenFalse whenFalse' hfalse
  apply (hlinks .body nofun).bind
  intro body body' hbody
  apply (hlinks .next nofun).bind
  intro next next' hnext
  exact .ok (.node hstep htrue hfalse hbody hnext)

theorem agree_refl_link (type : Option String) (field : NodeField) (depth : Nat) (v : Value) :
    OutcomesAgree (Tree.AlikeBehind type field) (field.decodeLink depth v) (field.decodeLink depth v) :=
  .refl (fun tree _ => .refl tree) _

theorem agree_refl_params (type : Option String) (v : Value) :
    OutcomesAgree (fun params params' => Tree.step? type params = Tree.step? type params')
      (NodeField.params.decode [] .ok v) (NodeField.params.decode [] .ok v) := by
  apply OutcomesAgree.refl
  intro params
  rfl

/-- Nodes agree that have the same values where a node asks for one. -/
theorem agree_of_valueOf_eq (htype : valueOf fields "type" = valueOf others "type")
    (hfields : ∀ field : NodeField, valueOf fields field.key = valueOf others field.key) :
    OutcomesAgree Tree.Alike (Tree.ofFields depth fields) (Tree.ofFields depth others) := by
  apply agree_ofFields
  · rw [htype]
  · rw [hfields]
    exact agree_refl_params _ _
  · intro field _
    rw [hfields]
    exact agree_refl_link _ field depth _

theorem NodeField.key_injective {field other : NodeField} (h : field.key = other.key) :
    field = other := by
  cases field <;> cases other <;> first | rfl | exact absurd h (by decide)

theorem NodeField.nesting_eq {field : NodeField} (h : field ≠ .next) : field.nesting = 1 := by
  cases field with
  | next => exact absurd rfl h
  | _ => rfl

theorem NodeField.key_ne_type (field : NodeField) : "type" ≠ field.key := by
  cases field <;> decide

/-- Both values are objects, or both are lists. -/
inductive Value.SameForm : Value → Value → Prop where
  | object (fields others : Entries Value) : SameForm (.object fields) (.object others)
  | list (items others : List Value) : SameForm (.list items) (.list others)

theorem Value.SameForm.text?_eq {v w : Value} (h : v.SameForm w) : v.text? = w.text? := by
  cases h <;> rfl

theorem Value.SameForm.scalar?_eq {v w : Value} (h : v.SameForm w) : v.scalar? = w.scalar? := by
  cases h <;> rfl

/-- What is behind a link agrees, if the values there agree with the depth that the link leaves. -/
theorem agree_decodeLink {type : Option String} {field : NodeField} {v w : Value} (hform : v.SameForm w)
    (h : OutcomesAgree Tree.Alike (Tree.ofValue (depth - Depth.decodedLink * field.nesting) v)
      (Tree.ofValue (depth - Depth.decodedLink * field.nesting) w)) :
    OutcomesAgree (Tree.AlikeBehind type field) (field.decodeLink depth v)
      (field.decodeLink depth w) := by
  have hbehind {x y : Except (Bounded DecodeError) Tree} (hxy : OutcomesAgree Tree.Alike x y) :
      OutcomesAgree (Tree.AlikeBehind type field) x y := hxy.imp fun _ _ halike _ => halike
  cases hform with
  | list items others => exact .error _
  | object fields others =>
    show OutcomesAgree _ (field.ofFields depth fields) (field.ofFields depth others)
    unfold NodeField.ofFields
    split
    · rename_i hnext
      subst hnext
      exact hbehind h
    · rename_i hnext
      unfold Tree.ofFieldsInside
      cases htake : Depth.take? Depth.decodedLink depth with
      | none => exact .error _
      | some inside =>
        rw [NodeField.nesting_eq hnext, Nat.mul_one, Depth.take?_eq_some.mp htake, Nat.add_sub_cancel] at h
        exact hbehind h

/-- **Nodes agree that differ in the value of one entry**, if it is the entry of a link and what is behind
it agrees, if it holds the parameters and they have the same scalars where they are used, or if nothing
asks for it. -/
theorem agree_replaced {before after : Entries Value} {key : String} {v w : Value} (hform : v.SameForm w)
    (hparams : key = NodeField.params.key → ∀ params params', v = .object params → w = .object params' →
      ∀ param, Tree.UsesParam (valueOf (before ++ (key, v) :: after) "type").text? param →
        (valueOf params param).scalar? = (valueOf params' param).scalar?)
    (hlink : ∀ field : NodeField, field ≠ .params → key = field.key →
      OutcomesAgree Tree.Alike (Tree.ofValue (depth - Depth.decodedLink * field.nesting) v)
        (Tree.ofValue (depth - Depth.decodedLink * field.nesting) w)) :
    OutcomesAgree Tree.Alike (Tree.ofFields depth (before ++ (key, v) :: after))
      (Tree.ofFields depth (before ++ (key, w) :: after)) := by
  apply agree_ofFields
  · obtain hsame | ⟨-, hv, hw⟩ := Entries.valueOf_replaced before after key v w "type"
    · rw [hsame]
    · rw [hv, hw, hform.text?_eq]
  · obtain hsame | ⟨hkey, hv, hw⟩ :=
      Entries.valueOf_replaced before after key v w NodeField.params.key
    · rw [hsame]
      exact agree_refl_params _ _
    · rw [hv, hw]
      cases hform with
      | list items others => exact .error _
      | object params params' =>
        exact .ok (Tree.step?_congr (hparams hkey.symm params params' rfl rfl))
  · intro field hfield
    obtain hsame | ⟨hkey, hv, hw⟩ := Entries.valueOf_replaced before after key v w field.key
    · rw [hsame]
      exact agree_refl_link _ field depth _
    · rw [hv, hw]
      exact agree_decodeLink hform (hlink field hfield hkey.symm)

end Node

/-! ### Changes that do not matter -/

/-- `v.Reorders w`: the keys of one object in the first value, at whatever place, stand in another order
in the second. -/
inductive Value.Reorders : Value → Value → Prop where
  /-- The object itself, in which no key stands twice. -/
  | keys {fields others : Entries Value} :
      (Entries.keys fields).Nodup → fields.Perm others → Reorders (.object fields) (.object others)
  /-- An object in a field. -/
  | field (before after : Entries Value) (key : String) {v w : Value} :
      Reorders v w →
      Reorders (.object (before ++ (key, v) :: after)) (.object (before ++ (key, w) :: after))
  /-- An object in a list. -/
  | item (before after : List Value) {v w : Value} :
      Reorders v w → Reorders (.list (before ++ v :: after)) (.list (before ++ w :: after))

/-- The keys that are asked for in the object of a node. -/
def Tree.keys : List String :=
  "type" :: [NodeField.params, .whenTrue, .whenFalse, .body, .next].map NodeField.key

/-- An object has the shape of a node at so many links, with everything that hangs on it, and decoding
it does not go too deep. -/
structure WellShaped (depth links : Nat) (fields : Entries Value) : Prop where
  sound : ∀ e, ¬(Value.object fields).HasDefect e
  within : ∀ inside, (Value.object fields).Nests inside → Depth.decodedLink * (links + inside) ≤ depth

/-- Parameters that differ in one entry, which does not matter to a node of this type. -/
inductive ParamEdit (type : Option String) : Entries Value → Entries Value → Prop where
  /-- A parameter that the type does not use. -/
  | unread (before after : Entries Value) (key : String) (v : Value) :
      ¬Tree.UsesParam type key → ParamEdit type (before ++ after) (before ++ (key, v) :: after)
  /-- A parameter that is not there, written as null. -/
  | null (before after : Entries Value) (key : String) :
      key ∉ Entries.keys (before ++ after) →
      ParamEdit type (before ++ after) (before ++ (key, .null) :: after)

/-- `Edit depth v w`: the second value comes from the first by one change that does not matter to a tree
that is decoded within the depth. -/
inductive Edit : Nat → Value → Value → Prop where
  /-- The keys of an object in another order. -/
  | reorder {depth : Nat} {v w : Value} : v.Reorders w → Edit depth v w
  /-- A key of a node that nothing asks for. -/
  | unread {depth : Nat} (before after : Entries Value) (key : String) (v : Value) :
      key ∉ Tree.keys → Edit depth (.object (before ++ after)) (.object (before ++ (key, v) :: after))
  /-- A key of a node that is not there, written as null. -/
  | null {depth : Nat} (before after : Entries Value) (key : String) :
      key ∉ Entries.keys (before ++ after) →
      Edit depth (.object (before ++ after)) (.object (before ++ (key, .null) :: after))
  /-- A link that the type of a node does not use. -/
  | unusedLink {depth : Nat} (before after : Entries Value) (field : NodeField)
      {inner : Entries Value} :
      field ≠ .params → field.key ∉ Entries.keys (before ++ after) →
      ¬Tree.UsesLink (Tree.typeOf (before ++ after)) field → WellShaped depth field.nesting inner →
      Edit depth (.object (before ++ after)) (.object (before ++ (field.key, .object inner) :: after))
  /-- The parameters of a node. -/
  | param {depth : Nat} (before after : Entries Value) {params others : Entries Value} :
      ParamEdit (Tree.typeOf (before ++ after)) params others →
      Edit depth (.object (before ++ (NodeField.params.key, .object params) :: after))
        (.object (before ++ (NodeField.params.key, .object others) :: after))
  /-- What is behind a link. -/
  | inside {depth : Nat} (before after : Entries Value) (field : NodeField) {v w : Value} :
      field ≠ .params → Edit (depth - Depth.decodedLink * field.nesting) v w →
      Edit depth (.object (before ++ (field.key, v) :: after))
        (.object (before ++ (field.key, w) :: after))

theorem Value.Reorders.sameForm {v w : Value} (h : v.Reorders w) : v.SameForm w := by
  cases h with
  | keys => exact .object _ _
  | field => exact .object _ _
  | item => exact .list _ _

theorem Edit.sameForm {depth : Nat} {v w : Value} (h : Edit depth v w) : v.SameForm w := by
  cases h with
  | reorder h => exact h.sameForm
  | _ => exact .object _ _

/-- Scalars have no keys, so they stay where they are. -/
theorem Value.Reorders.scalar?_valueOf {params others : Entries Value}
    (h : (Value.object params).Reorders (.object others)) (key : String) :
    (Entries.valueOf params key).scalar? = (Entries.valueOf others key).scalar? := by
  cases h with
  | keys hnodup hperm => rw [Entries.valueOf_of_perm hperm hnodup]
  | field before after other h =>
    obtain hsame | ⟨-, hv, hw⟩ := Entries.valueOf_replaced before after other _ _ key
    · rw [hsame]
    · rw [hv, hw, h.sameForm.scalar?_eq]

/-- **The order of keys does not matter.** -/
theorem Value.Reorders.agree {v w : Value} (h : v.Reorders w) (depth : Nat) :
    OutcomesAgree Tree.Alike (Tree.ofValue depth v) (Tree.ofValue depth w) := by
  induction h generalizing depth with
  | keys hnodup hperm =>
    have hsame := Entries.valueOf_of_perm hperm hnodup
    exact agree_of_valueOf_eq (hsame "type") fun field => hsame field.key
  | field before after key h ih =>
    apply agree_replaced h.sameForm
    · intro _ params params' hv hw param _
      subst hv hw
      exact h.scalar?_valueOf param
    · intro field _ _
      exact ih _
  | item before after h ih => exact .error _

theorem ParamEdit.scalar?_eq {type : Option String} {params others : Entries Value}
    (h : ParamEdit type params others) {key : String} (huses : Tree.UsesParam type key) :
    (Entries.valueOf params key).scalar? = (Entries.valueOf others key).scalar? := by
  cases h with
  | unread before after other v hunused =>
    have hne : key ≠ other := fun h => hunused (h ▸ huses)
    rw [Entries.valueOf_add hne]
  | null before after other hnew => rw [Entries.valueOf_null hnew]

theorem WellShaped.ofFields {depth : Nat} {fields : Entries Value} (h : WellShaped depth 0 fields) :
    ∃ tree, Tree.ofFields depth fields = .ok tree := by
  have hdecoded := Tree.ofFields_decoded depth fields
  cases houtcome : Tree.ofFields depth fields with
  | ok tree => exact ⟨tree, rfl⟩
  | error stop =>
    rw [houtcome] at hdecoded
    cases stop with
    | because e => exact absurd hdecoded (h.sound e)
    | tooDeep =>
      obtain ⟨links, hlinks, hdeep⟩ := hdecoded
      have hwithin := h.within links hlinks
      rw [Nat.zero_add] at hwithin
      exact absurd hdeep (Nat.not_lt.mpr hwithin)

/-- What is well shaped has a tree, behind whatever link. -/
theorem WellShaped.decodeLink {depth : Nat} {field : NodeField} {inner : Entries Value}
    (h : WellShaped depth field.nesting inner) :
    ∃ tree, field.decodeLink depth (.object inner) = .ok tree := by
  show ∃ tree, field.ofFields depth inner = .ok tree
  unfold NodeField.ofFields
  split
  · rename_i hnext
    subst hnext
    exact h.ofFields
  · rename_i hnext
    rw [NodeField.nesting_eq hnext] at h
    have hroot : Depth.decodedLink ≤ depth := h.within 0 ⟨inner, inner, rfl, .root inner⟩
    have hinside : WellShaped (depth - Depth.decodedLink) 0 inner := by
      refine ⟨h.sound, fun links hlinks => ?_⟩
      have hwithin := h.within links hlinks
      simp only [Depth.decodedLink] at hwithin ⊢
      omega
    have htake : Depth.take? Depth.decodedLink depth = some (depth - Depth.decodedLink) :=
      Depth.take?_eq_some.mpr (Nat.sub_add_cancel hroot).symm
    rw [Tree.ofFieldsInside, htake]
    exact hinside.ofFields

/-- **No change matters** to the outcome of the decoder, up to what is not used. -/
theorem Edit.agree {depth : Nat} {v w : Value} (h : Edit depth v w) :
    OutcomesAgree Tree.Alike (Tree.ofValue depth v) (Tree.ofValue depth w) := by
  induction h with
  | reorder h => exact h.agree _
  | unread before after key v hunread =>
    have hne {other : String} (hother : other ∈ Tree.keys) : other ≠ key := fun h => hunread (h ▸ hother)
    apply agree_of_valueOf_eq
    · rw [Entries.valueOf_add (hne List.mem_cons_self)]
    · intro field
      rw [Entries.valueOf_add (hne _)]
      cases field <;> decide
  | null before after key hnew =>
    have hsame := Entries.valueOf_null hnew
    exact agree_of_valueOf_eq (hsame "type") fun field => hsame field.key
  | unusedLink before after unused hunused hnew huses hshape =>
    apply agree_ofFields
    · rw [Entries.valueOf_add unused.key_ne_type]
    · have hne : NodeField.params.key ≠ unused.key := fun h => hunused (NodeField.key_injective h).symm
      rw [Entries.valueOf_add hne]
      exact agree_refl_params _ _
    · intro field _
      by_cases hkey : field.key = unused.key
      · obtain rfl := NodeField.key_injective hkey
        obtain ⟨tree, htree⟩ := hshape.decodeLink
        rw [Entries.valueOf_of_notMem hnew, Entries.valueOf_added hnew, htree]
        rw [Tree.typeOf_eq_valueOf] at huses
        exact .ok fun h => absurd h huses
      · rw [Entries.valueOf_add hkey]
        exact agree_refl_link _ field _ _
  | param before after h =>
    apply agree_replaced (.object _ _)
    · intro _ params params' hv hw param huses
      cases hv
      cases hw
      rw [Entries.valueOf_add (NodeField.key_ne_type _), ← Tree.typeOf_eq_valueOf] at huses
      exact h.scalar?_eq huses
    · intro field hfield hkey
      exact absurd (NodeField.key_injective hkey).symm hfield
  | inside before after link hlink h ih =>
    apply agree_replaced h.sameForm
    · intro hkey
      exact absurd (NodeField.key_injective hkey) hlink
    · intro field _ hkey
      obtain rfl := NodeField.key_injective hkey
      exact ih

/-! ### What is compiled -/

theorem OutcomesAgree.ofTree_eq {x y : Except (Bounded DecodeError) Tree}
    (h : OutcomesAgree Tree.Alike x y) (depth : Nat) :
    Compiled.ofTree depth x = Compiled.ofTree depth y := by
  cases h with
  | error e => rfl
  | ok halike =>
    unfold Compiled.ofTree
    simp only [halike.compile_eq]

theorem OutcomesAgree.head {x y : Except (Bounded DecodeError) Tree}
    (h : OutcomesAgree Tree.Alike x y) : OutcomesAgree Tree.Alike (x.map Tree.head) (y.map Tree.head) := by
  cases h with
  | error e => exact .error e
  | ok halike => exact .ok halike.head

theorem Edit.compile_eq {depth : Nat} {v w : Value} (h : Edit depth v w) :
    compileValue depth v = compileValue depth w ∧ compileHead depth v = compileHead depth w := by
  have hagree := h.agree
  cases h.sameForm <;> exact ⟨hagree.ofTree_eq depth, hagree.head.ofTree_eq depth⟩

/-- **What does not matter.**  Two values may differ in the order of the keys of objects at any depth, in
entries that no node asks for, in entries that are not there or null, and in what hangs on links that the
types of nodes do not use, if it is well shaped.  Still their chains compile to the same action, or stop
for the same reason, with the same notices, and so do their first nodes; and with whatever variables, what
a run reports is the same. -/
theorem compile_of_edits {depth : Nat} {v w : Value} (h : Relation.EqvGen (Edit depth) v w) :
    compileValue depth v = compileValue depth w ∧ compileHead depth v = compileHead depth w ∧
    ∀ room vars,
      (compileValue depth v).result.map (fun a => (a.execute room .plain vars).trail) =
        (compileValue depth w).result.map fun a => (a.execute room .plain vars).trail := by
  have hsame : compileValue depth v = compileValue depth w ∧
      compileHead depth v = compileHead depth w := by
    induction h with
    | rel _ _ h => exact h.compile_eq
    | refl _ => exact ⟨rfl, rfl⟩
    | symm _ _ _ ih => exact ⟨ih.1.symm, ih.2.symm⟩
    | trans _ _ _ _ _ ih ih' => exact ⟨ih.1.trans ih'.1, ih.2.trans ih'.2⟩
  refine ⟨hsame.1, hsame.2, fun room vars => ?_⟩
  rw [hsame.1]

/-- A loop around a text message, written in two ways. -/
theorem compile_of_edits_loop :
    let number : String × Value := ("phoneNumber", .string "1")
    let count : String × Value := ("count", .integer (-1))
    let fax : Entries Value := [("type", .string "fax"), ("params", .object [count])]
    let message (links params : Entries Value) : Value :=
      .object ([("type", .string "sms")] ++ (links ++ [("params", .object params)]))
    let type : String × Value := ("type", .string "loop")
    let params : String × Value := ("params", .object [("count", .integer 1)])
    let v : Value := .object [type, params, ("subtree", message [] [number])]
    let w : Value := .object [("next", .null), ("note", .list []),
      ("subtree", message [("subtree", .object fax)] [count, number]), params, type]
    Relation.EqvGen (Edit Depth.standard) v w ∧
      compileValue Depth.standard v = compileValue Depth.standard w ∧
      (compileValue Depth.standard w).result = .ok (.loop 1 (.sms "1")) := by
  intro number count fax message type params v w
  have hfax : WellShaped (Depth.standard - Depth.decodedLink) 1 fax := by
    have hdecoded := Tree.ofFields_decoded Depth.standard fax
    have htree : Tree.ofFields Depth.standard fax =
        .ok (.node (some "fax") [count] .absent .absent .absent .absent) :=
      eq_ok_of_toOption (by decide +kernel)
    rw [htree] at hdecoded
    refine ⟨hdecoded.1, fun inside hinside => ?_⟩
    obtain ⟨fields, node, hfields, hnode⟩ := hinside
    cases hfields
    cases hnode with
    | root => decide
    | @link _ _ _ _ field hfield hlookup _ =>
      cases field with
      | params => exact absurd rfl hfield
      | _ => cases hlookup
  have hedits : Relation.EqvGen (Edit Depth.standard) v w := by
    have hinside {x y : Value} (h : Edit (Depth.standard - Depth.decodedLink) x y) :
        Relation.EqvGen (Edit Depth.standard) (.object [type, params, ("subtree", x)])
          (.object [type, params, ("subtree", y)]) :=
      .rel _ _ (.inside [type, params] [] .body (by decide) h)
    have hcount : Edit (Depth.standard - Depth.decodedLink) (message [] [number])
        (message [] [count, number]) :=
      .param [("type", .string "sms")] [] (.unread [] [number] "count" (.integer (-1)) (by decide))
    have hlink : Edit (Depth.standard - Depth.decodedLink) (message [] [count, number])
        (message [("subtree", .object fax)] [count, number]) :=
      .unusedLink [("type", .string "sms")] [("params", .object [count, number])] .body
        (by decide) (by decide) (by decide) hfax
    have hlast (body : Value) : Relation.EqvGen (Edit Depth.standard)
        (.object [type, params, ("subtree", body)])
        (.object [("next", .null), ("note", .list []), ("subtree", body), params, type]) := by
      have hnull : Edit Depth.standard (.object [type, params, ("subtree", body)])
          (.object [("next", .null), type, params, ("subtree", body)]) :=
        .null [] [type, params, ("subtree", body)] "next" (by simp [Entries.keys, type, params])
      have hnote : Edit Depth.standard (.object [("next", .null), type, params, ("subtree", body)])
          (.object [("next", .null), ("note", .list []), type, params, ("subtree", body)]) :=
        .unread [("next", .null)] [type, params, ("subtree", body)] "note" (.list []) (by decide)
      have hperm := (List.reverse_perm [("subtree", body), params, type]).cons ("note", .list [])
      have horder : Edit Depth.standard
          (.object [("next", .null), ("note", .list []), type, params, ("subtree", body)])
          (.object [("next", .null), ("note", .list []), ("subtree", body), params, type]) :=
        .reorder (.keys (by simp [Entries.keys, type, params]) (hperm.cons ("next", .null)))
      exact .trans _ _ _ (.rel _ _ hnull) (.trans _ _ _ (.rel _ _ hnote) (.rel _ _ horder))
    exact .trans _ _ _ (hinside hcount) (.trans _ _ _ (hinside hlink) (hlast _))
  exact ⟨hedits, (compile_of_edits hedits).1, eq_ok_of_toOption (by decide +kernel)⟩

end DecisionFlow
