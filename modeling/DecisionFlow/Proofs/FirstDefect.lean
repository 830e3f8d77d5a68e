import DecisionFlow.Proofs.Relevance
import Mathlib.Data.List.Lex

/-!
# Which defect of a value is reported

A value may be no tree for several reasons, and the decoder gives one of them.  It turns to the fields of a
node in one order and goes to the end of everything behind a link before it turns to the next field, so that
it comes upon the defects in the lexicographic order of their places.

* `NodeField.turn` — when the decoder turns to a field of a node;
* `DefectAt` — the place of a defect: the links that lead to the node that has it, and the field;
* `Earlier` — the order in which the decoder comes upon places;
* `Clean` — there is no defect at a field of a node, nor behind it;
* `FirstDefect` — the place of the first defect; `FirstDefect.here` and `FirstDefect.behind` find it node
  by node;
* `Tree.DecodedBefore`, `Tree.ofFields_stops` — what the decoder has done when it stops;
* `ofValue_reports_first` — the outcome of the decoder, for a value that is not too deep.
-/

namespace DecisionFlow

/-! ### Places -/

/-- When the decoder turns to a field of a node. -/
def NodeField.turn : NodeField → Nat
  | params => 0
  | whenTrue => 1
  | whenFalse => 2
  | body => 3
  | next => 4

theorem NodeField.turn_injective : Function.Injective NodeField.turn := by
  intro field other h
  cases field <;> cases other <;> first | rfl | cases h

/-- `DefectAt fields place`: the last field of the place holds what it may not hold, at the node that the
links in front of it lead to. -/
inductive DefectAt : Entries Value → List NodeField → Prop where
  | here {fields : Entries Value} {field : NodeField} : ¬field.Accepts fields → DefectAt fields [field]
  | behind {fields inner : Entries Value} {field : NodeField} {place : List NodeField} :
      field ≠ .params → fields.lookup field.key = some (.object inner) → DefectAt inner place →
      DefectAt fields (field :: place)

/-- One place comes before another: it has the earlier field where the two part. -/
def Earlier : List NodeField → List NodeField → Prop :=
  List.Lex fun field other => field.turn < other.turn

/-- The place of the first defect. -/
structure FirstDefect (fields : Entries Value) (place : List NodeField) : Prop where
  /-- There is a defect at the place. -/
  defect : DefectAt fields place
  /-- Every other defect is at a later place. -/
  earlier : ∀ other, DefectAt fields other → other ≠ place → Earlier place other

variable {fields inner : Entries Value} {field : NodeField} {place : List NodeField}

theorem Earlier.asymm {other : List NodeField} (h : Earlier place other) : ¬Earlier other place := by
  have hturn : Std.Asymm fun field other : NodeField => field.turn < other.turn :=
    ⟨fun _ _ => Nat.lt_asymm⟩
  exact (List.Lex.asymm _).asymm _ _ h

/-- There is one first defect. -/
theorem FirstDefect.unique {other : List NodeField} (h : FirstDefect fields place)
    (hother : FirstDefect fields other) : other = place := by
  by_contra hne
  exact (h.earlier other hother.defect hne).asymm (hother.earlier place h.defect (Ne.symm hne))

namespace DefectAt

/-- A defect at a place is a defect of the object. -/
theorem exists_hasDefect (h : DefectAt fields place) : ∃ e, Value.HasDefect (.object fields) e := by
  induction h with
  | here hrejects => exact ⟨_, .field (.root _) hrejects⟩
  | behind hfield hlookup _ ih =>
    obtain ⟨e, he⟩ := ih
    exact ⟨e, he.of_link hfield hlookup⟩

/-- A place is at the field that it begins with, or behind it. -/
theorem cases_cons (h : DefectAt fields (field :: place)) :
    (place = [] ∧ ¬field.Accepts fields) ∨
      ∃ inner, fields.lookup field.key = some (.object inner) ∧ DefectAt inner place := by
  cases h with
  | here hrejects => exact .inl ⟨rfl, hrejects⟩
  | behind _ hlookup hinner => exact .inr ⟨_, hlookup, hinner⟩

/-- There is nothing behind a field that holds what it may not hold. -/
theorem eq_nil (h : DefectAt fields (field :: place)) (hrejects : ¬field.Accepts fields) :
    place = [] := by
  rcases h.cases_cons with ⟨hplace, -⟩ | ⟨inner, hlookup, -⟩
  · exact hplace
  · exact absurd (NodeField.accepts_of_lookup hlookup) hrejects

/-- Behind a link, the places are those of the object there. -/
theorem of_lookup (h : DefectAt fields (field :: place))
    (hlookup : fields.lookup field.key = some (.object inner)) : DefectAt inner place := by
  rcases h.cases_cons with ⟨-, hrejects⟩ | ⟨found, hfound, hplace⟩
  · exact absurd (NodeField.accepts_of_lookup hlookup) hrejects
  · rw [hlookup] at hfound
    cases hfound
    exact hplace

end DefectAt

/-- `Clean fields field`: there is no defect at a field of a node, nor behind it. -/
def Clean (fields : Entries Value) (field : NodeField) : Prop :=
  ∀ place, ¬DefectAt fields (field :: place)

namespace Clean

/-- Parameters are clean that may be there. -/
theorem params (h : NodeField.params.Accepts fields) : Clean fields .params := by
  intro place hplace
  cases hplace with
  | here hrejects => exact hrejects h
  | behind hfield _ _ => exact hfield rfl

/-- A field is clean that is not there, or null. -/
theorem of_blank (h : ∀ v, fields.lookup field.key = some v → v = .null) : Clean fields field := by
  intro place hplace
  rcases hplace.cases_cons with ⟨-, hrejects⟩ | ⟨inner, hlookup, -⟩
  · exact hrejects fun v hv => .inl (h v hv)
  · cases h _ hlookup

end Clean

namespace FirstDefect

/-- Where the fields are clean that have an earlier turn, the first defect of a field is the first one. -/
theorem of_clean (hdefect : DefectAt fields (field :: place))
    (hclean : ∀ other : NodeField, other.turn < field.turn → Clean fields other)
    (hplace : ∀ other, DefectAt fields (field :: other) → other ≠ place → Earlier place other) :
    FirstDefect fields (field :: place) := by
  refine ⟨hdefect, fun other hother hne => ?_⟩
  cases other with
  | nil => cases hother
  | cons first rest =>
    rcases Nat.lt_trichotomy first.turn field.turn with hlt | hsame | hlt
    · exact absurd hother (hclean first hlt rest)
    · obtain rfl := NodeField.turn_injective hsame
      exact .cons (hplace rest hother fun h => hne (h ▸ rfl))
    · exact .rel hlt

/-- The first defect is at a field of the node itself. -/
theorem here (hrejects : ¬field.Accepts fields)
    (hclean : ∀ other : NodeField, other.turn < field.turn → Clean fields other) :
    FirstDefect fields [field] :=
  of_clean (.here hrejects) hclean fun _ hother hne => absurd (hother.eq_nil hrejects) hne

/-- The first defect is the first one behind a link. -/
theorem behind (hfield : field ≠ .params) (hlookup : fields.lookup field.key = some (.object inner))
    (hfirst : FirstDefect inner place)
    (hclean : ∀ other : NodeField, other.turn < field.turn → Clean fields other) :
    FirstDefect fields (field :: place) :=
  of_clean (.behind hfield hlookup hfirst.defect) hclean fun other hother =>
    hfirst.earlier other (hother.of_lookup hlookup)

end FirstDefect

/-! ### Where the decoder stops -/

namespace Tree

open Entries (valueOf lookup_of_valueOf)

variable {depth : Nat} {stop : Bounded DecodeError} {e : DecodeError}

/-- A sequence stops in its first part, or after it. -/
theorem stops_of_bind {α β : Type} {x : Except (Bounded DecodeError) α}
    {f : α → Except (Bounded DecodeError) β} (h : x >>= f = .error stop) :
    x = .error stop ∨ ∃ a, x = .ok a ∧ f a = .error stop := by
  cases x with
  | error early =>
    cases h
    exact .inl rfl
  | ok a => exact .inr ⟨a, rfl, h⟩

/-- All links of a node have been decoded whose turn comes before a given one. -/
def DecodedBefore (depth : Nat) (fields : Entries Value) (turn : Nat) : Prop :=
  ∀ other : NodeField, other ≠ .params → other.turn < turn →
    ∃ tree, other.decodeLink depth (valueOf fields other.key) = .ok tree

/-- The branch for a condition that holds is the first link. -/
theorem decodedBefore_whenTrue (depth : Nat) (fields : Entries Value) :
    DecodedBefore depth fields NodeField.whenTrue.turn := by
  intro other hother hturn
  cases other with
  | params => exact absurd rfl hother
  | _ => exact absurd hturn (by decide)

/-- One more link. -/
theorem DecodedBefore.succ {tree : Tree} (h : DecodedBefore depth fields field.turn)
    (hok : field.decodeLink depth (valueOf fields field.key) = .ok tree) :
    DecodedBefore depth fields (field.turn + 1) := by
  intro other hother hturn
  rcases Nat.lt_succ_iff_lt_or_eq.mp hturn with hlt | hsame
  · exact h other hother hlt
  · obtain rfl := NodeField.turn_injective hsame
    exact ⟨tree, hok⟩

/-- **What the decoder has done when it stops at a node**: it has stopped at the parameters, or at a link
after the parameters and all links that have an earlier turn. -/
theorem ofFields_stops (h : ofFields depth fields = .error stop) :
    paramsOf fields = .error stop ∨
      (∃ params, paramsOf fields = .ok params) ∧
        ∃ field : NodeField, field ≠ .params ∧ DecodedBefore depth fields field.turn ∧
          field.decodeLink depth (valueOf fields field.key) = .error stop := by
  rw [ofFields_eq_valueOf, ← paramsOf_eq_valueOf] at h
  rcases stops_of_bind h with hparams | ⟨params, hparams, h⟩
  · exact .inl hparams
  refine .inr ⟨⟨params, hparams⟩, ?_⟩
  have htrue := decodedBefore_whenTrue depth fields
  rcases stops_of_bind h with hstop | ⟨whenTrue, hok, h⟩
  · exact ⟨.whenTrue, nofun, htrue, hstop⟩
  have hfalse : DecodedBefore depth fields NodeField.whenFalse.turn := htrue.succ hok
  rcases stops_of_bind h with hstop | ⟨whenFalse, hok, h⟩
  · exact ⟨.whenFalse, nofun, hfalse, hstop⟩
  have hbody : DecodedBefore depth fields NodeField.body.turn := hfalse.succ hok
  rcases stops_of_bind h with hstop | ⟨body, hok, h⟩
  · exact ⟨.body, nofun, hbody, hstop⟩
  have hnext : DecodedBefore depth fields NodeField.next.turn := hbody.succ hok
  rcases stops_of_bind h with hstop | ⟨next, hok, h⟩
  · exact ⟨.next, nofun, hnext, hstop⟩
  · cases h

/-- What a link is decoded to says of the link what it should. -/
theorem decodeLink_decoded (depth : Nat) (fields : Entries Value) {field : NodeField}
    (hfield : field ≠ .params) :
    DecodedLink depth fields field (field.decodeLink depth (valueOf fields field.key)) := by
  unfold NodeField.decodeLink
  rw [← link_eq_valueOf]
  refine link_decoded fun inner _ hlookup => ?_
  unfold NodeField.ofFields
  split
  · rename_i hnext
    subst hnext
    exact (ofFields_decoded depth inner).behind hfield hlookup (Nat.le_refl depth)
  · rename_i hnext
    exact ofFieldsInside_decoded hfield (NodeField.nesting_eq hnext) hlookup fun inside =>
      ofFields_decoded inside inner

/-- A link that has been decoded is clean. -/
theorem clean_of_decodeLink {tree : Tree} (hfield : field ≠ .params)
    (h : field.decodeLink depth (valueOf fields field.key) = .ok tree) : Clean fields field := by
  have hdecoded := decodeLink_decoded depth fields hfield
  rw [h] at hdecoded
  obtain ⟨haccepts, hsound, -⟩ := hdecoded
  intro place hplace
  rcases hplace.cases_cons with ⟨-, hrejects⟩ | ⟨inner, hlookup, hinner⟩
  · exact hrejects haccepts
  · obtain ⟨e, he⟩ := hinner.exists_hasDefect
    exact hsound inner e hlookup he

/-- An object behind a link fails as it does with the depth that is left for it. -/
theorem exists_of_ofFields_eq_error (h : field.ofFields depth inner = .error (.because e)) :
    ∃ inside, ofFields inside inner = .error (.because e) := by
  unfold NodeField.ofFields at h
  by_cases hnext : field = .next
  · rw [if_pos hnext] at h
    exact ⟨depth, h⟩
  · rw [if_neg hnext, ofFieldsInside] at h
    cases htake : Depth.take? Depth.decodedLink depth with
    | none =>
      rw [htake] at h
      cases h
    | some inside =>
      rw [htake] at h
      exact ⟨inside, h⟩

/-- A link that fails holds what it may not hold, or an object that fails. -/
theorem decodeLink_fails (h : field.decodeLink depth (valueOf fields field.key) = .error (.because e)) :
    (e = .fieldNotAnObject field ∧ ¬field.Accepts fields) ∨
      ∃ inner inside, fields.lookup field.key = some (.object inner) ∧
        ofFields inside inner = .error (.because e) := by
  have hrejects {v : Value} (hvalue : valueOf fields field.key = v) (hnull : v ≠ .null)
      (hobject : ∀ inner, v ≠ .object inner) : ¬field.Accepts fields := by
    intro haccepts
    rcases haccepts v (lookup_of_valueOf hvalue hnull) with rfl | ⟨inner, rfl⟩
    · exact hnull rfl
    · exact hobject inner rfl
  cases hvalue : valueOf fields field.key with
  | null =>
    rw [hvalue] at h
    cases h
  | object inner =>
    rw [hvalue] at h
    obtain ⟨inside, hinside⟩ := exists_of_ofFields_eq_error h
    exact .inr ⟨inner, inside, lookup_of_valueOf hvalue nofun, hinside⟩
  | scalar _ | list _ | foreign _ _ =>
    rw [hvalue] at h
    cases h
    exact .inl ⟨rfl, hrejects hvalue nofun nofun⟩

/-- **The error of an object is that of its first defect.** -/
theorem ofFields_first_defect (h : ofFields depth fields = .error (.because e)) :
    ∃ links field, FirstDefect fields (links ++ [field]) ∧ e = .fieldNotAnObject field := by
  -- the links lead to smaller objects, whatever depth they leave
  induction hsize : sizeOf fields using Nat.strongRecOn generalizing depth fields with
  | ind size ih =>
    subst hsize
    rcases ofFields_stops h with hparams | ⟨⟨params, hparams⟩, field, hfield, hdone, hstop⟩
    · rcases paramsOf_cases fields with ⟨hok, -⟩ | ⟨herror, hrejects⟩
      · rw [hok] at hparams
        cases hparams
      · rw [herror] at hparams
        cases hparams
        exact ⟨[], .params, .here hrejects fun _ hlt => absurd hlt (Nat.not_lt_zero _), rfl⟩
    · have haccepts : NodeField.params.Accepts fields := by
        rcases paramsOf_cases fields with ⟨-, haccepts⟩ | ⟨herror, -⟩
        · exact haccepts
        · rw [herror] at hparams
          cases hparams
      have hclean (other : NodeField) (hturn : other.turn < field.turn) : Clean fields other := by
        by_cases hother : other = .params
        · exact hother ▸ .params haccepts
        · obtain ⟨tree, htree⟩ := hdone other hother hturn
          exact clean_of_decodeLink hother htree
      rcases decodeLink_fails hstop with ⟨rfl, hrejects⟩ | ⟨inner, inside, hlookup, hinner⟩
      · exact ⟨[], field, .here hrejects hclean, rfl⟩
      · obtain ⟨links, last, hfirst, he⟩ := ih _ (sizeOf_lt_of_lookup hlookup) hinner rfl
        exact ⟨field :: links, last, .behind hfield hlookup hfirst hclean, he⟩

/-- What comes of a value that there is depth for. -/
theorem ofValue_cases {value : Value}
    (hnests : ∀ links, value.Nests links → Depth.decodedLink * links ≤ depth) :
    (∃ fields tree, value = .object fields ∧ ofValue depth value = .ok tree ∧
      Decodes (some fields) tree ∧ ∀ e, ¬value.HasDefect e) ∨
    (ofValue depth value = .error (.because .notAnObject) ∧ ∀ fields, value ≠ .object fields) ∨
    ∃ fields links field, value = .object fields ∧ FirstDefect fields (links ++ [field]) ∧
      ofValue depth value = .error (.because (.fieldNotAnObject field)) := by
  have hdecoded := ofValue_decoded depth value
  cases houtcome : ofValue depth value with
  | ok tree =>
    rw [houtcome] at hdecoded
    obtain ⟨hsound, fields, hvalue, hdecodes⟩ := hdecoded
    exact .inl ⟨fields, tree, hvalue, rfl, hdecodes, hsound⟩
  | error stop =>
    rw [houtcome] at hdecoded
    cases stop with
    | tooDeep =>
      obtain ⟨links, hlinks, hlt⟩ := hdecoded
      exact absurd (hnests links hlinks) (Nat.not_le.mpr hlt)
    | because e =>
      cases value with
      | object fields =>
        obtain ⟨links, field, hfirst, rfl⟩ := ofFields_first_defect houtcome
        exact .inr (.inr ⟨fields, links, field, rfl, hfirst, rfl⟩)
      | _ =>
        cases houtcome
        exact .inr (.inl ⟨rfl, nofun⟩)

end Tree

/-- **A value is decoded node by node, and the first defect is reported.**  Let there be depth for the links
of a value, where `next` costs none.  Then it has a tree if and only if it is an object and every node
holds nothing, null or an object as its parameters and as each of its links; and this tree is the one
that has the nodes of the value, with their types, their parameters and their links.  Otherwise it is no
object, and the error says so, or the error names the field of the first defect: at every node the
parameters come first, then all that is behind the two branches and the body, and then all that is behind
`next`. -/
theorem ofValue_reports_first {depth : Nat} {value : Value}
    (hnests : ∀ links, value.Nests links → Depth.decodedLink * links ≤ depth) :
    ((∃ tree, Tree.ofValue depth value = .ok tree) ↔
      ∃ fields, value = .object fields ∧
        ∀ links node, NodeAt fields links node → ∀ field : NodeField, field.Accepts node) ∧
    (∀ tree, Tree.ofValue depth value = .ok tree →
      ∃ fields, value = .object fields ∧ ∀ other, Decodes (some fields) other ↔ other = tree) ∧
    (Tree.ofValue depth value = .error (.because .notAnObject) ↔ ∀ fields, value ≠ .object fields) ∧
    (∀ field, Tree.ofValue depth value = .error (.because (.fieldNotAnObject field)) ↔
      ∃ fields links, value = .object fields ∧ FirstDefect fields (links ++ [field])) ∧
    ∀ stop, Tree.ofValue depth value = .error stop →
      ((∀ fields, value ≠ .object fields) ∧
        stop.message DecodeError.message = "ActionNode must be an object") ∨
      ∃ fields links field, value = .object fields ∧ FirstDefect fields (links ++ [field]) ∧
        stop.message DecodeError.message = "'" ++ field.key ++ "' must be an object" := by
  rcases Tree.ofValue_cases hnests with ⟨fields, tree, rfl, houtcome, hdecodes, hsound⟩ |
    ⟨houtcome, hvalue⟩ | ⟨fields, links, field, rfl, hfirst, houtcome⟩
  · rw [houtcome]
    refine ⟨⟨fun _ => ⟨fields, rfl, fun links node hnode field => ?_⟩, fun _ => ⟨tree, rfl⟩⟩, ?_,
      ⟨nofun, fun hvalue => absurd rfl (hvalue fields)⟩, fun field => ⟨nofun, ?_⟩, nofun⟩
    · by_contra hrejects
      exact hsound _ (.field hnode hrejects)
    · rintro _ ⟨⟩
      exact ⟨fields, rfl, fun other => ⟨fun hother => hother.unique hdecodes, fun h => h ▸ hdecodes⟩⟩
    · rintro ⟨_, links, ⟨⟩, hfirst⟩
      obtain ⟨e, he⟩ := hfirst.defect.exists_hasDefect
      exact absurd he (hsound e)
  · rw [houtcome]
    refine ⟨⟨nofun, ?_⟩, nofun, ⟨fun _ => hvalue, fun _ => rfl⟩, fun field => ⟨nofun, ?_⟩, ?_⟩
    · rintro ⟨fields, hobject, -⟩
      exact absurd hobject (hvalue fields)
    · rintro ⟨fields, links, hobject, -⟩
      exact absurd hobject (hvalue fields)
    · rintro _ ⟨⟩
      exact .inl ⟨hvalue, rfl⟩
  · rw [houtcome]
    refine ⟨⟨nofun, ?_⟩, nofun, ⟨nofun, fun hvalue => absurd rfl (hvalue fields)⟩,
      fun other => ⟨?_, ?_⟩, ?_⟩
    · rintro ⟨_, ⟨⟩, haccepts⟩
      obtain ⟨e, he⟩ := hfirst.defect.exists_hasDefect
      cases he with
      | notAnObject hvalue => exact absurd rfl (hvalue fields)
      | field hnode hrejects => exact absurd (haccepts _ _ hnode _) hrejects
    · rintro ⟨⟩
      exact ⟨fields, links, rfl, hfirst⟩
    · rintro ⟨_, others, ⟨⟩, hother⟩
      obtain ⟨-, hfield⟩ := List.append_inj' (hother.unique hfirst) rfl
      cases hfield
      rfl
    · rintro _ ⟨⟩
      exact .inr ⟨fields, links, field, rfl, hfirst, rfl⟩

/-- Of three defects the one is reported that is written last: it is behind the first branch. -/
theorem ofValue_reports_first_of_three :
    let branch : Entries Value := [("next", .object [("params", .integer 3)]), ("subtree", .null)]
    let fields : Entries Value :=
      [("next", .integer 1), ("falseAction", .integer 2), ("trueAction", .object branch)]
    (∀ links, (Value.object fields).Nests links → Depth.decodedLink * links ≤ 2) ∧
      DefectAt fields [.next] ∧ DefectAt fields [.whenFalse] ∧
      FirstDefect fields ([.whenTrue, .next] ++ [.params]) ∧
      Tree.ofValue 2 (.object fields) = .error (.because (.fieldNotAnObject .params)) := by
  intro branch fields
  have hlinks (links : Nat) (h : (Value.object fields).Nests links) : Depth.decodedLink * links ≤ 2 := by
    obtain ⟨_, node, ⟨⟩, hnode⟩ := h
    cases hnode with
    | root => decide
    | @link _ _ _ _ field hfield hlookup hnode =>
      cases field with
      | whenTrue =>
        cases hlookup
        cases hnode with
        | root => decide
        | @link _ _ _ _ field hfield hlookup hnode =>
          cases field with
          | next =>
            cases hlookup
            cases hnode with
            | root => decide
            | @link _ _ _ _ field hfield hlookup _ =>
              cases field with
              | params => exact absurd rfl hfield
              | _ => cases hlookup
          | params => exact absurd rfl hfield
          | _ => cases hlookup
      | params => exact absurd rfl hfield
      | _ => cases hlookup
  have hrejects {node : Entries Value} {field : NodeField} {n : Int}
      (hlookup : node.lookup field.key = some (.integer n)) : ¬field.Accepts node := by
    intro haccepts
    rcases haccepts _ hlookup with h | ⟨_, h⟩
    · cases h
    · cases h
  have hbranch : FirstDefect branch [.next, .params] := by
    refine .behind nofun rfl (.here (hrejects rfl) fun _ hturn => absurd hturn (Nat.not_lt_zero _))
      fun other hturn => .of_blank ?_
    cases other with
    | body => exact fun v hv => (Option.some.inj hv).symm
    | next => exact absurd hturn (by decide)
    | _ => exact nofun
  have hfirst : FirstDefect fields ([.whenTrue, .next] ++ [.params]) := by
    refine .behind nofun rfl hbranch fun other hturn => .of_blank ?_
    cases other with
    | params => exact nofun
    | _ => exact absurd hturn (by decide)
  obtain ⟨-, -, -, herror, -⟩ := ofValue_reports_first hlinks
  exact ⟨hlinks, .here (hrejects rfl), .here (hrejects rfl), hfirst,
    (herror .params).mpr ⟨fields, [.whenTrue, .next], rfl, hfirst⟩⟩

end DecisionFlow
