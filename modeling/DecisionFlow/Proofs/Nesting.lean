import DecisionFlow.Proofs.Completion

/-!
# Nesting is what takes depth

Decoding, compiling and running a tree take depth for the links into branches and bodies, and for no
others.  So whatever is nested no deeper than sixty of these links never goes too deep, however long
its chains are.

* `Value.linked`, `Tree.linked` — a node with one link;
* `Describes` — a value describes a tree without a defect or a fault, nested so deep;
* `Describes.linked` — one more link: a chain is nested no deeper for it;
* `Describes.messages` — a chain of text messages;
* `never_tooDeep` — what is nested no deeper than sixty links.
-/

namespace DecisionFlow

/-! ### One link -/

/-- A node of a known type, with what is behind one of its links. -/
def Value.linked (known : NodeType) (params : Entries Value) (field : NodeField) (behind : Value) :
    Value :=
  .object [("type", .string known.text), ("params", .object params), (field.key, behind)]

/-- The tree behind a link of a node that has none but the given one. -/
def Tree.behindLink (field : NodeField) (behind : Tree) (other : NodeField) : Tree :=
  if field = other then behind else .absent

/-- The tree of a node with one link. -/
def Tree.linked (known : NodeType) (params : Entries Value) (field : NodeField) (behind : Tree) : Tree :=
  .node (some known.text) params (behindLink field behind .whenTrue) (behindLink field behind .whenFalse)
    (behindLink field behind .body) (behindLink field behind .next)

/-- `Describes links value tree`: the value is null or an object, and describes the tree, without a
defect or a fault, with numbers that can be written, and with at most so many links other than `next`
on the way to a node. -/
structure Describes (links : Nat) (value : Value) (tree : Tree) : Prop where
  decodes : Decodes value.fields? tree
  accepted : value = .null ∨ ∃ fields, value = .object fields
  sound : value ≠ .null → ∀ e, ¬value.HasDefect e
  visited : ∀ node ∈ tree.visited, node.Sound
  writable : value.Writable
  nests : ∀ n, value.Nests n → n ≤ links

namespace Describes

variable {links : Nat} {behind : Value} {tree : Tree}

theorem null : Describes 0 .null .absent where
  decodes := .absent
  accepted := .inl rfl
  sound h := absurd rfl h
  visited := nofun
  writable := Value.writable_null
  nests := by rintro n ⟨fields, node, ⟨⟩, -⟩

variable {known : NodeType} {params : Entries Value} {field : NodeField}

/-- The links of a node with one link. -/
theorem lookup_linked (hfield : field ≠ .params) {other : NodeField} (hother : other ≠ .params) :
    List.lookup other.key
        [("type", .string known.text), ("params", .object params), (field.key, behind)] =
      if field = other then some behind else none := by
  cases field <;> cases other <;> first | exact absurd rfl hfield | exact absurd rfl hother | rfl

/-- **One more link**, which nests what is behind it if it is not that to the next node. -/
theorem linked (h : Describes links behind tree) (hfield : field ≠ .params)
    (hsound : Node.Sound ⟨some known.text, params⟩) (hparams : (Value.object params).Writable) :
    Describes (field.nesting + links) (.linked known params field behind)
      (.linked known params field tree) where
  decodes := by
    have hlink (other : NodeField) (hother : other ≠ .params) :
        Decodes (other.inner?
          [("type", .string known.text), ("params", .object params), (field.key, behind)])
          (Tree.behindLink field tree other) := by
      rw [NodeField.inner?, lookup_linked hfield hother, Tree.behindLink]
      split
      · exact h.decodes
      · exact .absent
    exact .node (hlink .whenTrue nofun) (hlink .whenFalse nofun) (hlink .body nofun)
      (hlink .next nofun)
  accepted := .inr ⟨_, rfl⟩
  sound _ e hdefect := by
    rcases Value.HasDefect.cases_object hdefect with ⟨other, hrejects⟩ |
      ⟨other, inner, hother, hlookup, hinner⟩
    · refine hrejects fun v hlookup => ?_
      by_cases hother : other = .params
      · subst hother
        obtain rfl : Value.object params = v := Option.some.inj hlookup
        exact .inr ⟨params, rfl⟩
      · rw [lookup_linked hfield hother] at hlookup
        split at hlookup
        · obtain rfl := Option.some.inj hlookup
          exact h.accepted
        · cases hlookup
    · rw [lookup_linked hfield hother] at hlookup
      split at hlookup
      · obtain rfl := Option.some.inj hlookup
        exact h.sound nofun e hinner
      · cases hlookup
  visited := by
    have hlink (other : NodeField) :
        ∀ node ∈ (Tree.behindLink field tree other).visited, node.Sound := by
      rw [Tree.behindLink]
      split
      · exact h.visited
      · exact nofun
    refine List.forall_mem_cons.mpr ⟨hsound, ?_⟩
    have happend {xs ys : List Node} (hxs : ∀ node ∈ xs, node.Sound) (hys : ∀ node ∈ ys, node.Sound) :
        ∀ node ∈ xs ++ ys, node.Sound := List.forall_mem_append.mpr ⟨hxs, hys⟩
    cases known with
    | sms | email => exact hlink .next
    | condition => exact happend (hlink .whenTrue) (happend (hlink .whenFalse) (hlink .next))
    | loop => exact happend (hlink .body) (hlink .next)
  writable := by
    refine Value.writable_object (List.forall_mem_cons.mpr ⟨Value.writable_string _, ?_⟩)
    exact List.forall_mem_cons.mpr ⟨hparams, List.forall_mem_singleton.mpr h.writable⟩
  nests := by
    rintro n ⟨fields, node, ⟨⟩, hnode⟩
    cases hnode with
    | root => exact Nat.zero_le _
    | link hother hlookup hinner =>
      rw [lookup_linked hfield hother] at hlookup
      split at hlookup
      · obtain rfl := Option.some.inj hlookup
        subst_vars
        exact Nat.add_le_add_left (h.nests _ ⟨_, _, rfl, hinner⟩) _
      · cases hlookup

/-- A node that describes a tree is valid. -/
theorem isValid (h : Describes links (.linked known params field behind) tree) :
    (Value.linked known params field behind).IsValid :=
  ⟨_, tree, rfl, h.decodes, ⟨known, rfl⟩, h.sound nofun, h.visited⟩

/-- An object is decoded to the tree that it describes, if it is decoded. -/
theorem eq_of_ofValue {depth : Nat} {other : Tree} (h : Describes links behind tree)
    (hother : Tree.ofValue depth behind = .ok other) : other = tree := by
  have hdecoded := Tree.ofValue_decoded depth behind
  rw [hother] at hdecoded
  obtain ⟨-, fields, rfl, hdecodes⟩ := hdecoded
  exact hdecodes.unique h.decodes

end Describes

/-! ### Chains of text messages -/

/-- The parameters of a text message. -/
def Value.messageParams : Entries Value := [("phoneNumber", .string "1")]

/-- A chain of so many text messages. -/
def Value.messages : Nat → Value
  | 0 => .null
  | n + 1 => .linked .sms messageParams .next (messages n)

/-- The tree of a chain of so many text messages. -/
def Tree.messages : Nat → Tree
  | 0 => .absent
  | n + 1 => .linked .sms Value.messageParams .next (messages n)

/-- **A chain is not nested**, however long it is. -/
theorem Describes.messages (n : Nat) : Describes 0 (.messages n) (.messages n) := by
  have hsound : Node.Sound ⟨some NodeType.sms.text, Value.messageParams⟩ :=
    Node.sound_of_step? (rfl : Tree.step? _ _ = .ok (some (.sms "1")))
  have hparams : (Value.object Value.messageParams).Writable :=
    Value.writable_object (List.forall_mem_singleton.mpr (Value.writable_string "1"))
  induction n with
  | zero => exact .null
  | succ n ih => exact ih.linked (nofun : NodeField.next ≠ .params) hsound hparams

/-- All messages of a chain are sent. -/
theorem Tree.walk_messages (decide : Nat → String → Decision) (n room : Nat) :
    (Tree.messages n).walk decide room = List.replicate n (.smsSent "1") := by
  induction n with
  | zero => rfl
  | succ n ih =>
    show .smsSent "1" :: (Tree.messages n).walk decide room = _
    rw [ih]
    rfl

/-! ### What is too deep -/

/-- Decoding goes too deep only where there are more links than there is depth for. -/
theorem Tree.ofValue_ne_tooDeep {depth limit : Nat} {value : Value}
    (hlinks : ∀ links, value.Nests links → links ≤ limit) (hdepth : Depth.decodedLink * limit ≤ depth) :
    Tree.ofValue depth value ≠ .error .tooDeep := by
  intro hdeep
  have hdecoded := Tree.ofValue_decoded depth value
  rw [hdeep] at hdecoded
  obtain ⟨links, hnests, hlt⟩ := hdecoded
  have hlimit := Nat.mul_le_mul_left Depth.decodedLink (hlinks links hnests)
  omega

/-- So does compiling. -/
theorem compileValue_ne_tooDeep {depth limit : Nat} {value : Value}
    (hlinks : ∀ links, value.Nests links → links ≤ limit)
    (hdepth : Depth.compiledLink * (limit + 1) ≤ depth) :
    (compileValue depth value).result ≠ .error .tooDeep := by
  intro hdeep
  have hvalue : value ≠ .null := by
    rintro rfl
    cases hdeep
  obtain ⟨links, hnests, hlt⟩ := (compileValue_from depth hvalue).nests_of_tooDeep hdeep
  have hlimit := Nat.mul_le_mul_left Depth.compiledLink (Nat.add_le_add_right (hlinks links hnests) 1)
  omega

/-- No run of what compiles goes too deep. -/
theorem Compiles.execute_ne_tooDeep {depth room : Nat} {tree : Tree} {a : Action}
    (h : Compiles depth tree a) (hroom : depth ≤ room) (vars : Variables) :
    (a.execute room .plain vars).failure ≠ some .tooDeep := by
  cases hpresent : a.isPresent with
  | true =>
    have hfailure := (h.halts_run hpresent vars hroom).failure_eq
    unfold Action.execute
    rw [hfailure]
    split <;> exact nofun
  | false =>
    rw [Action.eq_absent_of_isPresent hpresent]
    exact nofun

/-- What compiles runs to the end of its chains, if its counts can be written. -/
theorem Compiles.execute_eq {depth room : Nat} {tree : Tree} {a : Action} (h : Compiles depth tree a)
    (hcounts : a.CountsWritable) (hpresent : a.isPresent = true) (hroom : depth ≤ room)
    (vars : Variables) :
    a.execute room .plain vars =
      ⟨vars, (tree.interpret (Condition.bounded vars) room).toArray, #[], none⟩ := by
  have hnodes := tree.le_nodeRoom room
  have hrun := h.simulates hcounts room hpresent (by
    simp only [Depth.delegation] at hnodes ⊢
    omega) (Run.start vars) rfl rfl
  unfold Action.execute
  rw [hrun]
  simp [Run.wrote, Run.start]

/-- What a value compiles to that can be written has counts that can be written. -/
theorem exists_compiles {depth : Nat} {value : Value} {a : Action}
    (hcompiled : (compileValue depth value).result = .ok a) (hwritable : value.Writable) :
    ∃ tree, Tree.ofValue depth value = .ok tree ∧ Compiles depth tree a ∧ a.CountsWritable := by
  obtain ⟨tree, htree, hresult⟩ := compileValue_eq_ok hcompiled
  have hdecoded := Tree.ofValue_decoded depth value
  rw [htree] at hdecoded
  obtain ⟨-, fields, rfl, hdecodes⟩ := hdecoded
  have hcompiles := compiles_of_ok hresult
  exact ⟨tree, htree, hcompiles,
    hcompiles.countsWritable (hdecodes.writable (by rintro _ ⟨⟩; exact hwritable))⟩

/-- **What is nested no deeper than sixty links never goes too deep**, however long its chains are: not
when it is decoded, not when it is compiled, and not when what it compiles to is run.  If it is valid,
and its numbers can be written, it compiles and its run comes to the end of every chain, with all that
the interpreter reports. -/
theorem never_tooDeep {value : Value} (hlinks : ∀ links, value.Nests links → links ≤ 60) :
    Tree.ofValue Depth.standard value ≠ .error .tooDeep ∧
    (compileValue Depth.standard value).result ≠ .error .tooDeep ∧
    (∀ a, (compileValue Depth.standard value).result = .ok a →
      ∀ vars, (a.execute Depth.standard .plain vars).failure ≠ some .tooDeep) ∧
    (value.IsValid → value.Writable → ∃ tree a, Tree.ofValue Depth.standard value = .ok tree ∧
      (compileValue Depth.standard value).result = .ok a ∧
      ∀ vars, a.execute Depth.standard .plain vars =
        ⟨vars, (tree.interpret (Condition.bounded vars) Depth.standard).toArray, #[], none⟩) := by
  have hshallow := compileValue_ne_tooDeep hlinks (by decide : _ ≤ Depth.standard)
  refine ⟨Tree.ofValue_ne_tooDeep hlinks (by decide), hshallow, fun a hcompiled vars => ?_,
    fun hvalid hwritable => ?_⟩
  · obtain ⟨tree, -, hresult⟩ := compileValue_eq_ok hcompiled
    exact (compiles_of_ok hresult).execute_ne_tooDeep (Nat.le_refl Depth.standard) vars
  · obtain ⟨a, -, hcompiled, habsent⟩ := (exists_admits_iff hshallow).mpr hvalid
    obtain ⟨tree, htree, hcompiles, hcounts⟩ := exists_compiles hcompiled hwritable
    have hpresent : a.isPresent = true := by
      cases hpresent : a.isPresent with
      | true => rfl
      | false => exact absurd (Action.eq_absent_of_isPresent hpresent) habsent
    exact ⟨tree, a, htree, hcompiled, hcompiles.execute_eq hcounts hpresent (Nat.le_refl _)⟩

/-- A million text messages in the body of a loop in a branch. -/
theorem never_tooDeep_million :
    let value : Value := .linked .condition [("expression", .string "true")] .whenTrue
      (.linked .loop [("count", .integer 1)] .body (.messages 1000000))
    (∀ links, value.Nests links → links ≤ 60) ∧ value.IsValid ∧ value.Writable ∧
    ∃ a, (compileValue Depth.standard value).result = .ok a ∧
      (a.execute Depth.standard .plain .empty).failure = none ∧
      (a.execute Depth.standard .plain .empty).trail.toList =
        [.conditionDecided "true" true, .loopStarted 1, .iteration 1 1] ++
          List.replicate 1000000 (.smsSent "1") ++ [.loopCompleted 1] := by
  intro value
  let tree (n : Nat) : Tree := .linked .condition [("expression", .string "true")] .whenTrue
    (.linked .loop [("count", .integer 1)] .body (.messages n))
  have hcondition : Node.Sound ⟨some NodeType.condition.text, [("expression", .string "true")]⟩ :=
    Node.sound_of_step? (eq_ok_of_toOption (by decide +kernel) :
      Tree.step? _ _ = .ok (some (.condition "true")))
  have hloop : Node.Sound ⟨some NodeType.loop.text, [("count", .integer 1)]⟩ :=
    Node.sound_of_step? (eq_ok_of_toOption (by decide +kernel) :
      Tree.step? _ _ = .ok (some (.loop 1)))
  have hexpression : (Value.object [("expression", .string "true")]).Writable :=
    Value.writable_object (List.forall_mem_singleton.mpr (Value.writable_string "true"))
  have hcount : (Value.object [("count", .integer 1)]).Writable :=
    Value.writable_object (List.forall_mem_singleton.mpr
      (Value.writable_number (by decide +kernel : (Number.integer 1).isTooLong = false)))
  have hbody := (Describes.messages 1000000).linked (nofun : NodeField.body ≠ .params) hloop hcount
  have hdescribes : Describes 2 value (tree 1000000) :=
    hbody.linked (nofun : NodeField.whenTrue ≠ .params) hcondition hexpression
  have hlinks (links : Nat) (h : value.Nests links) : links ≤ 60 :=
    Nat.le_trans (hdescribes.nests links h) (by decide)
  have htrail (n : Nat) : (tree (n + 1)).interpret (Condition.bounded .empty) Depth.standard =
      [.conditionDecided "true" true, .loopStarted 1, .iteration 1 1] ++
        List.replicate (n + 1) (.smsSent "1") ++ [.loopCompleted 1] := by
    have hdecision : Condition.bounded .empty Depth.standard "true" = ⟨true, none⟩ := by decide +kernel
    have hmessages := Tree.walk_messages (Condition.bounded .empty) (n + 1)
    show (Condition.bounded .empty Depth.standard "true").trail "true"
      (loopTrail 1 true ((Tree.messages (n + 1)).walk _ _) ++ []) [] ++ [] = _
    rw [hdecision, hmessages]
    simp [Decision.trail, Decision.event?, loopTrail]
  have hvalid : value.IsValid := hdescribes.isValid
  obtain ⟨-, -, -, hruns⟩ := never_tooDeep hlinks
  obtain ⟨found, a, hfound, hcompiled, hrun⟩ := hruns hvalid hdescribes.writable
  obtain rfl := hdescribes.eq_of_ofValue hfound
  refine ⟨hlinks, hvalid, hdescribes.writable, a, hcompiled, ?_, ?_⟩
  · rw [hrun]
  · rw [hrun]
    exact htrail 999999

end DecisionFlow
