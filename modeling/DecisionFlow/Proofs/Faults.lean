import DecisionFlow.Proofs.Compilation
import DecisionFlow.Proofs.Decoding
import DecisionFlow.Text.Lines

/-!
# What stops the compiler

The compiler goes through the nodes of a tree in one order and stops at the first that has bad
parameters.  Nodes of unknown type do not stop it: each leaves a notice and hides what hangs on it.
This module says so with a list of nodes in place of the recursion.

* `Tree.visited` — the nodes that the compiler looks at, in order;
* `Node.Faulty` — what is wrong with the parameters of a node of known type;
* `FirstFault` — the first fault in a list of nodes, with the nodes in front of it;
* `Visits` — a compilation has looked at these nodes, up to the first fault; `Visits.bind` is the one
  fact about it, for a compilation and another one after it;
* `compileValue_stops_at_first_fault` — the outcome and the notices of a whole value.
-/

namespace DecisionFlow

/-! ### Nodes and their faults -/

/-- A node by itself, without its links. -/
structure Node where
  /-- The type, if it is a string. -/
  type : Option String
  /-- The parameters. -/
  params : Entries Value

/-- A parameter is given: it is a string and not empty. -/
def GivenText (params : Entries Value) (key : String) : Prop :=
  ∃ text, params.lookup key = some (.string text) ∧ text ≠ ""

/-- `NodeType.Rejects params known e`: the parameters are not what the type asks for, with the error. -/
inductive NodeType.Rejects (params : Entries Value) : NodeType → ParamError → Prop where
  | phoneNumber : ¬GivenText params "phoneNumber" → NodeType.Rejects params .sms .phoneNumber
  | sender :
      ¬GivenText params "sender" → GivenText params "receiver" →
      NodeType.Rejects params .email (.address .sender)
  | receiver :
      GivenText params "sender" → ¬GivenText params "receiver" →
      NodeType.Rejects params .email (.address .receiver)
  | addresses :
      ¬GivenText params "sender" → ¬GivenText params "receiver" →
      NodeType.Rejects params .email (.address .both)
  | expression :
      (∀ text, params.lookup "expression" = some (.string text) → Text.isBlankText text = true) →
      NodeType.Rejects params .condition .expression
  | count :
      (∀ (n : Number) (count : Nat), params.lookup "count" = some (.number n) →
        n.whole? ≠ some (count : Int)) →
      NodeType.Rejects params .loop .count

namespace Node

/-- Whether the type of a node is one of the four that are known. -/
def isKnown (node : Node) : Bool :=
  ["sms", "email", "condition", "loop"].any fun name => node.type = some name

/-- `node.Faulty e`: the node is of a known type, and its parameters have the error. -/
def Faulty (node : Node) (e : ParamError) : Prop :=
  ∃ known : NodeType, node.type = some known.text ∧ NodeType.Rejects node.params known e

/-- A node has no fault: its parameters are valid, or its type is not known. -/
def Sound (node : Node) : Prop := ∀ e, ¬node.Faulty e

end Node

namespace Step

variable {params : Entries Value}

theorem givenText?_eq_none_iff {key : String} :
    givenText? params key = none ↔ ¬GivenText params key := by
  constructor
  · rintro h ⟨text, hgiven⟩
    rw [givenText?_eq_some_iff.mpr hgiven] at h
    cases h
  · intro h
    cases hgiven : givenText? params key with
    | none => rfl
    | some text => exact absurd ⟨text, givenText?_eq_some_iff.mp hgiven⟩ h

theorem exists_givenText?_iff {key : String} :
    (∃ text, givenText? params key = some text) ↔ GivenText params key :=
  exists_congr fun _ => givenText?_eq_some_iff

/-- What the check of a known type fails with is what is wrong with the parameters. -/
theorem rejects_of_ofParams {known : NodeType} {e : ParamError} (h : ofParams known params = .error e) :
    NodeType.Rejects params known e := by
  cases known with
  | sms =>
    simp only [ofParams] at h
    split at h
    · cases h
    · rename_i hnone
      cases h
      exact .phoneNumber (givenText?_eq_none_iff.mp hnone)
  | email =>
    simp only [ofParams] at h
    split at h
    · cases h
    · rename_i hsender hreceiver
      cases h
      exact .sender (givenText?_eq_none_iff.mp hsender) (exists_givenText?_iff.mp ⟨_, hreceiver⟩)
    · rename_i hsender hreceiver
      cases h
      exact .receiver (exists_givenText?_iff.mp ⟨_, hsender⟩) (givenText?_eq_none_iff.mp hreceiver)
    · rename_i hsender hreceiver
      cases h
      exact .addresses (givenText?_eq_none_iff.mp hsender) (givenText?_eq_none_iff.mp hreceiver)
  | condition =>
    simp only [ofParams] at h
    split at h
    · rename_i text htext
      split at h
      · rename_i hblank
        cases h
        refine .expression fun other hother => ?_
        rw [lookup_of_text? htext] at hother
        cases hother
        exact hblank
      · cases h
    · rename_i hnone
      cases h
      refine .expression fun text hlookup => ?_
      rw [hlookup] at hnone
      cases hnone
  | loop =>
    simp only [ofParams] at h
    split at h
    · cases h
    · rename_i hnone
      cases h
      refine .count fun n count hlookup hwhole => ?_
      simp only [naturalNumber?, hlookup, hwhole] at hnone
      cases hnone

/-- The check of a known type fails with what is wrong with the parameters. -/
theorem ofParams_of_rejects {known : NodeType} {e : ParamError} (h : NodeType.Rejects params known e) :
    ofParams known params = .error e := by
  cases h with
  | phoneNumber hnone =>
    simp only [ofParams, givenText?_eq_none_iff.mpr hnone]
  | sender hnone hgiven =>
    obtain ⟨receiver, hreceiver⟩ := exists_givenText?_iff.mpr hgiven
    simp only [ofParams, givenText?_eq_none_iff.mpr hnone, hreceiver]
  | receiver hgiven hnone =>
    obtain ⟨sender, hsender⟩ := exists_givenText?_iff.mpr hgiven
    simp only [ofParams, givenText?_eq_none_iff.mpr hnone, hsender]
  | addresses hnone hnone' =>
    simp only [ofParams, givenText?_eq_none_iff.mpr hnone, givenText?_eq_none_iff.mpr hnone']
  | expression hblank =>
    simp only [ofParams]
    split
    · rename_i text htext
      rw [if_pos (hblank text (lookup_of_text? htext))]
    · rfl
  | count hnone =>
    simp only [ofParams]
    split
    · rename_i count hcount
      obtain ⟨n, hlookup, hwhole⟩ := lookup_of_naturalNumber? hcount
      exact absurd hwhole (hnone n count hlookup)
    · rfl

end Step

namespace Node

variable {type : Option String} {params : Entries Value}

theorem ofText?_text (known : NodeType) : NodeType.ofText? known.text = some known := by
  cases known <;> rfl

theorem isKnown_eq (type : Option String) (params : Entries Value) :
    isKnown ⟨type, params⟩ = (type.bind NodeType.ofText?).isSome := by
  cases type with
  | none => rfl
  | some name =>
    show isKnown ⟨some name, params⟩ = (NodeType.ofText? name).isSome
    unfold NodeType.ofText?
    by_cases hsms : name = "sms" <;> by_cases hemail : name = "email" <;>
      by_cases hcondition : name = "condition" <;> by_cases hloop : name = "loop" <;>
      simp [isKnown, hsms, hemail, hcondition, hloop]

/-- The compiler finds in a node the fault that it has. -/
theorem step?_eq_error_iff {e : ParamError} :
    Tree.step? type params = .error e ↔ Faulty ⟨type, params⟩ e := by
  unfold Tree.step? Faulty
  constructor
  · intro h
    split at h
    · rename_i known hknown
      obtain ⟨name, rfl, hname⟩ := Option.bind_eq_some_iff.mp hknown
      rw [NodeType.eq_text_of_ofText? hname]
      refine ⟨known, rfl, Step.rejects_of_ofParams ?_⟩
      cases hstep : Step.ofParams known params with
      | error e' =>
        rw [hstep] at h
        exact congrArg Except.error (Except.error.inj h)
      | ok step =>
        rw [hstep] at h
        cases h
    · cases h
  · rintro ⟨known, rfl, hrejects⟩
    simp only [Option.bind_some, ofText?_text, Step.ofParams_of_rejects hrejects]
    rfl

theorem sound_of_step? {step? : Option Step} (h : Tree.step? type params = .ok step?) :
    Sound ⟨type, params⟩ := by
  intro e hfaulty
  rw [step?_eq_error_iff.mpr hfaulty] at h
  cases h

/-- A node has one fault at most. -/
theorem Faulty.unique {node : Node} {e e' : ParamError} (h : node.Faulty e) (h' : node.Faulty e') :
    e = e' := by
  have herror := step?_eq_error_iff.mpr h
  rw [step?_eq_error_iff.mpr h'] at herror
  exact (Except.error.inj herror).symm

end Node

/-! ### Lists of nodes -/

/-- The nodes that the compiler looks at, in order: after a condition come its branches, after a loop
its body, and then the rest of the chain, which a node of unknown type ends. -/
def Tree.visited : Tree → List Node
  | absent => []
  | node type params whenTrue whenFalse body next =>
    ⟨type, params⟩ ::
      match type.bind NodeType.ofText? with
      | none => []
      | some .sms | some .email => next.visited
      | some .condition => whenTrue.visited ++ (whenFalse.visited ++ next.visited)
      | some .loop => body.visited ++ next.visited

/-- The notices for the nodes of unknown type among the given ones. -/
def noticesFor (nodes : List Node) : List UnknownType :=
  (nodes.filter fun node => !node.isKnown).map fun node => ⟨node.type⟩

@[simp] theorem noticesFor_append (xs ys : List Node) :
    noticesFor (xs ++ ys) = noticesFor xs ++ noticesFor ys := by
  simp [noticesFor]

/-- `FirstFault nodes before e`: the first of the nodes that has a fault has this one, and the nodes
in front of it are these. -/
inductive FirstFault : List Node → List Node → ParamError → Prop where
  | here {node : Node} {rest : List Node} {e : ParamError} :
      node.Faulty e → FirstFault (node :: rest) [] e
  | later {node : Node} {rest before : List Node} {e : ParamError} :
      node.Sound → FirstFault rest before e → FirstFault (node :: rest) (node :: before) e

namespace FirstFault

variable {nodes before : List Node} {e : ParamError}

theorem append_right (h : FirstFault nodes before e) (more : List Node) :
    FirstFault (nodes ++ more) before e := by
  induction h with
  | here hfaulty => exact .here hfaulty
  | later hsound _ ih => exact .later hsound ih

theorem append_left {front : List Node} (hfront : ∀ node ∈ front, node.Sound)
    (h : FirstFault nodes before e) : FirstFault (front ++ nodes) (front ++ before) e := by
  induction front with
  | nil => exact h
  | cons node front ih =>
    exact .later (hfront node List.mem_cons_self)
      (ih fun other hother => hfront other (List.mem_cons_of_mem node hother))

theorem unique {before' : List Node} {e' : ParamError} (h : FirstFault nodes before e)
    (h' : FirstFault nodes before' e') : before = before' ∧ e = e' := by
  induction h generalizing before' with
  | here hfaulty =>
    cases h' with
    | here hfaulty' => exact ⟨rfl, hfaulty.unique hfaulty'⟩
    | later hsound _ => exact absurd hfaulty (hsound _)
  | later hsound _ ih =>
    cases h' with
    | here hfaulty' => exact absurd hfaulty' (hsound _)
    | later _ h' =>
      obtain ⟨rfl, rfl⟩ := ih h'
      exact ⟨rfl, rfl⟩

/-- There is a first fault exactly if there is a fault. -/
theorem exists_iff : (∃ before e, FirstFault nodes before e) ↔ ∃ node ∈ nodes, ¬node.Sound := by
  constructor
  · rintro ⟨before, e, h⟩
    induction h with
    | here hfaulty => exact ⟨_, List.mem_cons_self, fun hsound => hsound _ hfaulty⟩
    | later _ _ ih =>
      obtain ⟨node, hmem, hnode⟩ := ih
      exact ⟨node, List.mem_cons_of_mem _ hmem, hnode⟩
  · rintro ⟨node, hmem, hnode⟩
    induction nodes with
    | nil => cases hmem
    | cons first rest ih =>
      by_cases hsound : first.Sound
      · rcases List.mem_cons.mp hmem with rfl | hrest
        · exact absurd hsound hnode
        · obtain ⟨before, e, h⟩ := ih hrest
          exact ⟨_, e, .later hsound h⟩
      · obtain ⟨e, hfaulty⟩ := Classical.not_forall_not.mp hsound
        exact ⟨[], e, .here hfaulty⟩

end FirstFault

/-! ### The compiler on a list of nodes -/

/-- `Visits nodes c`: the compilation looks at these nodes in this order.  It passes them all, or stops
at the first fault, or goes too deep. -/
inductive Visits {α : Type} (nodes : List Node) (c : Compilation α) : Prop where
  | passed {a : α} :
      c.result = .ok a → (∀ node ∈ nodes, node.Sound) → c.notices = noticesFor nodes →
      Visits nodes c
  | stopped {before : List Node} {e : ParamError} :
      c.result = .error (.because e) → FirstFault nodes before e → c.notices = noticesFor before →
      Visits nodes c
  | tooDeep : c.result = .error .tooDeep → Visits nodes c

namespace Visits

variable {α β : Type} {xs ys : List Node} {c : Compilation α}

theorem map (h : Visits xs c) (f : α → β) : Visits xs (c.map f) := by
  obtain ⟨notices, result⟩ := c
  cases h with
  | passed hok hsound hnotices =>
    obtain rfl : result = _ := hok
    exact .passed rfl hsound hnotices
  | stopped herror hfirst hnotices =>
    obtain rfl : result = _ := herror
    exact .stopped rfl hfirst hnotices
  | tooDeep herror =>
    obtain rfl : result = _ := herror
    exact .tooDeep rfl

/-- **A compilation and another one after it** look at the nodes of the one and then at those of the
other. -/
theorem bind (h : Visits xs c) {f : α → Compilation β} (hf : ∀ a, Visits ys (f a)) :
    Visits (xs ++ ys) (c.bind f) := by
  obtain ⟨notices, result⟩ := c
  cases h with
  | @passed a hok hsound hnotices =>
    obtain rfl : result = _ := hok
    obtain rfl : notices = _ := hnotices
    cases hf a with
    | passed hok' hsound' hnotices' =>
      refine .passed hok' (fun node hnode => ?_) ?_
      · exact (List.mem_append.mp hnode).elim (hsound node) (hsound' node)
      · rw [noticesFor_append, ← hnotices']
        rfl
    | stopped herror' hfirst' hnotices' =>
      refine .stopped herror' (hfirst'.append_left hsound) ?_
      rw [noticesFor_append, ← hnotices']
      rfl
    | tooDeep herror' => exact .tooDeep herror'
  | stopped herror hfirst hnotices =>
    obtain rfl : result = _ := herror
    exact .stopped rfl (hfirst.append_right ys) hnotices
  | tooDeep herror =>
    obtain rfl : result = _ := herror
    exact .tooDeep rfl

/-- A node that has no fault and leaves no notice, and what is looked at after it. -/
theorem after_sound {type : Option String} {params : Entries Value} (h : Visits xs c)
    (hsound : Node.Sound ⟨type, params⟩) (hknown : Node.isKnown ⟨type, params⟩ = true) :
    Visits (⟨type, params⟩ :: xs) c := by
  have hnotices (nodes : List Node) : noticesFor (⟨type, params⟩ :: nodes) = noticesFor nodes := by
    simp [noticesFor, hknown]
  cases h with
  | passed hok hall hleft =>
    exact .passed hok (List.forall_mem_cons.mpr ⟨hsound, hall⟩) (hleft.trans (hnotices _).symm)
  | stopped herror hfirst hleft =>
    exact .stopped herror (.later hsound hfirst) (hleft.trans (hnotices _).symm)
  | tooDeep herror => exact .tooDeep herror

end Visits

namespace Tree

theorem compileLink_visits {nodes : List Node} {compile : Nat → Compilation Action}
    (h : ∀ depth, Visits nodes (compile depth)) (depth : Nat) :
    Visits nodes (compileLink compile depth) := by
  unfold compileLink
  split
  · exact h _
  · exact .tooDeep rfl

/-- **The compiler looks at the visited nodes in order.** -/
theorem compile_visits (tree : Tree) (depth : Nat) : Visits tree.visited (tree.compile depth) := by
  induction tree generalizing depth with
  | absent => exact .passed rfl nofun rfl
  | node type params whenTrue whenFalse body next iht ihf ihb ihn =>
    rw [compile]
    split
    · exact .tooDeep rfl
    · split
      · rename_i e hstep
        exact .stopped rfl (.here (Node.step?_eq_error_iff.mp hstep)) rfl
      · rename_i hstep
        have hunknown := unknown_of_step? hstep
        have hknown : Node.isKnown ⟨type, params⟩ = false := by rw [Node.isKnown_eq, hunknown]; rfl
        refine .passed rfl ?_ ?_
        · simp only [visited, hunknown, List.forall_mem_singleton]
          exact Node.sound_of_step? hstep
        · simp only [visited, hunknown, noticesFor, List.filter_cons, hknown, Bool.not_false, if_true]
          rfl
      · rename_i phoneNumber hstep
        have hsound := Node.sound_of_step? hstep
        cases given_of_step? hstep
        exact ((ihn depth).map _).after_sound hsound rfl
      · rename_i sender receiver hstep
        have hsound := Node.sound_of_step? hstep
        cases given_of_step? hstep
        exact ((ihn depth).map _).after_sound hsound rfl
      · rename_i expression hstep
        have hsound := Node.sound_of_step? hstep
        cases given_of_step? hstep
        have hbranches := (compileLink_visits iht depth).bind fun onTrue =>
          (compileLink_visits ihf depth).bind fun onFalse =>
            (ihn depth).map (Action.condition expression onTrue onFalse).andNext
        exact hbranches.after_sound hsound rfl
      · rename_i count hstep
        have hsound := Node.sound_of_step? hstep
        cases given_of_step? hstep
        have hbody := (compileLink_visits ihb depth).bind fun inside =>
          (ihn depth).map (Action.loop count inside).andNext
        exact hbody.after_sound hsound rfl

end Tree

/-! ### Going too deep -/

namespace Compilation

variable {α β : Type} {c : Compilation α}

theorem map_eq_error {f : α → β} {stop : Bounded ParamError} (h : (c.map f).result = .error stop) :
    c.result = .error stop := by
  obtain ⟨notices, result⟩ := c
  cases result with
  | error other => exact congrArg Except.error (Except.error.inj h)
  | ok a => cases h

theorem bind_eq_error {f : α → Compilation β} {stop : Bounded ParamError}
    (h : (c.bind f).result = .error stop) :
    c.result = .error stop ∨ ∃ a, (f a).result = .error stop := by
  obtain ⟨notices, result⟩ := c
  cases result with
  | error other => exact .inl (congrArg Except.error (Except.error.inj h))
  | ok a => exact .inr ⟨a, h⟩

end Compilation

namespace Tree

/-- `tree.Exceeds depth`: a node of the tree is behind more links than there is depth for compiling. -/
def Exceeds (tree : Tree) (depth : Nat) : Prop :=
  ∃ links, tree.Nests links ∧ depth < Depth.compiledLink * (links + 1)

variable {type : Option String} {params : Entries Value} {whenTrue whenFalse body next : Tree}

theorem exceeds_of_compileLink {tree inside : Tree} {depth : Nat}
    (hroot : tree.Nests 0) (hinside : ∀ links, inside.Nests links → tree.Nests (1 + links))
    (ih : ∀ depth, (inside.compile depth).result = .error .tooDeep → inside.Exceeds depth)
    (h : (compileLink (fun depth => inside.compile depth) depth).result = .error .tooDeep) :
    tree.Exceeds depth := by
  unfold compileLink at h
  split at h
  · rename_i rest htake
    obtain rfl := Depth.take?_eq_some.mp htake
    obtain ⟨links, hlinks, hlt⟩ := ih rest h
    refine ⟨1 + links, hinside links hlinks, ?_⟩
    simp only [Depth.compiledLink] at hlt ⊢
    omega
  · rename_i htake
    exact ⟨0, hroot, Depth.take?_eq_none.mp htake⟩

/-- **Only deep nesting is too deep to compile.** -/
theorem exceeds_of_compile {tree : Tree} {depth : Nat}
    (h : (tree.compile depth).result = .error .tooDeep) : tree.Exceeds depth := by
  induction tree generalizing depth with
  | absent => cases h
  | node type params whenTrue whenFalse body next iht ihf ihb ihn =>
    have hroot : Nests (.node type params whenTrue whenFalse body next) 0 := .inl rfl
    have htrue (links : Nat) (hlinks : whenTrue.Nests links) :
        Nests (.node type params whenTrue whenFalse body next) (1 + links) :=
      .inr (.inl ⟨links, rfl, .inl hlinks⟩)
    have hfalse (links : Nat) (hlinks : whenFalse.Nests links) :
        Nests (.node type params whenTrue whenFalse body next) (1 + links) :=
      .inr (.inl ⟨links, rfl, .inr (.inl hlinks)⟩)
    have hbody (links : Nat) (hlinks : body.Nests links) :
        Nests (.node type params whenTrue whenFalse body next) (1 + links) :=
      .inr (.inl ⟨links, rfl, .inr (.inr hlinks)⟩)
    have hnext {f : Action → Action} (h : ((next.compile depth).map f).result = .error .tooDeep) :
        Exceeds (.node type params whenTrue whenFalse body next) depth := by
      obtain ⟨links, hlinks, hlt⟩ := ihn (Compilation.map_eq_error h)
      exact ⟨links, .inr (.inr hlinks), hlt⟩
    rw [compile] at h
    split at h
    · rename_i hchain
      refine ⟨0, hroot, ?_⟩
      simp only [Depth.compiledChain, Depth.compiledLink] at hchain ⊢
      omega
    · split at h
      · cases h
      · cases h
      · exact hnext h
      · exact hnext h
      · rcases Compilation.bind_eq_error h with h | ⟨onTrue, h⟩
        · exact exceeds_of_compileLink hroot htrue (fun _ => iht) h
        · rcases Compilation.bind_eq_error h with h | ⟨onFalse, h⟩
          · exact exceeds_of_compileLink hroot hfalse (fun _ => ihf) h
          · exact hnext h
      · rcases Compilation.bind_eq_error h with h | ⟨inside, h⟩
        · exact exceeds_of_compileLink hroot hbody (fun _ => ihb) h
        · exact hnext h

end Tree

/-! ### Whole values -/

/-- A notice has no line feed. -/
theorem UnknownType.newline_not_mem_message (notice : UnknownType) : '\n' ∉ notice.message.toList := by
  unfold UnknownType.message
  rw [String.toList_append, List.mem_append, not_or]
  refine ⟨by decide +kernel, ?_⟩
  cases notice.type with
  | none => decide +kernel
  | some type => exact Text.newline_not_mem_quoted type

/-- A notice stands on one line. -/
theorem UnknownType.lines_message (notice : UnknownType) :
    Text.lines notice.message = [notice.message] :=
  Text.lines_of_not_mem notice.newline_not_mem_message

theorem compileValue_eq {depth : Nat} {value : Value} (hvalue : value ≠ .null) :
    compileValue depth value = .ofTree depth (Tree.ofValue depth value) := by
  cases value with
  | null => exact absurd rfl hvalue
  | _ => rfl

/-- What a value compiles to: a shape error, the action of a tree without a fault, or the first fault of
a tree, unless it goes too deep. -/
inductive CompiledFrom (depth : Nat) (value : Value) (compiled : Compiled) : Prop where
  | undecodable {e : DecodeError} :
      Tree.ofValue depth value = .error (.because e) →
      compiled = ⟨[], .error (.because (.undecodable e))⟩ → CompiledFrom depth value compiled
  | passed {tree : Tree} {a : Action} :
      Tree.ofValue depth value = .ok tree → (tree.compile depth).result = .ok a →
      (∀ node ∈ tree.visited, node.Sound) → compiled = ⟨noticesFor tree.visited, .ok a⟩ →
      CompiledFrom depth value compiled
  | stopped {tree : Tree} {before : List Node} {e : ParamError} :
      Tree.ofValue depth value = .ok tree → FirstFault tree.visited before e →
      compiled = ⟨noticesFor before, .error (.because (.invalid e))⟩ →
      CompiledFrom depth value compiled
  | tooDeep {links : Nat} :
      compiled.result = .error .tooDeep → value.Nests links →
      depth < Depth.compiledLink * (links + 1) → CompiledFrom depth value compiled

/-- **Whatever a value compiles to, it is one of these.** -/
theorem compileValue_from (depth : Nat) {value : Value} (hvalue : value ≠ .null) :
    CompiledFrom depth value (compileValue depth value) := by
  have hdecoded := Tree.ofValue_decoded depth value
  rw [compileValue_eq hvalue]
  cases htree : Tree.ofValue depth value with
  | error stop =>
    rw [htree] at hdecoded
    cases stop with
    | because e => exact .undecodable htree rfl
    | tooDeep =>
      obtain ⟨links, hlinks, hlt⟩ := hdecoded
      refine .tooDeep rfl hlinks ?_
      simp only [Depth.decodedLink, Depth.compiledLink] at hlt ⊢
      omega
  | ok tree =>
    rw [htree] at hdecoded
    have hvisits := tree.compile_visits depth
    have hexceeds : (tree.compile depth).result = .error .tooDeep → tree.Exceeds depth :=
      Tree.exceeds_of_compile
    have hcompiled : Compiled.ofTree depth (.ok tree) = ⟨(tree.compile depth).notices,
      (tree.compile depth).result.mapError (Bounded.map .invalid)⟩ := rfl
    rw [hcompiled]
    cases hvisits with
    | passed hok hsound hnotices =>
      rw [hok, hnotices]
      exact .passed htree hok hsound rfl
    | stopped herror hfirst hnotices =>
      rw [herror, hnotices]
      exact .stopped htree hfirst rfl
    | tooDeep herror =>
      obtain ⟨links, hlinks, hlt⟩ := hexceeds herror
      obtain ⟨-, fields, rfl, hdecodes⟩ := hdecoded
      obtain ⟨_, node, ⟨⟩, hnode⟩ := hdecodes.nests hlinks
      rw [herror]
      exact .tooDeep rfl ⟨fields, node, rfl, hnode⟩ hlt

namespace CompiledFrom

variable {depth : Nat} {value : Value} {compiled : Compiled} {tree : Tree}

/-- Only what is nested deeply is too deep. -/
theorem nests_of_tooDeep (h : CompiledFrom depth value compiled)
    (hdeep : compiled.result = .error .tooDeep) :
    ∃ links, value.Nests links ∧ depth < Depth.compiledLink * (links + 1) := by
  cases h with
  | tooDeep _ hlinks hlt => exact ⟨_, hlinks, hlt⟩
  | undecodable _ h | passed _ _ _ h | stopped _ _ h =>
    subst h
    cases hdeep

/-- A defect keeps a value from being decoded, wherever it is. -/
theorem undecodable_of_hasDefect (h : CompiledFrom depth value compiled)
    (hshallow : compiled.result ≠ .error .tooDeep) {e : DecodeError} (hdefect : value.HasDefect e) :
    ∃ e, Tree.ofValue depth value = .error (.because e) := by
  have hdecoded := Tree.ofValue_decoded depth value
  cases h with
  | undecodable he _ => exact ⟨_, he⟩
  | passed htree _ _ _ | stopped htree _ _ =>
    rw [htree] at hdecoded
    exact absurd hdefect (hdecoded.1 e)
  | tooDeep hdeep _ _ => exact absurd hdeep hshallow

/-- What compiles from a decoded tree is its action, if no visited node has a fault, or else the first
fault. -/
theorem of_tree (h : CompiledFrom depth value compiled) (hshallow : compiled.result ≠ .error .tooDeep)
    (htree : Tree.ofValue depth value = .ok tree) :
    (∃ a, (∀ node ∈ tree.visited, node.Sound) ∧ compiled = ⟨noticesFor tree.visited, .ok a⟩) ∨
    (∃ before e, FirstFault tree.visited before e ∧
      compiled = ⟨noticesFor before, .error (.because (.invalid e))⟩) := by
  cases h with
  | undecodable he _ =>
    rw [htree] at he
    cases he
  | passed htree' _ hsound h =>
    cases htree.symm.trans htree'
    exact .inl ⟨_, hsound, h⟩
  | stopped htree' hfirst h =>
    cases htree.symm.trans htree'
    exact .inr ⟨_, _, hfirst, h⟩
  | tooDeep hdeep _ _ => exact absurd hdeep hshallow

/-- Of a decoded tree, compiling reports the first fault there is, and nothing else. -/
theorem invalid_iff (h : CompiledFrom depth value compiled)
    (hshallow : compiled.result ≠ .error .tooDeep) (htree : Tree.ofValue depth value = .ok tree)
    (e : ParamError) :
    compiled.result = .error (.because (.invalid e)) ↔ ∃ before, FirstFault tree.visited before e := by
  rcases h.of_tree hshallow htree with ⟨a, hsound, rfl⟩ | ⟨before, found, hfirst, rfl⟩
  · refine ⟨nofun, fun ⟨before, hfirst⟩ => ?_⟩
    obtain ⟨node, hmem, hnode⟩ := FirstFault.exists_iff.mp ⟨before, e, hfirst⟩
    exact absurd (hsound node hmem) hnode
  · constructor
    · rintro ⟨⟩
      exact ⟨before, hfirst⟩
    · rintro ⟨before', hfirst'⟩
      rw [(hfirst.unique hfirst').2]

/-- Of a decoded tree, compiling leaves the notices for the nodes in front of the first fault. -/
theorem notices_of_firstFault (h : CompiledFrom depth value compiled)
    (hshallow : compiled.result ≠ .error .tooDeep) (htree : Tree.ofValue depth value = .ok tree)
    {before : List Node} {e : ParamError} (hfirst : FirstFault tree.visited before e) :
    compiled.notices = noticesFor before := by
  rcases h.of_tree hshallow htree with ⟨a, hsound, rfl⟩ | ⟨before', found, hfirst', rfl⟩
  · obtain ⟨node, hmem, hnode⟩ := FirstFault.exists_iff.mp ⟨before, e, hfirst⟩
    exact absurd (hsound node hmem) hnode
  · rw [(hfirst.unique hfirst').1]

/-- A decoded tree without a fault compiles, with the notices for all visited nodes. -/
theorem passed_of_sound (h : CompiledFrom depth value compiled)
    (hshallow : compiled.result ≠ .error .tooDeep) (htree : Tree.ofValue depth value = .ok tree)
    (hsound : ∀ node ∈ tree.visited, node.Sound) :
    (∃ a, compiled.result = .ok a) ∧ compiled.notices = noticesFor tree.visited := by
  rcases h.of_tree hshallow htree with ⟨a, -, rfl⟩ | ⟨before, e, hfirst, rfl⟩
  · exact ⟨⟨a, rfl⟩, rfl⟩
  · obtain ⟨node, hmem, hnode⟩ := FirstFault.exists_iff.mp ⟨before, e, hfirst⟩
    exact absurd (hsound node hmem) hnode

end CompiledFrom

/-- **Compiling stops at the first fault.** Only deep nesting is too deep.  A defect anywhere in the
shape of a value is what it is refused for, and then there is no notice.  Otherwise compiling fails
exactly if a visited node has a fault, with the first fault there is, and leaves one notice, on a line
of its own, for each node of unknown type that is visited before it: for all of them if it does not
fail. -/
theorem compileValue_stops_at_first_fault (depth : Nat) {value : Value} (hvalue : value ≠ .null) :
    let compiled := compileValue depth value
    (compiled.result = .error .tooDeep →
      ∃ links, value.Nests links ∧ depth < Depth.compiledLink * (links + 1)) ∧
    (∀ e, Tree.ofValue depth value = .error (.because e) →
      value.HasDefect e ∧ compiled = ⟨[], .error (.because (.undecodable e))⟩) ∧
    (compiled.result ≠ .error .tooDeep →
      ((∃ e, value.HasDefect e) ↔ ∃ e, Tree.ofValue depth value = .error (.because e)) ∧
      ∀ tree, Tree.ofValue depth value = .ok tree →
        ((∃ e, compiled.result = .error (.because (.invalid e))) ↔
          ∃ node ∈ tree.visited, ¬node.Sound) ∧
        (∀ e, compiled.result = .error (.because (.invalid e)) ↔
          ∃ before, FirstFault tree.visited before e) ∧
        (∀ before e, FirstFault tree.visited before e → compiled.notices = noticesFor before) ∧
        ((∀ node ∈ tree.visited, node.Sound) →
          (∃ a, compiled.result = .ok a) ∧ compiled.notices = noticesFor tree.visited)) ∧
    compiled.notices.flatMap (fun notice => Text.lines notice.message) =
      compiled.notices.map UnknownType.message := by
  intro compiled
  have hdecoded := Tree.ofValue_decoded depth value
  have hfrom : CompiledFrom depth value compiled := compileValue_from depth hvalue
  have hdefect (e : DecodeError) (he : Tree.ofValue depth value = .error (.because e)) :
      value.HasDefect e := by
    rw [he] at hdecoded
    exact hdecoded
  have hundecodable (e : DecodeError) (he : Tree.ofValue depth value = .error (.because e)) :
      compiled = ⟨[], .error (.because (.undecodable e))⟩ := by
    show compileValue depth value = _
    rw [compileValue_eq hvalue, he]
    rfl
  have hlines : compiled.notices.flatMap (fun notice => Text.lines notice.message) =
      compiled.notices.map UnknownType.message := by
    simp only [UnknownType.lines_message, ← List.map_eq_flatMap]
  clear_value compiled
  refine ⟨hfrom.nests_of_tooDeep, fun e he => ⟨hdefect e he, hundecodable e he⟩,
    fun hshallow => ⟨⟨?_, ?_⟩, fun tree htree => ?_⟩, hlines⟩
  · exact fun ⟨e, he⟩ => hfrom.undecodable_of_hasDefect hshallow he
  · exact fun ⟨e, he⟩ => ⟨e, hdefect e he⟩
  · have hinvalid := hfrom.invalid_iff hshallow htree
    refine ⟨?_, hinvalid, fun before e hfirst => hfrom.notices_of_firstFault hshallow htree hfirst,
      hfrom.passed_of_sound hshallow htree⟩
    rw [← FirstFault.exists_iff, exists_comm]
    exact exists_congr hinvalid

/-- A branch with a node of unknown type, which hides a bad text message, and then two nodes that are
bad; and a bad shape behind a node of unknown type. -/
theorem compileValue_stops_at_first_fault_branches :
    let fax : Value := .object [("type", .string "fax"), ("next", .object [("type", .string "sms")])]
    let value : Value := .object [("type", .string "condition"),
      ("params", .object [("expression", .string "a")]), ("trueAction", fax),
      ("falseAction", .object [("type", .string "email")]), ("next", .object [("type", .string "loop")])]
    let misshapen : Value := .object [("type", .string "fax"),
      ("subtree", .object [("params", .integer 5)])]
    value ≠ .null ∧ (compileValue Depth.standard value).result ≠ .error .tooDeep ∧
      (∃ tree, Tree.ofValue Depth.standard value = .ok tree ∧
        ∃ before, FirstFault tree.visited before (.address .both)) ∧
      (compileValue Depth.standard value).notices = [⟨some "fax"⟩] ∧
      misshapen ≠ .null ∧ misshapen.HasDefect (.fieldNotAnObject .params) ∧
      compileValue Depth.standard misshapen =
        ⟨[], .error (.because (.undecodable (.fieldNotAnObject .params)))⟩ := by
  intro fax value misshapen
  have hvalue : value ≠ .null := nofun
  have hmisshapen : misshapen ≠ .null := nofun
  have hresult : (compileValue Depth.standard value).result =
      .error (.because (.invalid (.address .both))) := eq_error_of_swap (by decide +kernel)
  have hshallow : (compileValue Depth.standard value).result ≠ .error .tooDeep := by
    rw [hresult]
    exact nofun
  have hdecoded : (Tree.ofValue Depth.standard value).toOption.isSome = true := by decide +kernel
  obtain ⟨tree, htree⟩ := Option.isSome_iff_exists.mp hdecoded
  have htree := eq_ok_of_toOption htree
  obtain ⟨-, -, hfaults, -⟩ := compileValue_stops_at_first_fault Depth.standard hvalue
  obtain ⟨-, hshape, -, -⟩ := compileValue_stops_at_first_fault Depth.standard hmisshapen
  have hfirst := (((hfaults hshallow).2 tree htree).2.1 (.address .both)).mp hresult
  have hdefect := hshape (.fieldNotAnObject .params) (eq_error_of_swap (by decide +kernel))
  exact ⟨hvalue, hshallow, ⟨tree, htree, hfirst⟩, by decide +kernel, hmisshapen, hdefect⟩

end DecisionFlow
