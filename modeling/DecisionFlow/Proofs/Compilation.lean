import DecisionFlow.Action.Compile
import DecisionFlow.Action.Run

/-!
# What trees compile to

The compiler as a relation between trees and actions, which says for every node what was checked and
how the action of the node is put together.  Proofs about compiled actions go by induction on it and
never open the compiler.

* `Step.Given` — what the type and the parameters of a node must be for it to have a step;
* `Compiles` — a tree compiles to an action within a depth;
* `compiles_of_ok` — what the compiler returns without an error, the relation derives;
* `Compiles.isPresent_eq` — there is something to run exactly if the first node is of a known type.
-/

namespace DecisionFlow

/-! ### Outcomes -/

theorem eq_ok_of_map {ε α β : Type} {f : α → β} {outcome : Except ε α} {b : β}
    (h : outcome.map f = .ok b) : ∃ a, outcome = .ok a ∧ f a = b := by
  cases outcome with
  | error e => cases h
  | ok a => exact ⟨a, rfl, Except.ok.inj h⟩

/-- An outcome is told by its value.  Unlike outcomes, values can be compared by computing. -/
theorem eq_ok_of_toOption {ε α : Type} {outcome : Except ε α} {a : α}
    (h : outcome.toOption = some a) : outcome = .ok a := by
  cases outcome with
  | error e => cases h
  | ok found => exact congrArg Except.ok (Option.some.inj h)

/-- An outcome is told by its error. -/
theorem eq_error_of_swap {ε α : Type} {outcome : Except ε α} {e : ε}
    (h : (match outcome with | .ok _ => none | .error found => some found) = some e) :
    outcome = .error e := by
  cases outcome with
  | ok a => cases h
  | error found => exact congrArg Except.error (Option.some.inj h)

/-! ### Nodes and their steps -/

/-- The name of a known type. -/
def NodeType.text : NodeType → String
  | sms => "sms"
  | email => "email"
  | condition => "condition"
  | loop => "loop"

theorem NodeType.eq_text_of_ofText? {name : String} {known : NodeType}
    (h : NodeType.ofText? name = some known) : name = known.text := by
  unfold NodeType.ofText? at h
  split at h
  · cases h
    assumption
  · split at h
    · cases h
      assumption
    · split at h
      · cases h
        assumption
      · split at h
        · cases h
          assumption
        · cases h

/-- `Step.Given params type step`: a node of this type and with these parameters has the step. -/
inductive Step.Given (params : Entries Value) : Option String → Step → Prop where
  | sms {phoneNumber : String} :
      params.lookup "phoneNumber" = some (.string phoneNumber) → phoneNumber ≠ "" →
      Step.Given params (some "sms") (.sms phoneNumber)
  | email {sender receiver : String} :
      params.lookup "sender" = some (.string sender) → sender ≠ "" →
      params.lookup "receiver" = some (.string receiver) → receiver ≠ "" →
      Step.Given params (some "email") (.email sender receiver)
  | condition {expression : String} :
      params.lookup "expression" = some (.string expression) →
      Text.isBlankText expression = false →
      Step.Given params (some "condition") (.condition expression)
  | loop {n : Number} {count : Nat} :
      params.lookup "count" = some (.number n) → n.whole? = some (count : Int) →
      Step.Given params (some "loop") (.loop count)

namespace Step

variable {params : Entries Value}

theorem givenText?_eq_some_iff {key text : String} :
    givenText? params key = some text ↔ params.lookup key = some (.string text) ∧ text ≠ "" := by
  constructor
  · intro h
    unfold givenText? at h
    split at h
    · rename_i s hs
      split at h
      · cases h
      · rename_i hempty
        cases h
        refine ⟨hs, ?_⟩
        rintro rfl
        exact hempty rfl
    · cases h
  · rintro ⟨hlookup, hne⟩
    have hempty : ¬text.isEmpty = true := fun hempty => hne (String.isEmpty_iff.mp hempty)
    unfold givenText?
    rw [hlookup]
    exact if_neg hempty

theorem lookup_of_naturalNumber? {key : String} {count : Nat}
    (h : naturalNumber? params key = some count) :
    ∃ n : Number, params.lookup key = some (.number n) ∧ n.whole? = some (count : Int) := by
  unfold naturalNumber? at h
  split at h
  · rename_i n hn
    split at h
    · rename_i natural hwhole
      cases h
      exact ⟨n, hn, hwhole⟩
    · cases h
  · cases h

theorem lookup_of_text? {key text : String} (h : (params.lookup key).bind Value.text? = some text) :
    params.lookup key = some (.string text) := by
  obtain ⟨v, hv, htext⟩ := Option.bind_eq_some_iff.mp h
  unfold Value.text? at htext
  split at htext
  · cases htext
    exact hv
  · cases htext

/-- Parameters that pass the check of a known type are what the step asks for. -/
theorem given_of_ofParams {known : NodeType} {step : Step} (h : ofParams known params = .ok step) :
    Step.Given params (some known.text) step := by
  cases known with
  | sms =>
    simp only [ofParams] at h
    split at h
    · cases h
      obtain ⟨hlookup, hne⟩ := givenText?_eq_some_iff.mp ‹_›
      exact .sms hlookup hne
    · cases h
  | email =>
    simp only [ofParams] at h
    split at h
    · rename_i hsender hreceiver
      cases h
      obtain ⟨hsender, hsender'⟩ := givenText?_eq_some_iff.mp hsender
      obtain ⟨hreceiver, hreceiver'⟩ := givenText?_eq_some_iff.mp hreceiver
      exact .email hsender hsender' hreceiver hreceiver'
    · cases h
    · cases h
    · cases h
  | condition =>
    simp only [ofParams] at h
    split at h
    · rename_i text htext
      split at h
      · cases h
      · rename_i hblank
        cases h
        exact .condition (lookup_of_text? htext) (eq_false_of_ne_true hblank)
    · cases h
  | loop =>
    simp only [ofParams] at h
    split at h
    · rename_i count hcount
      cases h
      obtain ⟨n, hlookup, hwhole⟩ := lookup_of_naturalNumber? hcount
      exact .loop hlookup hwhole
    · cases h

end Step

namespace Tree

/-- Whether a chain begins with a node of a known type. -/
def isKnown : Tree → Bool
  | absent => false
  | node type _ _ _ _ _ => (type.bind NodeType.ofText?).isSome

variable {type : Option String} {params : Entries Value}

theorem given_of_step? {step : Step} (h : step? type params = .ok (some step)) :
    Step.Given params type step := by
  unfold step? at h
  split at h
  · rename_i known hknown
    obtain ⟨name, rfl, hname⟩ := Option.bind_eq_some_iff.mp hknown
    rw [NodeType.eq_text_of_ofText? hname]
    obtain ⟨found, hstep, hfound⟩ := eq_ok_of_map h
    cases hfound
    exact Step.given_of_ofParams hstep
  · cases h

/-- Conversely, a node that is what a step asks for has the step. -/
theorem step?_of_given {step : Step} (h : Step.Given params type step) :
    step? type params = .ok (some step) := by
  cases h with
  | sms hlookup hne =>
    show (Step.ofParams .sms params).map some = _
    simp only [Step.ofParams, Step.givenText?_eq_some_iff.mpr ⟨hlookup, hne⟩]
    rfl
  | email hsender hsender' hreceiver hreceiver' =>
    show (Step.ofParams .email params).map some = _
    simp only [Step.ofParams, Step.givenText?_eq_some_iff.mpr ⟨hsender, hsender'⟩,
      Step.givenText?_eq_some_iff.mpr ⟨hreceiver, hreceiver'⟩]
    rfl
  | condition hlookup hblank =>
    show (Step.ofParams .condition params).map some = _
    simp only [Step.ofParams, hlookup, Option.bind_some, Value.text?, hblank]
    rfl
  | loop hlookup hwhole =>
    show (Step.ofParams .loop params).map some = _
    simp only [Step.ofParams, Step.naturalNumber?, hlookup, hwhole]
    rfl

theorem unknown_of_step? (h : step? type params = .ok none) :
    type.bind NodeType.ofText? = none := by
  unfold step? at h
  split at h
  · obtain ⟨found, _, hfound⟩ := eq_ok_of_map h
    cases hfound
  · assumption

end Tree

/-! ### The relation -/

/-- `Compiles depth tree a`: within the depth, the tree compiles to the action. -/
inductive Compiles : Nat → Tree → Action → Prop where
  | absent (depth : Nat) : Compiles depth .absent .absent
  | unknown {depth : Nat} {type : Option String} {params : Entries Value}
      {whenTrue whenFalse body next : Tree} :
      Depth.compiledChain ≤ depth → type.bind NodeType.ofText? = none →
      Compiles depth (.node type params whenTrue whenFalse body next) .absent
  | sms {depth : Nat} {type : Option String} {params : Entries Value}
      {whenTrue whenFalse body next : Tree} {phoneNumber : String} {rest : Action} :
      Depth.compiledChain ≤ depth → Step.Given params type (.sms phoneNumber) →
      Compiles depth next rest →
      Compiles depth (.node type params whenTrue whenFalse body next)
        ((Action.sms phoneNumber).andNext rest)
  | email {depth : Nat} {type : Option String} {params : Entries Value}
      {whenTrue whenFalse body next : Tree} {sender receiver : String} {rest : Action} :
      Depth.compiledChain ≤ depth → Step.Given params type (.email sender receiver) →
      Compiles depth next rest →
      Compiles depth (.node type params whenTrue whenFalse body next)
        ((Action.email sender receiver).andNext rest)
  | condition {depth : Nat} {type : Option String} {params : Entries Value}
      {whenTrue whenFalse body next : Tree} {expression : String}
      {onTrue onFalse rest : Action} :
      Step.Given params type (.condition expression) →
      Compiles depth whenTrue onTrue → Compiles depth whenFalse onFalse →
      Compiles (depth + Depth.compiledLink) next rest →
      Compiles (depth + Depth.compiledLink) (.node type params whenTrue whenFalse body next)
        ((Action.condition expression onTrue onFalse).andNext rest)
  | loop {depth : Nat} {type : Option String} {params : Entries Value}
      {whenTrue whenFalse body next : Tree} {count : Nat} {inside rest : Action} :
      Step.Given params type (.loop count) → Compiles depth body inside →
      Compiles (depth + Depth.compiledLink) next rest →
      Compiles (depth + Depth.compiledLink) (.node type params whenTrue whenFalse body next)
        ((Action.loop count inside).andNext rest)

namespace Compilation

variable {α β : Type}

theorem map_eq_ok {f : α → β} {c : Compilation α} {b : β} (h : (c.map f).result = .ok b) :
    ∃ a, c.result = .ok a ∧ f a = b :=
  eq_ok_of_map h

theorem bind_eq_ok {f : α → Compilation β} {c : Compilation α} {b : β}
    (h : (c.bind f).result = .ok b) : ∃ a, c.result = .ok a ∧ (f a).result = .ok b := by
  obtain ⟨notices, result⟩ := c
  cases result with
  | error e => cases h
  | ok a => exact ⟨a, rfl, h⟩

end Compilation

theorem Tree.compileLink_eq_ok {compile : Nat → Compilation Action} {depth : Nat} {a : Action}
    (h : (compileLink compile depth).result = .ok a) :
    ∃ inside, depth = inside + Depth.compiledLink ∧ (compile inside).result = .ok a := by
  unfold compileLink at h
  split at h
  · rename_i inside hinside
    exact ⟨inside, Depth.take?_eq_some.mp hinside, h⟩
  · cases h

/-- **The relation covers the compiler.** -/
theorem compiles_of_ok {tree : Tree} {depth : Nat} {a : Action}
    (h : (tree.compile depth).result = .ok a) : Compiles depth tree a := by
  induction tree generalizing depth a with
  | absent =>
    cases h
    exact .absent depth
  | node type params whenTrue whenFalse body next iht ihf ihb ihn =>
    rw [Tree.compile] at h
    split at h
    · cases h
    · rename_i hdepth
      have hchain := Nat.le_of_not_lt hdepth
      split at h
      · cases h
      · rename_i hstep
        cases h
        exact .unknown hchain (Tree.unknown_of_step? hstep)
      · rename_i phoneNumber hstep
        obtain ⟨rest, hrest, rfl⟩ := Compilation.map_eq_ok h
        exact .sms hchain (Tree.given_of_step? hstep) (ihn hrest)
      · rename_i sender receiver hstep
        obtain ⟨rest, hrest, rfl⟩ := Compilation.map_eq_ok h
        exact .email hchain (Tree.given_of_step? hstep) (ihn hrest)
      · rename_i expression hstep
        obtain ⟨onTrue, htrue, h⟩ := Compilation.bind_eq_ok h
        obtain ⟨onFalse, hfalse, h⟩ := Compilation.bind_eq_ok h
        obtain ⟨rest, hrest, rfl⟩ := Compilation.map_eq_ok h
        obtain ⟨inside, rfl, htrue⟩ := Tree.compileLink_eq_ok htrue
        obtain ⟨inside', hinside, hfalse⟩ := Tree.compileLink_eq_ok hfalse
        obtain rfl : inside = inside' := by omega
        exact .condition (Tree.given_of_step? hstep) (iht htrue) (ihf hfalse) (ihn hrest)
      · rename_i count hstep
        obtain ⟨inside, hinside, h⟩ := Compilation.bind_eq_ok h
        obtain ⟨rest, hrest, rfl⟩ := Compilation.map_eq_ok h
        obtain ⟨inside, rfl, hinside⟩ := Tree.compileLink_eq_ok hinside
        exact .loop (Tree.given_of_step? hstep) (ihb hinside) (ihn hrest)

/-- A value that compiles is a tree that does. -/
theorem compileValue_eq_ok {depth : Nat} {value : Value} {a : Action}
    (h : (compileValue depth value).result = .ok a) :
    ∃ tree, Tree.ofValue depth value = .ok tree ∧ (tree.compile depth).result = .ok a := by
  unfold compileValue at h
  split at h
  · cases h
  · cases htree : Tree.ofValue depth value with
    | error e =>
      rw [htree] at h
      cases h
    | ok tree =>
      rw [htree] at h
      refine ⟨tree, rfl, ?_⟩
      simp only [Compiled.ofTree] at h
      cases hresult : (tree.compile depth).result with
      | error e =>
        rw [hresult] at h
        cases h
      | ok found =>
        rw [hresult] at h
        cases h
        rfl

/-! ### What is there to run -/

theorem Step.Given.isSome {params : Entries Value} {type : Option String} {step : Step}
    (h : Step.Given params type step) : (type.bind NodeType.ofText?).isSome = true := by
  cases h <;> rfl

namespace Action

theorem andNext_of_isPresent (first : Action) {rest : Action} (h : rest.isPresent = true) :
    first.andNext rest = .sequence first rest := by
  cases rest with
  | absent => cases h
  | _ => rfl

theorem isPresent_andNext {first : Action} (h : first.isPresent = true) (rest : Action) :
    (first.andNext rest).isPresent = true := by
  cases rest with
  | absent => exact h
  | _ => rfl

theorem isSequence_andNext {first : Action} (h : first.isSequence = false) (rest : Action) :
    (first.andNext rest).isSequence = rest.isPresent := by
  cases rest with
  | absent => exact h
  | _ => rfl

theorem eq_absent_of_isPresent {a : Action} (h : a.isPresent = false) : a = .absent := by
  cases a with
  | absent => rfl
  | _ => cases h

end Action

namespace Compiles

variable {depth : Nat} {tree : Tree} {a : Action}

/-- An action is there exactly if the chain begins with a node of a known type. -/
theorem isPresent_eq (h : Compiles depth tree a) : a.isPresent = tree.isKnown := by
  cases h with
  | absent => rfl
  | unknown _ hunknown =>
    show false = Option.isSome _
    rw [hunknown]
    rfl
  | sms _ hgiven _ => exact (Action.isPresent_andNext rfl _).trans hgiven.isSome.symm
  | email _ hgiven _ => exact (Action.isPresent_andNext rfl _).trans hgiven.isSome.symm
  | condition hgiven _ _ _ => exact (Action.isPresent_andNext rfl _).trans hgiven.isSome.symm
  | loop hgiven _ _ => exact (Action.isPresent_andNext rfl _).trans hgiven.isSome.symm

/-- Where there is something to run, the depth is enough for its chain. -/
theorem compiledChain_le (h : Compiles depth tree a) (hpresent : a.isPresent = true) :
    Depth.compiledChain ≤ depth := by
  cases h with
  | absent => cases hpresent
  | unknown hchain _ => exact hchain
  | sms hchain _ _ => exact hchain
  | email hchain _ _ => exact hchain
  | condition _ _ _ _ => exact Nat.le_add_left_of_le (by decide)
  | loop _ _ _ => exact Nat.le_add_left_of_le (by decide)

end Compiles

end DecisionFlow
