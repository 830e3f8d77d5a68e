import DecisionFlow.Proofs.Compilation

/-!
# Decompiling actions

Every action that a tree compiles to is well formed, and every well-formed action is compiled from a
tree: the one that `decompile` reads off it.  Compiling and decompiling are inverse to each other, up
to what the compiler does not look at in a tree.

* `Action.WellFormed` — the actions that trees compile to;
* `Action.before`, `Action.decompile` — the tree of an action, before a tree and by itself;
* `Tree.prune` — a tree without what the compiler does not look at;
* `Compiles.decompile_eq` — decompiling what a tree compiles to prunes the tree;
* `Action.compile_before` — compiling what was decompiled gives the action back, exactly if the depth
  is as great as the action asks for;
* `compile_decompile` — the two round trips.
-/

namespace DecisionFlow

/-! ### Well-formed actions and their trees -/

namespace Action

/-- An action as the compiler makes them.  Branches and bodies may be left out. -/
def WellFormed : Action → Prop
  | sms phoneNumber => phoneNumber ≠ ""
  | email sender receiver => sender ≠ "" ∧ receiver ≠ ""
  | condition expression whenTrue whenFalse =>
    Text.isBlankText expression = false ∧
      (whenTrue.isPresent = true → whenTrue.WellFormed) ∧
      (whenFalse.isPresent = true → whenFalse.WellFormed)
  | loop count body => 0 ≤ count ∧ (body.isPresent = true → body.WellFormed)
  | sequence first next => first.WellFormed ∧ first.isSequence = false ∧ next.WellFormed
  | absent | assign _ _ | increase _ _ | fail _ | skip => False

/-- The tree of an action, with another tree after it. -/
def before : Action → Tree → Tree
  | sms phoneNumber, next =>
    .node (some "sms") [("phoneNumber", .string phoneNumber)] .absent .absent .absent next
  | email sender receiver, next =>
    .node (some "email") [("sender", .string sender), ("receiver", .string receiver)]
      .absent .absent .absent next
  | condition expression whenTrue whenFalse, next =>
    .node (some "condition") [("expression", .string expression)]
      (whenTrue.before .absent) (whenFalse.before .absent) .absent next
  | loop count body, next =>
    .node (some "loop") [("count", .integer count)] .absent .absent (body.before .absent) next
  | sequence first rest, next => first.before (rest.before next)
  | absent, next | assign _ _, next | increase _ _, next | fail _, next | skip, next => next

/-- The tree of an action. -/
def decompile (a : Action) : Tree := a.before .absent

/-- The depth that compiling the tree of an action takes. -/
def compilingDepth : Action → Nat
  | condition _ whenTrue whenFalse =>
    Depth.compiledLink + max whenTrue.compilingDepth whenFalse.compilingDepth
  | loop _ body => Depth.compiledLink + body.compilingDepth
  | sequence first next => max first.compilingDepth next.compilingDepth
  | sms _ | email _ _ => Depth.compiledChain
  | absent | assign _ _ | increase _ _ | fail _ | skip => 0

end Action

/-! ### Pruned trees -/

/-- A number that is whole, as an integer. -/
def Number.normalized (n : Number) : Number :=
  match n.whole? with
  | some i => .integer i
  | none => n

/-- A value that is a whole number, as an integer. -/
def Value.normalized : Value → Value
  | .scalar (.number n) => .number n.normalized
  | v => v

/-- The parameters that a type uses. -/
def NodeType.keys : NodeType → List String
  | sms => ["phoneNumber"]
  | email => ["sender", "receiver"]
  | condition => ["expression"]
  | loop => ["count"]

/-- The parameters of a node that its type uses, counts normalized. -/
def NodeType.kept (known : NodeType) (params : Entries Value) : Entries Value :=
  known.keys.filterMap fun key => (params.lookup key).map fun v =>
    (key, if known = .loop then v.normalized else v)

/-- A tree without what the compiler does not look at: every chain ends before its first node of
unknown type, and links and parameters that the type of a node does not use are gone. -/
def Tree.prune : Tree → Tree
  | absent => absent
  | node type params whenTrue whenFalse body next =>
    match type.bind NodeType.ofText? with
    | none => absent
    | some known =>
      .node type (known.kept params) (if known = .condition then whenTrue.prune else absent)
        (if known = .condition then whenFalse.prune else absent)
        (if known = .loop then body.prune else absent) next.prune

/-- Normalizing a number keeps its exact value. -/
theorem Number.place?_normalized (n : Number) : n.normalized.place? = n.place? := by
  unfold normalized
  cases hwhole : n.whole? with
  | none => rfl
  | some i =>
    cases n with
    | integer m =>
      cases hwhole
      rfl
    | double x =>
      have hx : x.whole? = some i := hwhole
      unfold Double.whole? at hx
      cases x with
      | finite negative exponent fraction =>
        have hunits : (Double.finite negative exponent fraction).units? =
            some (Double.signed negative (Double.magnitude exponent fraction)) := rfl
        simp only [hunits] at hx
        split at hx
        · rename_i hmod
          have hquotient := Option.some.inj hx
          have hexact := Int.ediv_mul_cancel (Int.dvd_of_emod_eq_zero hmod)
          rw [hquotient] at hexact
          show some (Place.finite (i * Double.unitsPerOne)) =
            some (Place.finite (Double.signed negative (Double.magnitude exponent fraction)))
          rw [hexact]
        · cases hx
      | _ => cases hx

/-! ### Decompiling what was compiled -/

namespace Action

theorem decompile_andNext (first rest : Action) :
    (first.andNext rest).decompile = first.before rest.decompile := by
  cases rest <;> rfl

theorem wellFormed_andNext {first rest : Action} (hfirst : first.WellFormed)
    (hsequence : first.isSequence = false) (hrest : rest.isPresent = true → rest.WellFormed) :
    (first.andNext rest).WellFormed := by
  cases hpresent : rest.isPresent with
  | false =>
    rw [eq_absent_of_isPresent hpresent]
    exact hfirst
  | true =>
    rw [andNext_of_isPresent first hpresent]
    exact ⟨hfirst, hsequence, hrest hpresent⟩

end Action

/-- **Decompiling what a tree compiles to prunes the tree**, and what it compiles to is well formed,
if there is anything. -/
theorem Compiles.decompile_eq {depth : Nat} {tree : Tree} {a : Action} (h : Compiles depth tree a) :
    (a.isPresent = true → a.WellFormed) ∧ a.decompile = tree.prune := by
  induction h with
  | absent => exact ⟨nofun, rfl⟩
  | unknown _ hunknown =>
    refine ⟨nofun, ?_⟩
    rw [Tree.prune, hunknown]
    rfl
  | @sms depth type params whenTrue whenFalse body next phoneNumber rest _ hgiven _ ih =>
    cases hgiven with
    | sms hlookup hne =>
      refine ⟨fun _ => Action.wellFormed_andNext hne rfl ih.1, ?_⟩
      have hkept : NodeType.sms.kept params = [("phoneNumber", .string phoneNumber)] := by
        simp [NodeType.kept, NodeType.keys, hlookup]
      rw [Action.decompile_andNext, ih.2, Action.before, ← hkept]
      rfl
  | @email depth type params whenTrue whenFalse body next sender receiver rest _ hgiven _ ih =>
    cases hgiven with
    | email hsender hsender' hreceiver hreceiver' =>
      refine ⟨fun _ => Action.wellFormed_andNext ⟨hsender', hreceiver'⟩ rfl ih.1, ?_⟩
      have hkept : NodeType.email.kept params =
          [("sender", .string sender), ("receiver", .string receiver)] := by
        simp [NodeType.kept, NodeType.keys, hsender, hreceiver]
      rw [Action.decompile_andNext, ih.2, Action.before, ← hkept]
      rfl
  | @condition depth type params whenTrue whenFalse body next expression onTrue onFalse rest hgiven
      _ _ _ iht ihf ihn =>
    cases hgiven with
    | condition hlookup hblank =>
      refine ⟨fun _ => Action.wellFormed_andNext ⟨hblank, iht.1, ihf.1⟩ rfl ihn.1, ?_⟩
      have hkept : NodeType.condition.kept params = [("expression", .string expression)] := by
        simp [NodeType.kept, NodeType.keys, hlookup]
      have htrue : onTrue.before .absent = whenTrue.prune := iht.2
      have hfalse : onFalse.before .absent = whenFalse.prune := ihf.2
      rw [Action.decompile_andNext, ihn.2, Action.before, ← hkept, htrue, hfalse]
      rfl
  | @loop depth type params whenTrue whenFalse body next count inside rest hgiven _ _ ihb ihn =>
    cases hgiven with
    | @loop n _ hlookup hwhole =>
      refine ⟨fun _ => Action.wellFormed_andNext ⟨Int.natCast_nonneg count, ihb.1⟩ rfl ihn.1, ?_⟩
      have hnormalized : Value.normalized (.number n) = .integer count := by
        rw [Value.normalized, Number.normalized, hwhole]
      have hkept : NodeType.loop.kept params = [("count", .integer count)] := by
        simp [NodeType.kept, NodeType.keys, hlookup, hnormalized]
      have hbody : inside.before .absent = body.prune := ihb.2
      rw [Action.decompile_andNext, ihn.2, Action.before, ← hkept, hbody]
      rfl

/-! ### Compiling what was decompiled -/

namespace Compilation

variable {α β : Type}

/-- A compilation that takes some depth. -/
def within (depth price : Nat) (c : Compilation α) : Compilation α :=
  if price ≤ depth then c else .error .tooDeep

theorem within_within (depth price price' : Nat) (c : Compilation α) :
    within depth price (within depth price' c) = within depth (max price price') c := by
  unfold within
  by_cases hprice : price ≤ depth
  · by_cases hprice' : price' ≤ depth
    · rw [if_pos hprice, if_pos hprice', if_pos (Nat.max_le.mpr ⟨hprice, hprice'⟩)]
    · rw [if_pos hprice, if_neg hprice', if_neg fun h => hprice' (Nat.max_le.mp h).2]
  · rw [if_neg hprice, if_neg fun h => hprice (Nat.max_le.mp h).1]

theorem within_pure_bind (depth price : Nat) (a : α) (f : α → Compilation β) :
    (within depth price (pure a)).bind f = within depth price (f a) := by
  unfold within
  split
  · rfl
  · rfl

theorem within_map (depth price : Nat) (c : Compilation α) (f : α → β) :
    (within depth price c).map f = within depth price (c.map f) := by
  unfold within
  split
  · rfl
  · rfl

theorem map_map {γ : Type} (c : Compilation α) (f : α → β) (g : β → γ) :
    (c.map f).map g = c.map fun a => g (f a) := by
  obtain ⟨notices, result⟩ := c
  cases result with
  | error e => rfl
  | ok a => rfl

end Compilation

/-- A link costs depth on top of what is behind it. -/
theorem Tree.compileLink_within {compile : Nat → Compilation Action} {price : Nat} {a : Action}
    (h : ∀ depth, compile depth = .within depth price (.pure a)) (depth : Nat) :
    compileLink compile depth = .within depth (Depth.compiledLink + price) (.pure a) := by
  unfold compileLink Depth.take?
  by_cases hlink : Depth.compiledLink ≤ depth
  · rw [if_pos hlink]
    show compile (depth - Depth.compiledLink) = _
    rw [h]
    unfold Compilation.within
    by_cases hprice : price ≤ depth - Depth.compiledLink
    · rw [if_pos hprice, if_pos (by omega)]
    · rw [if_neg hprice, if_neg (by omega)]
  · rw [if_neg hlink]
    unfold Compilation.within
    rw [if_neg (by omega)]

/-- A node that takes a chain's depth and then compiles as it should. -/
theorem Compilation.within_chain (depth : Nat) (c : Compilation Action) :
    (if depth < Depth.compiledChain then .error .tooDeep else c) =
      Compilation.within depth Depth.compiledChain c := by
  unfold Compilation.within
  by_cases hdepth : depth < Depth.compiledChain
  · rw [if_pos hdepth, if_neg (Nat.not_le.mpr hdepth)]
  · rw [if_neg hdepth, if_pos (Nat.not_lt.mp hdepth)]

namespace Action

/-- One action and then another, if there is one, as a chain. -/
def followedBy : Action → Action → Action
  | sequence first rest, next => .sequence first (rest.followedBy next)
  | a, next => a.andNext next

theorem followedBy_absent (a : Action) : a.followedBy .absent = a := by
  induction a with
  | sequence first rest _ ih =>
    show Action.sequence first (rest.followedBy .absent) = _
    rw [ih]
  | _ => rfl

theorem followedBy_of_not_sequence {first : Action} (h : first.isSequence = false)
    (next : Action) : first.followedBy next = first.andNext next := by
  cases first with
  | sequence _ _ => cases h
  | _ => rfl

theorem isPresent_followedBy {a : Action} (h : a.WellFormed) (next : Action) :
    (a.followedBy next).isPresent = true := by
  cases a with
  | absent => exact h.elim
  | sequence _ _ => rfl
  | _ => exact isPresent_andNext rfl next

end Action

/-- What compiling an action's tree before every other tree gives, it gives for the tree by itself:
a branch or a body, which may be left out. -/
theorem Action.compile_decompile_of_before {a : Action}
    (h : a.isPresent = true → ∀ next depth, (a.before next).compile depth =
      .within depth a.compilingDepth ((next.compile depth).map a.followedBy)) (depth : Nat) :
    a.decompile.compile depth = .within depth a.compilingDepth (.pure a) := by
  cases hpresent : a.isPresent with
  | true =>
    rw [Action.decompile, h hpresent]
    show Compilation.within depth a.compilingDepth (.pure (a.followedBy .absent)) = _
    rw [Action.followedBy_absent]
  | false =>
    rw [Action.eq_absent_of_isPresent hpresent]
    exact (if_pos (Nat.zero_le depth)).symm

/-- What the tree of an action, with another tree after it, compiles to. -/
theorem Action.compile_before {a : Action} (h : a.WellFormed) (next : Tree) (depth : Nat) :
    (a.before next).compile depth =
      .within depth a.compilingDepth ((next.compile depth).map a.followedBy) := by
  induction a generalizing next depth with
  | sms phoneNumber =>
    rw [before, Tree.compile, Tree.step?_of_given (.sms rfl h)]
    exact Compilation.within_chain depth _
  | email sender receiver =>
    rw [before, Tree.compile, Tree.step?_of_given (.email rfl h.1 rfl h.2)]
    exact Compilation.within_chain depth _
  | condition expression whenTrue whenFalse iht ihf =>
    obtain ⟨hblank, htrue, hfalse⟩ := h
    have hprice : max Depth.compiledChain (max (Depth.compiledLink + whenTrue.compilingDepth)
        (Depth.compiledLink + whenFalse.compilingDepth)) =
        Depth.compiledLink + max whenTrue.compilingDepth whenFalse.compilingDepth := by
      simp only [Depth.compiledChain, Depth.compiledLink]
      omega
    have hcompiled := compile_decompile_of_before fun hpresent => iht (htrue hpresent)
    have hcompiled' := compile_decompile_of_before fun hpresent => ihf (hfalse hpresent)
    rw [before, Tree.compile, Tree.step?_of_given (.condition rfl hblank), compilingDepth, ← hprice,
      ← Compilation.within_within, ← Compilation.within_within, ← Compilation.within_chain]
    show (if depth < Depth.compiledChain then Compilation.error .tooDeep else
      (Tree.compileLink (fun depth => whenTrue.decompile.compile depth) depth).bind fun onTrue =>
        (Tree.compileLink (fun depth => whenFalse.decompile.compile depth) depth).bind fun onFalse =>
          (next.compile depth).map (Action.condition expression onTrue onFalse).andNext) = _
    rw [Tree.compileLink_within hcompiled, Tree.compileLink_within hcompiled',
      Compilation.within_pure_bind, Compilation.within_pure_bind]
    rfl
  | loop count body ih =>
    obtain ⟨hcount, hbody⟩ := h
    obtain ⟨count, rfl⟩ := Int.eq_ofNat_of_zero_le hcount
    have hprice : max Depth.compiledChain (Depth.compiledLink + body.compilingDepth) =
        Depth.compiledLink + body.compilingDepth := by
      simp only [Depth.compiledChain, Depth.compiledLink]
      omega
    have hcompiled := compile_decompile_of_before fun hpresent => ih (hbody hpresent)
    rw [before, Tree.compile, Tree.step?_of_given (.loop rfl rfl), compilingDepth, ← hprice,
      ← Compilation.within_within, ← Compilation.within_chain]
    show (if depth < Depth.compiledChain then Compilation.error .tooDeep else
      (Tree.compileLink (fun depth => body.decompile.compile depth) depth).bind fun inside =>
        (next.compile depth).map (Action.loop count inside).andNext) = _
    rw [Tree.compileLink_within hcompiled, Compilation.within_pure_bind]
    rfl
  | sequence first rest ihf ihr =>
    obtain ⟨hfirst, hsequence, hrest⟩ := h
    rw [before, ihf hfirst, ihr hrest, Compilation.within_map, Compilation.within_within,
      Compilation.map_map]
    have hchain : (fun a => first.followedBy (rest.followedBy a)) =
        (Action.sequence first rest).followedBy := by
      funext a
      rw [Action.followedBy_of_not_sequence hsequence,
        Action.andNext_of_isPresent first (Action.isPresent_followedBy hrest a)]
      rfl
    rw [hchain]
    rfl
  | absent => exact h.elim
  | assign _ _ => exact h.elim
  | increase _ _ => exact h.elim
  | fail _ => exact h.elim
  | skip => exact h.elim

/-- **Compiling and decompiling are inverse to each other.** What a tree compiles to is well formed,
and decompiling it gives the tree, pruned.  A well-formed action is decompiled to a tree that
compiles to just this action and leaves no notice, provided that the depth is as great as the action
asks for.  The counts of a pruned tree are integers of the same exact value as those of the tree. -/
theorem compile_decompile (depth : Nat) :
    (∀ (tree : Tree) (a : Action), (tree.compile depth).result = .ok a →
      (a.isPresent = true → a.WellFormed) ∧ a.decompile = tree.prune) ∧
    (∀ a : Action, a.WellFormed → a.decompile.compile depth =
      if a.compilingDepth ≤ depth then ⟨[], .ok a⟩ else ⟨[], .error .tooDeep⟩) ∧
    (∀ n : Number, n.normalized.place? = n.place?) := by
  refine ⟨fun tree a h => (compiles_of_ok h).decompile_eq, ?_, Number.place?_normalized⟩
  intro a h
  exact Action.compile_decompile_of_before (fun _ => Action.compile_before h) depth

/-- A loop whose count is a double, with a parameter and a link that it does not use, and with a node
of unknown type after the text message that comes next. -/
theorem compile_decompile_reminder :
    let message (next : Tree) : Tree :=
      .node (some "sms") [("phoneNumber", .string "1")] .absent .absent .absent next
    let fax : Tree := .node (some "fax") [] .absent .absent .absent .absent
    let tree : Tree := .node (some "loop") [("note", .null), ("count", .double (.ofInt 2))]
      (message .absent) .absent fax (message fax)
    let pruned : Tree := .node (some "loop") [("count", .integer 2)] .absent .absent .absent
      (message .absent)
    let a : Action := .sequence (.loop 2 .absent) (.sms "1")
    (tree.compile 10).result = .ok a ∧ a.WellFormed ∧ a.decompile = tree.prune ∧
      tree.prune = pruned ∧ pruned.compile 10 = ⟨[], .ok a⟩ := by
  intro message fax tree pruned a
  have hcompiled : (tree.compile 10).result = .ok a := eq_ok_of_toOption (by decide +kernel)
  obtain ⟨hdecompile, hcompile, -⟩ := compile_decompile 10
  obtain ⟨hwellFormed, hpruned⟩ := hdecompile tree a hcompiled
  have hprune : tree.prune = pruned := by decide +kernel
  have hback := hcompile a (hwellFormed rfl)
  rw [hpruned, hprune] at hback
  exact ⟨hcompiled, hwellFormed rfl, hpruned, hprune, hback⟩

end DecisionFlow
