import DecisionFlow.Proofs.Configuration
import DecisionFlow.Proofs.Decompilation
import DecisionFlow.Proofs.Dependence
import DecisionFlow.Proofs.Faults
import DecisionFlow.Proofs.Prefixes
import DecisionFlow.Proofs.Reporting

/-!
# Blank conditions

A condition without a text is refused when its tree is compiled, and what counts as no text there is
what is cut into no tokens here.  So the parser never sees a text without tokens on behalf of a compiled
tree, and no run reports one.  Every other text gets past the compiler, whatever is wrong with it, and
only makes its condition not hold.

* `tokenize_eq_nil_iff` — a text is blank exactly if it has no tokens;
* `Condition.truthWithin_empty_iff` — only such a text fails for being empty, and it always does;
* `Node.faulty_condition_iff`, `Tree.compile_condition` — what the compiler makes of a condition;
* `Action.MayReport.error?_ne` — no action that a tree compiles to may report an empty text;
* `blank_conditions_are_refused` — all this for any text, and for any tree that compiles.
-/

namespace DecisionFlow

/-! ### Texts without tokens -/

/-- Where a token is cut, there is a token; only white space is passed over. -/
theorem Token.scan_eq_nil_iff {pos : Nat} {cs : List Char} :
    scan pos cs = .ok [] ↔ cs.all Text.isBlank = true := by
  induction cs generalizing pos with
  | nil =>
    rw [scan]
    exact iff_of_true rfl rfl
  | cons c rest ih =>
    rw [List.all_cons]
    cases hc : Text.isBlank c with
    | true => rw [scan_of_blank hc, ih, Bool.true_and]
    | false =>
      rw [Bool.false_and]
      refine iff_of_false (fun h => ?_) Bool.false_ne_true
      cases hread : Lexeme.read? (c :: rest) with
      | none =>
        rw [scan_of_read?_eq_none (ne_true_of_eq_false hc) hread] at h
        cases h
      | some read =>
        rw [scan_of_read? hread] at h
        cases hmore : scan (pos + read.1.text.length) read.2 with
        | error e =>
          rw [hmore] at h
          cases h
        | ok tokens =>
          rw [hmore] at h
          cases h

/-- **A text is blank exactly if it has no tokens.** -/
theorem tokenize_eq_nil_iff {text : String} : tokenize text = .ok [] ↔ Text.isBlankText text = true :=
  Token.scan_eq_nil_iff

theorem isBlankText_eq_false_iff {text : String} :
    Text.isBlankText text = false ↔ tokenize text ≠ .ok [] := by
  rw [Ne, tokenize_eq_nil_iff, Bool.not_eq_true]

/-! ### Failing for being empty -/

/-- An outcome is an error with this message. -/
def FailsWith {ε α : Type} (describe : ε → String) (outcome : Except (Bounded ε) α)
    (message : String) : Prop :=
  ∃ stop, outcome = .error stop ∧ stop.message describe = message

namespace Expr

/-- The parser without a limit has nothing to read only if there is no token. -/
theorem ofTokens_eq_empty_iff {tokens : List Token} : ofTokens tokens = .error .empty ↔ tokens = [] := by
  constructor
  · intro h
    -- neither the end of the tokens nor one of them is refused for there being none
    obtain ⟨last, hlast, -, ⟨hnil, -⟩ | hfinish⟩ | ⟨reached, token, -, -, hstep⟩ :=
      ofTokens_error_cases h
    · exact hnil
    · exact SyntaxError.blames_of_finish hlast hfinish
    · have hmoves := reached.moves_step token
      rw [hstep] at hmoves
      exact hmoves.elim
  · rintro rfl
    rfl

theorem ofTokensWithin_eq_empty_iff {depth : Nat} {tokens : List Token} :
    ofTokensWithin depth tokens = .error (.because .empty) ↔ tokens = [] := by
  constructor
  · intro h
    rw [ofTokensWithin_eq] at h
    exact ofTokens_eq_empty_iff.mp (Bounded.eq_error_of_within h)
  · rintro rfl
    rfl

theorem parseWithin_eq_empty_iff (depth : Nat) {text : String} :
    parseWithin depth text = .error (.because .empty) ↔ tokenize text = .ok [] := by
  unfold parseWithin
  cases tokenize text with
  | error e => exact iff_of_false nofun nofun
  | ok tokens => exact ofTokensWithin_eq_empty_iff.trans (Except.ok.injEq ..).symm.to_iff

end Expr

/-- A text is no other text that begins with another character. -/
theorem append_ne_of_head? {front other : String} (hfront : front ≠ "")
    (hhead : front.toList.head? ≠ other.toList.head?) (rest : String) : front ++ rest ≠ other := by
  rintro rfl
  obtain ⟨c, more, hcons⟩ := List.exists_cons_of_ne_nil (mt String.toList_eq_nil_iff.mp hfront)
  rw [String.toList_append, hcons] at hhead
  exact hhead rfl

theorem SyntaxError.message_eq_empty_iff {e : SyntaxError} :
    e.message = "Empty expression" ↔ e = .empty := by
  refine ⟨fun h => ?_, fun h => h ▸ rfl⟩
  unfold message at h
  cases e with
  | empty => rfl
  | unexpectedEnd => exact absurd h (by decide +kernel)
  | missingClosing => exact absurd h (append_ne_of_head? (by decide) (by decide +kernel) _)
  | unexpectedCharacter | unexpectedToken | chainedComparison | numeralTooLong =>
    simp only [String.append_assoc] at h
    exact absurd h (append_ne_of_head? (by decide) (by decide +kernel) _)

theorem EvalError.message_ne_empty (e : EvalError) : e.message ≠ "Empty expression" := by
  unfold message
  cases e with
  | booleanExpected place =>
    unfold BooleanPlace.text
    cases place <;> simp only [String.append_assoc] <;>
      exact append_ne_of_head? (by decide) (by decide +kernel) _
  | unknownVariable | unsupportedVariable | kindMismatch | unorderedBooleans =>
    simp only [String.append_assoc]
    exact append_ne_of_head? (by decide) (by decide +kernel) _

/-- The message for an empty text is the message of nothing else. -/
theorem message_eq_empty_iff {stop : Bounded ConditionError} :
    stop.message ConditionError.message = "Empty expression" ↔ stop = .because (.malformed .empty) := by
  constructor
  · intro h
    cases stop with
    | tooDeep => exact absurd h (by decide +kernel)
    | because cause =>
      cases cause with
      | malformed e => rw [SyntaxError.message_eq_empty_iff.mp h]
      | valueless e => exact absurd h e.message_ne_empty
  · rintro rfl
    rfl

namespace Condition

theorem truthWithin_eq_empty_iff (depth : Nat) {text : String} (vars : Variables) :
    truthWithin depth text vars = .error (.because (.malformed .empty)) ↔ tokenize text = .ok [] := by
  rw [← Expr.parseWithin_eq_empty_iff depth, truthWithin]
  cases Expr.parseWithin depth text with
  | error stop =>
    cases stop with
    | tooDeep => exact iff_of_false nofun nofun
    | because e =>
      show Except.error (Bounded.because (ConditionError.malformed e)) = _ ↔ _
      simp
  | ok e =>
    refine iff_of_false ?_ nofun
    show Except.mapError (Bounded.map ConditionError.valueless) _ ≠ _
    cases (e.valueWithin vars depth).bind fun s => Expr.lift (s.boolean? .condition) with
    | ok b => exact nofun
    | error stop => cases stop <;> exact nofun

/-- **Only a text without tokens fails for being empty**, and it does at any depth and with any
variables. -/
theorem truthWithin_empty_iff (depth : Nat) (text : String) (vars : Variables) :
    FailsWith ConditionError.message (truthWithin depth text vars) "Empty expression" ↔
      tokenize text = .ok [] := by
  rw [← truthWithin_eq_empty_iff depth vars]
  constructor
  · rintro ⟨stop, hstop, hmessage⟩
    rw [hstop, message_eq_empty_iff.mp hmessage]
  · exact fun h => ⟨_, h, rfl⟩

/-- A text that cannot be cut into tokens fails for that, at any depth and with any variables. -/
theorem decision_of_unexpectedCharacter {text : String} {e : UnexpectedCharacter}
    (h : tokenize text = .error e) (depth : Nat) (vars : Variables) :
    decision depth text vars = ⟨false, some (.because (.malformed (.unexpectedCharacter e)))⟩ := by
  have hparse : Expr.parseWithin depth text = .error (.because (.unexpectedCharacter e)) := by
    rw [Expr.parseWithin, h]
  exact decision_of_error hparse vars

/-- A decision fails for what its text fails for. -/
theorem truthWithin_of_failure {depth : Nat} {text : String} {vars : Variables}
    {cause : Bounded ConditionError} (h : (decision depth text vars).failure = some cause) :
    truthWithin depth text vars = .error cause := by
  unfold decision at h
  cases htruth : truthWithin depth text vars with
  | ok b =>
    rw [htruth] at h
    cases h
  | error stop =>
    rw [htruth] at h
    exact congrArg Except.error (Option.some.inj h)

/-- What a failure comes to: the condition does not hold. -/
theorem decision_of_failure {depth : Nat} {text : String} {vars : Variables}
    {cause : Bounded ConditionError} (h : (decision depth text vars).failure = some cause) :
    decision depth text vars = ⟨false, some cause⟩ := by
  rw [decision, truthWithin_of_failure h]

end Condition

/-! ### What the compiler makes of a condition -/

/-- A condition with a text has no fault but a blank one. -/
theorem Node.faulty_condition_iff {params : Entries Value} {text : String}
    (hlookup : params.lookup "expression" = some (.string text)) {e : ParamError} :
    Faulty ⟨some "condition", params⟩ e ↔ e = .expression ∧ tokenize text = .ok [] := by
  rw [tokenize_eq_nil_iff]
  have hblamed (hblank : Text.isBlankText text = true) : Faulty ⟨some "condition", params⟩ .expression := by
    refine ⟨.condition, rfl, .expression fun other hother => ?_⟩
    cases hlookup.symm.trans hother
    exact hblank
  constructor
  · intro hfaulty
    cases hblank : Text.isBlankText text with
    | false =>
      have hstep := Tree.step?_of_given (.condition hlookup hblank)
      exact absurd hfaulty (sound_of_step? hstep e)
    | true => exact ⟨hfaulty.unique (hblamed hblank), rfl⟩
  · rintro ⟨rfl, hblank⟩
    exact hblamed hblank

/-- **A condition with a token, or with a text that cannot be cut, is compiled as it is.** -/
theorem Tree.compile_condition {params : Entries Value} {text : String}
    (hlookup : params.lookup "expression" = some (.string text)) (htext : tokenize text ≠ .ok [])
    {depth : Nat} {whenTrue whenFalse body next : Tree} {onTrue onFalse rest : Action}
    (htrue : (whenTrue.compile depth).result = .ok onTrue)
    (hfalse : (whenFalse.compile depth).result = .ok onFalse)
    (hnext : (next.compile (depth + Depth.compiledLink)).result = .ok rest) :
    ((Tree.node (some "condition") params whenTrue whenFalse body next).compile
      (depth + Depth.compiledLink)).result = .ok ((Action.condition text onTrue onFalse).andNext rest) := by
  have hstep := step?_of_given (.condition hlookup (isBlankText_eq_false_iff.mpr htext))
  have hchain : ¬depth + Depth.compiledLink < Depth.compiledChain :=
    Nat.not_lt.mpr (Nat.le_add_left_of_le (by decide))
  have htake : Depth.take? Depth.compiledLink (depth + Depth.compiledLink) = some depth :=
    Depth.take?_eq_some.mpr rfl
  simp only [compile, if_neg hchain, hstep, compileLink, htake, Compilation.bind, Compilation.map, htrue,
    hfalse, hnext]
  rfl

/-! ### What runs report -/

/-- The error that an event tells. -/
def Event.error? (event : Event) : Option Value := event.details?.bind (·.lookup "error")

theorem Event.error?_conditionFailed (expression : String) (cause : Bounded ConditionError) :
    (conditionFailed expression cause).error? = some (.string (cause.message ConditionError.message)) := rfl

namespace Action

theorem MayReport.isPresent {a : Action} {event : Event} (h : a.MayReport event) : a.isPresent = true := by
  cases h <;> rfl

/-- **No action that a tree compiles to may report an empty text.** -/
theorem MayReport.error?_ne {a : Action} {event : Event} (h : a.MayReport event) (ha : a.WellFormed) :
    event.error? ≠ some (.string "Empty expression") := by
  induction h with
  | @conditionFailed expression _ _ depth vars cause hfailure =>
    intro herror
    have hmessage : cause.message ConditionError.message = "Empty expression" := by
      rw [Event.error?_conditionFailed] at herror
      exact Scalar.string.inj (Value.scalar.inj (Option.some.inj herror))
    have htokens := (Condition.truthWithin_empty_iff depth expression vars).mp
      ⟨cause, Condition.truthWithin_of_failure hfailure, hmessage⟩
    exact isBlankText_eq_false_iff.mp ha.1 htokens
  | whenTrue hreport ih => exact ih (ha.2.1 hreport.isPresent)
  | whenFalse hreport ih => exact ih (ha.2.2 hreport.isPresent)
  | body hreport ih => exact ih (ha.2 hreport.isPresent)
  | first _ ih => exact ih ha.1
  | next _ ih => exact ih ha.2.2
  | sms | email | conditionDecided | loopStarted | loopSkipped | iteration | loopCompleted => exact nofun

/-- A condition that fails is reported and does not hold. -/
theorem run_condition_of_failure (executor : Executor) {depth : Nat} {r : Run} {expression : String}
    {cause : Bounded ConditionError} (h : (Condition.decision depth expression r.vars).failure = some cause)
    (whenTrue whenFalse : Action) :
    (condition expression whenTrue whenFalse).run executor depth r =
      executor.delegateIfPresent whenFalse (whenFalse.run executor) depth
        ((r.report (.conditionFailed expression cause)).report (.conditionDecided expression false)) := by
  rw [run_condition, Condition.decision_of_failure h]
  rfl

end Action

/-- The action of a value does not report an empty text. -/
theorem error?_ne_of_compileValue {depth : Nat} {value : Value} {a : Action}
    (h : (compileValue depth value).result = .ok a) (executor : Executor) (available : Nat)
    (vars : Variables) : ∀ event ∈ (a.execute available executor vars).trail,
      event.error? ≠ some (.string "Empty expression") := by
  intro event hevent
  obtain ⟨tree, -, hcompile⟩ := compileValue_eq_ok h
  have hreport := Action.mayReport_of_mem_trail hevent
  exact hreport.error?_ne ((compiles_of_ok hcompile).decompile_eq.1 hreport.isPresent)

/-! ### Blank conditions in trees -/

section visited

variable {depth : Nat} {value : Value} {tree : Tree} {before after : List Node} {params : Entries Value}
  {text : String}
variable (htree : Tree.ofValue depth value = .ok tree)
  (hvisited : tree.visited = before ++ ⟨some "condition", params⟩ :: after)
  (hlookup : params.lookup "expression" = some (.string text))
  (hshallow : (compileValue depth value).result ≠ .error .tooDeep)
  (hbefore : ∀ node ∈ before, node.Sound)
include htree hvisited hlookup hshallow hbefore

/-- A blank condition is what a tree is refused for, if no node in front of it has a fault. -/
theorem compileValue_of_blank (htext : tokenize text = .ok []) :
    (compileValue depth value).result = .error (.because (.invalid .expression)) := by
  have hfaulty := (Node.faulty_condition_iff hlookup).mpr ⟨rfl, htext⟩
  have hhere : FirstFault (⟨some "condition", params⟩ :: after) [] .expression := .here hfaulty
  have hfirst := hhere.append_left hbefore
  rw [← hvisited] at hfirst
  exact ((compileValue_from depth (by rintro rfl; cases htree)).invalid_iff hshallow htree .expression).mpr
    ⟨_, hfirst⟩

/-- Any other condition is passed, and the tree is compiled if no node behind it has a fault. -/
theorem compileValue_of_not_blank (htext : tokenize text ≠ .ok []) (hafter : ∀ node ∈ after, node.Sound) :
    ∃ a, (compileValue depth value).result = .ok a := by
  have hsound : Node.Sound ⟨some "condition", params⟩ := fun e hfaulty =>
    htext ((Node.faulty_condition_iff hlookup).mp hfaulty).2
  refine ((compileValue_from depth (by rintro rfl; cases htree)).passed_of_sound hshallow htree ?_).1
  rw [hvisited]
  exact List.forall_mem_append.mpr ⟨hbefore, List.forall_mem_cons.mpr ⟨hsound, hafter⟩⟩

end visited

/-- **Blank conditions are refused, and no others.**  White space is all that is trimmed from a text
exactly if the text has no tokens, and exactly then it fails for being empty.  In a tree without other
faults a condition with this text is what the tree is refused for, exactly then; a condition with any
other text is compiled as it is, and whatever it fails for when it is run, it only does not hold.  So no
run of an action that a value compiles to reports an empty text. -/
theorem blank_conditions_are_refused :
    (∀ text : String,
      (Text.trim text = "" ↔ tokenize text = .ok []) ∧
      (∀ depth vars, FailsWith ConditionError.message (Condition.truthWithin depth text vars)
        "Empty expression" ↔ tokenize text = .ok []) ∧
      (∀ depth value tree before params after, Tree.ofValue depth value = .ok tree →
        tree.visited = before ++ ⟨some "condition", params⟩ :: after →
        params.lookup "expression" = some (.string text) →
        (compileValue depth value).result ≠ .error .tooDeep → (∀ node ∈ before, node.Sound) →
        (tokenize text = .ok [] → FailsWith TreeError.message (compileValue depth value).result
          "ConditionAction requires 'expression' parameter") ∧
        ((∀ node ∈ after, node.Sound) →
          (FailsWith TreeError.message (compileValue depth value).result
            "ConditionAction requires 'expression' parameter" ↔ tokenize text = .ok []) ∧
          (tokenize text ≠ .ok [] → ∃ a, (compileValue depth value).result = .ok a))) ∧
      (tokenize text ≠ .ok [] →
        (∀ (params : Entries Value) (whenTrue whenFalse body next : Tree) (depth : Nat)
          (onTrue onFalse rest : Action), params.lookup "expression" = some (.string text) →
          (whenTrue.compile depth).result = .ok onTrue → (whenFalse.compile depth).result = .ok onFalse →
          (next.compile (depth + Depth.compiledLink)).result = .ok rest →
          ((Tree.node (some "condition") params whenTrue whenFalse body next).compile
            (depth + Depth.compiledLink)).result =
              .ok ((Action.condition text onTrue onFalse).andNext rest)) ∧
        (∀ e, tokenize text = .error e → ∀ depth vars, (Condition.decision depth text vars).failure =
          some (.because (.malformed (.unexpectedCharacter e)))) ∧
        ∀ (executor : Executor) (depth : Nat) (r : Run) (cause : Bounded ConditionError)
          (whenTrue whenFalse : Action), (Condition.decision depth text r.vars).failure = some cause →
          (Action.condition text whenTrue whenFalse).run executor depth r =
            executor.delegateIfPresent whenFalse (whenFalse.run executor) depth
              ((r.report (.conditionFailed text cause)).report (.conditionDecided text false)))) ∧
    ∀ depth value a, (compileValue depth value).result = .ok a →
      ∀ (executor : Executor) (available : Nat) (vars : Variables),
        ∀ event ∈ (a.execute available executor vars).trail,
          event.error? ≠ some (.string "Empty expression") := by
  refine ⟨fun text => ⟨?_, ?_, ?_, ?_⟩, ?_⟩
  · rw [Text.trim_eq_empty_iff, tokenize_eq_nil_iff]
  · exact fun depth vars => Condition.truthWithin_empty_iff depth text vars
  · intro depth value tree before params after htree hvisited hlookup hshallow hbefore
    have hrefused (htext : tokenize text = .ok []) : FailsWith TreeError.message
        (compileValue depth value).result "ConditionAction requires 'expression' parameter" :=
      ⟨_, compileValue_of_blank htree hvisited hlookup hshallow hbefore htext, rfl⟩
    have hpassed (hafter : ∀ node ∈ after, node.Sound) (htext : tokenize text ≠ .ok []) :=
      compileValue_of_not_blank htree hvisited hlookup hshallow hbefore htext hafter
    refine ⟨hrefused, fun hafter => ⟨⟨?_, hrefused⟩, hpassed hafter⟩⟩
    rintro ⟨stop, hstop, -⟩
    by_contra htext
    obtain ⟨a, ha⟩ := hpassed hafter htext
    rw [ha] at hstop
    cases hstop
  · intro htext
    refine ⟨?_, ?_, ?_⟩
    · intro params whenTrue whenFalse body next depth onTrue onFalse rest hlookup htrue hfalse hnext
      exact Tree.compile_condition hlookup htext htrue hfalse hnext
    · intro e he depth vars
      rw [Condition.decision_of_unexpectedCharacter he]
    · intro executor depth r cause whenTrue whenFalse hfailure
      exact Action.run_condition_of_failure executor hfailure whenTrue whenFalse
  · intro depth value a ha executor available vars
    exact error?_ne_of_compileValue ha executor available vars

/-- Inside a loop, a condition of an ideographic space and an information separator, and one of a
character that begins no token, which is only found out when it is run. -/
theorem blank_conditions_are_refused_in_loop :
    let inside (text : String) : Tree :=
      .node (some "condition") [("expression", .string text)] .absent .absent .absent .absent
    let tree (text : String) : Tree :=
      .node (some "loop") [("count", .integer 2)] .absent .absent (inside text) .absent
    let value (text : String) : Value := .object [("type", .string "loop"),
      ("params", .object [("count", .integer 2)]),
      ("subtree", .object [("type", .string "condition"),
        ("params", .object [("expression", .string text)])])]
    let looped : Action := .loop 2 (.condition "@" .absent .absent)
    Tree.ofValue Depth.standard (value "\u3000\u001c") = .ok (tree "\u3000\u001c") ∧
      tokenize "\u3000\u001c" = .ok [] ∧
      FailsWith TreeError.message (compileValue Depth.standard (value "\u3000\u001c")).result
        "ConditionAction requires 'expression' parameter" ∧
      tokenize "@" = .error ⟨'@', 0⟩ ∧
      (compileValue Depth.standard (value "@")).result = .ok looped ∧
      ((inside "@").compile (0 + Depth.compiledLink)).result = .ok (.condition "@" .absent .absent) ∧
      (Condition.decision Depth.standard "@" ∅).failure =
        some (.because (.malformed (.unexpectedCharacter ⟨'@', 0⟩))) ∧
      ((Action.condition "@" .absent .absent).execute Depth.standard .plain ∅).trail =
        #[.conditionFailed "@" (.because (.malformed (.unexpectedCharacter ⟨'@', 0⟩))),
          .conditionDecided "@" false] ∧
      ∀ event ∈ (looped.execute Depth.standard .plain ∅).trail,
        event.error? ≠ some (.string "Empty expression") := by
  intro inside tree value looped
  obtain ⟨hblank, hrun⟩ := blank_conditions_are_refused
  have hdecoded : Tree.ofValue Depth.standard (value "\u3000\u001c") = .ok (tree "\u3000\u001c") :=
    eq_ok_of_toOption (by decide +kernel)
  have hshallow : (compileValue Depth.standard (value "\u3000\u001c")).result ≠ .error .tooDeep := by
    have hresult : (compileValue Depth.standard (value "\u3000\u001c")).result =
        .error (.because (.invalid .expression)) := eq_error_of_swap (by decide +kernel)
    rw [hresult]
    exact nofun
  have hgiven : Step.Given [("count", .integer 2)] (some "loop") (.loop 2) := .loop (n := .integer 2) rfl rfl
  have hloop := Node.sound_of_step? (Tree.step?_of_given hgiven)
  have htokens : tokenize "\u3000\u001c" = .ok [] := eq_ok_of_toOption (by decide +kernel)
  have hrefused := ((hblank "\u3000\u001c").2.2.1 Depth.standard (value "\u3000\u001c")
    (tree "\u3000\u001c") [⟨some "loop", [("count", .integer 2)]⟩] [("expression", .string "\u3000\u001c")] []
    hdecoded rfl rfl hshallow (List.forall_mem_singleton.mpr hloop)).1 htokens
  have hcut : tokenize "@" = .error ⟨'@', 0⟩ := eq_error_of_swap (by decide +kernel)
  have hcompiled : (compileValue Depth.standard (value "@")).result = .ok looped :=
    eq_ok_of_toOption (by decide +kernel)
  obtain ⟨hkept, hfails, hdowngraded⟩ := (hblank "@").2.2.2 (by rw [hcut]; exact nofun)
  have hcondition := hkept [("expression", .string "@")] .absent .absent .absent .absent 0 .absent .absent
    .absent rfl rfl rfl rfl
  have hfailure := hfails _ hcut Depth.standard ∅
  have htrail := hdowngraded .plain Depth.standard (.start ∅) _ .absent .absent hfailure
  exact ⟨hdecoded, htokens, hrefused, hcut, hcompiled, hcondition, hfailure, congrArg Run.trail htrail,
    hrun Depth.standard (value "@") looped hcompiled .plain Depth.standard ∅⟩

end DecisionFlow
