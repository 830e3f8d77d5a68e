import DecisionFlow.Proofs.Faults
import DecisionFlow.Proofs.Interpreter
import DecisionFlow.Proofs.Phases

/-!
# Which payloads are executed

Whatever compiles can be run: no tree that was read from a text fails while it runs, and none changes
the variables.  So a payload is either refused before anything happens, or it runs to its end.

* `Tree.Writable` — the parameters of a tree can be written, as those of a tree that was read can;
* `Compiles.countsWritable` — then no loop of its action has a count that is too long to be reported;
* `Compiles.completes` — and the action runs to its end, on any variables, and leaves them unchanged;
* `Value.IsValid` — the payloads that have an action, without the compiler: `exists_admits_iff`;
* `execute_answers` — the answers to all payloads.
-/

namespace DecisionFlow

/-! ### Whole numbers -/

namespace Double

/-- The largest finite double has fewer than two to the 2098 units. -/
theorem magnitude_lt (exponent : Fin 2047) (fraction : Fin (2 ^ 52)) {n : Nat} (hn : 2098 ≤ n) :
    magnitude exponent fraction < 2 ^ n := by
  have hfraction := fraction.isLt
  have hexponent := exponent.isLt
  unfold magnitude
  split
  · exact Nat.lt_of_lt_of_le hfraction (Nat.pow_le_pow_right Nat.two_pos (by omega))
  · have hsignificand : 2 ^ 52 + fraction.val < 2 ^ 53 := by omega
    have hscaled : (2 ^ 52 + fraction.val) * 2 ^ (exponent.val - 1) <
        2 ^ 53 * 2 ^ (exponent.val - 1) :=
      Nat.mul_lt_mul_of_pos_right hsignificand (Nat.two_pow_pos _)
    rw [← Nat.pow_add] at hscaled
    exact Nat.lt_of_lt_of_le hscaled (Nat.pow_le_pow_right Nat.two_pos (by omega))

/-- A whole double has at most 2098 digits. -/
theorem natAbs_whole?_lt {x : Double} {k : Int} (h : x.whole? = some k) {n : Nat} (hn : 2098 ≤ n) :
    k.natAbs < 10 ^ n := by
  have hpower : 2 ^ n ≤ 10 ^ n := Nat.pow_le_pow_left (by decide) n
  unfold whole? at h
  split at h
  · rename_i u hunits
    split at h
    · cases h
      have hquotient := Int.natAbs_ediv_le_natAbs u unitsPerOne
      cases x with
      | finite negative exponent fraction =>
        cases hunits
        rw [natAbs_signed] at hquotient
        have hunder := magnitude_lt exponent fraction hn
        omega
      | _ => cases hunits
    · cases h
  · cases h

end Double

/-- A number that can be written is, if it is whole, an integer that can be written. -/
theorem Number.isTooLong_of_whole? {n : Number} {k : Int} (h : n.isTooLong = false)
    (hwhole : n.whole? = some k) : Numeral.isTooLong k = false := by
  cases n with
  | integer m =>
    cases hwhole
    exact h
  | double x =>
    rw [Numeral.isTooLong_eq_false_iff]
    exact Double.natAbs_whole?_lt hwhole (by decide)

/-! ### Trees that were read -/

/-- The parameters of all nodes of a tree can be written. -/
def Tree.Writable : Tree → Prop
  | absent => True
  | node _ params whenTrue whenFalse body next =>
    (Value.object params).Writable ∧ whenTrue.Writable ∧ whenFalse.Writable ∧ body.Writable ∧
      next.Writable

/-- The tree of an object can be written if the object can. -/
theorem Decodes.writable {object? : Option (Entries Value)} {tree : Tree} (h : Decodes object? tree)
    (hobject : ∀ fields, object? = some fields → (Value.object fields).Writable) : tree.Writable := by
  induction h with
  | absent => trivial
  | @node fields whenTrue whenFalse body next _ _ _ _ iht ihf ihb ihn =>
    have hfields := hobject fields rfl
    have hinner (field : NodeField) (inner : Entries Value) (h : field.inner? fields = some inner) :
        (Value.object inner).Writable :=
      hfields.of_lookup (NodeField.inner?_eq_some_iff.mp h)
    refine ⟨?_, iht (hinner .whenTrue), ihf (hinner .whenFalse), ihb (hinner .body), ihn (hinner .next)⟩
    cases hparams : NodeField.params.inner? fields with
    | none => exact Value.writable_object nofun
    | some params => exact hinner .params params hparams

theorem Action.countsWritable_of_andNext {first rest : Action} (hfirst : first.CountsWritable)
    (hrest : rest.CountsWritable) : (first.andNext rest).CountsWritable := by
  cases rest with
  | absent => exact hfirst
  | _ => exact ⟨hfirst, hrest⟩

namespace Compiles

variable {depth : Nat} {tree : Tree} {a : Action}

/-- The loops of the action of a tree have counts that can be written if the tree can be. -/
theorem countsWritable (h : Compiles depth tree a) (htree : tree.Writable) : a.CountsWritable := by
  induction h with
  | absent => trivial
  | unknown => trivial
  | sms _ _ _ ih => exact Action.countsWritable_of_andNext trivial (ih htree.2.2.2.2)
  | email _ _ _ ih => exact Action.countsWritable_of_andNext trivial (ih htree.2.2.2.2)
  | condition _ _ _ _ iht ihf ihn =>
    obtain ⟨-, htrue, hfalse, -, hnext⟩ := htree
    exact Action.countsWritable_of_andNext ⟨iht htrue, ihf hfalse⟩ (ihn hnext)
  | loop hgiven _ _ ihb ihn =>
    obtain ⟨hparams, -, -, hbody, hnext⟩ := htree
    cases hgiven with
    | loop hlookup hwhole =>
      have hcount := Number.isTooLong_of_whole? (hparams.of_lookup hlookup _ (.here _)) hwhole
      exact Action.countsWritable_of_andNext ⟨hcount, ihb hbody⟩ (ihn hnext)

/-- **What compiles runs to its end** and leaves the variables as they are. -/
theorem completes (h : Compiles depth tree a) (hcounts : a.CountsWritable)
    (hpresent : a.isPresent = true) (vars : Variables) :
    (a.execute depth .plain vars).failure = none ∧ (a.execute depth .plain vars).vars = vars := by
  have hroom : depth ≤ tree.nodeRoom depth + Depth.delegation := by
    have hnodes := tree.le_nodeRoom depth
    simp only [Depth.delegation] at hnodes ⊢
    omega
  have hrun := h.simulates hcounts depth hpresent hroom (Run.start vars) rfl rfl
  unfold Action.execute
  rw [hrun]
  exact ⟨rfl, rfl⟩

end Compiles

/-! ### Payloads that have an action -/

theorem Tree.isKnown_iff {fields : Entries Value} {tree : Tree} (h : Decodes (some fields) tree) :
    tree.isKnown = true ↔
      ∃ known : NodeType, fields.lookup "type" = some (.string known.text) := by
  cases h with
  | node _ _ _ _ =>
    show (((fields.lookup "type").bind Value.text?).bind NodeType.ofText?).isSome = true ↔ _
    constructor
    · intro h
      obtain ⟨known, hknown⟩ := Option.isSome_iff_exists.mp h
      obtain ⟨name, hname, hknown⟩ := Option.bind_eq_some_iff.mp hknown
      refine ⟨known, ?_⟩
      rw [← NodeType.eq_text_of_ofText? hknown]
      exact Step.lookup_of_text? hname
    · rintro ⟨known, hlookup⟩
      rw [hlookup]
      show (NodeType.ofText? known.text).isSome = true
      rw [Node.ofText?_text]
      rfl

/-- `payload.IsValid`: the payload is an object of a known type without a defect in its shape, and no
node that the compiler would look at has a fault. -/
def Value.IsValid (payload : Value) : Prop :=
  ∃ fields tree, payload = .object fields ∧ Decodes (some fields) tree ∧
    (∃ known : NodeType, fields.lookup "type" = some (.string known.text)) ∧
    (∀ e, ¬payload.HasDefect e) ∧ ∀ node ∈ tree.visited, node.Sound

/-- **A payload has an action to run exactly if it is valid**, unless it is nested too deeply. -/
theorem exists_admits_iff {depth : Nat} {payload : Value}
    (hshallow : (compileValue depth payload).result ≠ .error .tooDeep) :
    (∃ a, payload.Admits depth a) ↔ payload.IsValid := by
  have hdecoded := Tree.ofValue_decoded depth payload
  constructor
  · rintro ⟨a, ⟨fields, v, rfl, -, -⟩, hresult, hpresent⟩
    obtain ⟨tree, htree, hcompiled⟩ := compileValue_eq_ok hresult
    rw [htree] at hdecoded
    obtain ⟨hsound, _, ⟨⟩, hdecodes⟩ := hdecoded
    have hknown : tree.isKnown = true := by
      rw [← (compiles_of_ok hcompiled).isPresent_eq]
      cases habsent : a.isPresent with
      | true => rfl
      | false => exact absurd (Action.eq_absent_of_isPresent habsent) hpresent
    refine ⟨fields, tree, rfl, hdecodes, (Tree.isKnown_iff hdecodes).mp hknown, hsound, ?_⟩
    cases tree.compile_visits depth with
    | passed _ hvisited _ => exact hvisited
    | stopped herror _ _ | tooDeep herror =>
      rw [hcompiled] at herror
      cases herror
  · rintro ⟨fields, tree, rfl, hdecodes, ⟨known, hlookup⟩, hsound, hvisited⟩
    have hvalue : Value.object fields ≠ .null := nofun
    cases compileValue_from depth hvalue with
    | undecodable he _ =>
      rw [he] at hdecoded
      exact absurd hdecoded (hsound _)
    | @passed found a htree hok _ hcompiled =>
      rw [htree] at hdecoded
      obtain ⟨-, _, ⟨⟩, hfound⟩ := hdecoded
      have hpresent := (compiles_of_ok hok).isPresent_eq
      rw [(Tree.isKnown_iff hfound).mpr ⟨known, hlookup⟩] at hpresent
      refine ⟨a, ⟨fields, _, rfl, hlookup, by cases known <;> rfl⟩, by rw [hcompiled], ?_⟩
      rintro rfl
      cases hpresent
    | stopped htree hfirst _ =>
      rw [htree] at hdecoded
      obtain ⟨-, _, ⟨⟩, hfound⟩ := hdecoded
      rw [hfound.unique hdecodes] at hfirst
      obtain ⟨node, hmem, hnode⟩ := FirstFault.exists_iff.mp ⟨_, _, hfirst⟩
      exact absurd (hvisited node hmem) hnode
    | tooDeep hdeep _ _ => exact absurd hdeep hshallow

/-! ### Answers -/

/-- The payload of a body can be written. -/
theorem Exchange.writable_of_payload? {depth : Nat} {body : Option String} {payload : Value}
    (h : payload? depth body = some payload) : payload.Writable := by
  unfold payload? at h
  split at h
  · cases h
    exact Value.writable_null
  · split at h
    · cases h
      exact Value.writable_null
    · obtain ⟨text, -, hread⟩ := Option.bind_eq_some_iff.mp h
      exact Json.writable_of_readWithin hread

/-- The action of a payload that was read runs to its end. -/
theorem Value.Admits.completes {depth : Nat} {payload : Value} {a : Action}
    (h : payload.Admits depth a) (hwritable : payload.Writable) (vars : Variables) :
    (a.execute depth .plain vars).failure = none ∧ (a.execute depth .plain vars).vars = vars := by
  obtain ⟨⟨fields, v, rfl, -, -⟩, hresult, hpresent⟩ := h
  obtain ⟨tree, htree, hcompiled⟩ := compileValue_eq_ok hresult
  have hdecoded := Tree.ofValue_decoded depth (.object fields)
  rw [htree] at hdecoded
  obtain ⟨-, _, ⟨⟩, hdecodes⟩ := hdecoded
  have hcompiles := compiles_of_ok hcompiled
  have htree := hdecodes.writable (by rintro _ ⟨⟩; exact hwritable)
  refine hcompiles.completes (hcompiles.countsWritable htree) ?_ vars
  cases habsent : a.isPresent with
  | true => rfl
  | false => exact absurd (Action.eq_absent_of_isPresent habsent) hpresent

/-- How the request of a payload that was read ends: with a completed run that leaves no variables, or
before there is anything to run. -/
inductive Answered (depth : Nat) (payload : Value) (exchange : Exchange) : Prop where
  | completed {a : Action} :
      payload.Admits depth a →
      exchange.response = ⟨200, .json (.object [
        ("success", .boolean true),
        ("message", .string "Decision tree executed successfully"),
        ("variables", .object [])])⟩ → Answered depth payload exchange
  | refused {status : Nat} {detail : String} :
      (∀ a, ¬payload.Admits depth a) → status = 400 ∨ status = 422 →
      exchange.response = .withDetail status detail → exchange.trail = #[] →
      Answered depth payload exchange

theorem answered {depth : Nat} {payload : Value} (hwritable : payload.Writable)
    (logRequests : Bool) :
    Answered depth payload
      (.ofExecution (.ofPayload depth logRequests (Action.execute depth .plain) payload)) := by
  have hcompletes (a : Action) (h : payload.Admits depth a) := h.completes hwritable ∅
  have hvars (a : Action) (h : payload.Admits depth a)
      (_ : (a.execute depth .plain ∅).failure = none) :
      (Value.object (a.execute depth .plain ∅).vars.toList).Representable := by
    rw [(hcompletes a h).2]
    exact ⟨Value.writable_object nofun, by rintro x (_ | _ | ⟨⟨⟩, _⟩), by rintro (_ | _ | ⟨⟨⟩, _⟩)⟩
  obtain ⟨phase, hphase⟩ := Phase.Reached.total depth (Action.execute depth .plain) payload
  obtain ⟨hresponse, htrail, -⟩ := hphase.leaves hvars logRequests
  cases hphase with
  | completed hadmits hdone =>
    refine .completed hadmits ?_
    rw [hresponse, Phase.response, (hcompletes _ hadmits).2]
    rfl
  | runTooDeep hadmits hfailure | runFailed hadmits hfailure _ =>
    rw [(hcompletes _ hadmits).1] at hfailure
    cases hfailure
  | invalidBody htype =>
    exact .refused (fun _ h => htype h.1) (.inl rfl) hresponse htrail
  | invalidTree htype hresult =>
    refine .refused (fun a h => ?_) (.inr rfl) hresponse htrail
    cases hresult.symm.trans h.2.1
  | treeTooDeep htype hresult =>
    refine .refused (fun a h => ?_) (.inr rfl) hresponse htrail
    cases hresult.symm.trans h.2.1
  | noAction htype hresult =>
    refine .refused (fun a h => ?_) (.inl rfl) hresponse htrail
    cases hresult.symm.trans h.2.1
    exact h.2.2 rfl

/-- **Every request to execute a tree is answered with success or refused**, and never fails on the way.
A success reports no variables, and a refusal comes before the first event.  Of the payloads that are
read, just the valid ones succeed; only a deep one may be too deep. -/
theorem execute_answers (framework : Framework) (depth : Nat) (logRequests : Bool)
    (body : Option String) :
    let exchange := Exchange.ofRequest framework depth logRequests (Action.execute depth .plain)
      ⟨"POST", "/execute", body⟩
    (exchange.response.status = 200 ∨ exchange.response.status = 400 ∨
      exchange.response.status = 422) ∧
    (exchange.response.status = 200 → exchange.response = ⟨200, .json (.object [
      ("success", .boolean true),
      ("message", .string "Decision tree executed successfully"),
      ("variables", .object [])])⟩) ∧
    (exchange.response.status ≠ 200 → exchange.trail = #[]) ∧
    ∀ payload, Exchange.payload? depth body = some payload →
      ((compileValue depth payload).result = .error .tooDeep →
        ∃ links, payload.Nests links ∧ depth < Depth.compiledLink * (links + 1)) ∧
      ((compileValue depth payload).result ≠ .error .tooDeep →
        (exchange.response.status = 200 ↔ payload.IsValid)) := by
  intro exchange
  cases hbody : Exchange.payload? depth body with
  | none =>
    have hexchange : exchange = .ofResponse (framework.unreadableBody body) :=
      Exchange.ofRequest_of_unreadable framework hbody
    have hstatus := framework.status_unreadableBody body
    rw [hexchange]
    refine ⟨.inr hstatus, fun h => ?_, fun _ => rfl, nofun⟩
    rcases hstatus with hstatus | hstatus <;> cases hstatus.symm.trans h
  | some payload =>
    have hanswered : Answered depth payload exchange := by
      show Answered depth payload (Exchange.ofRequest ..)
      rw [Exchange.ofRequest_of_payload? framework hbody]
      exact answered (Exchange.writable_of_payload? hbody) logRequests
    clear_value exchange
    have hdeep (hresult : (compileValue depth payload).result = .error .tooDeep) :
        ∃ links, payload.Nests links ∧ depth < Depth.compiledLink * (links + 1) := by
      have hvalue : payload ≠ .null := by
        rintro rfl
        cases hresult
      exact (compileValue_from depth hvalue).nests_of_tooDeep hresult
    cases hanswered with
    | @completed a hadmits hresponse =>
      rw [hresponse]
      refine ⟨.inl rfl, fun _ => rfl, fun h => absurd rfl h, ?_⟩
      rintro _ ⟨⟩
      refine ⟨hdeep, fun hshallow => ⟨fun _ => ?_, fun _ => rfl⟩⟩
      exact (exists_admits_iff hshallow).mp ⟨a, hadmits⟩
    | refused hnone hstatus hresponse htrail =>
      have hne : exchange.response.status ≠ 200 := by
        rw [hresponse]
        rcases hstatus with rfl | rfl <;> exact nofun
      refine ⟨.inr ?_, fun h => absurd h hne, fun _ => htrail, ?_⟩
      · rw [hresponse]
        exact hstatus
      · rintro _ ⟨⟩
        refine ⟨hdeep, fun hshallow => ⟨fun h => absurd h hne, fun hvalid => ?_⟩⟩
        obtain ⟨a, hadmits⟩ := (exists_admits_iff hshallow).mpr hvalid
        exact absurd hadmits (hnone a)

/-- A loop whose body is a text message, and the same with a bad node at the end of the chain. -/
theorem execute_answers_loop :
    let message : String := "\x7b\"type\":\"sms\",\"params\":\x7b\"phoneNumber\":\"1\"\x7d\x7d"
    let loop (next : String) : Option String := some ("\x7b\"type\":\"loop\",\"params\":" ++
      "\x7b\"count\":2.0\x7d,\"subtree\":" ++ message ++ ",\"next\":" ++ next ++ "\x7d")
    let valid := loop "null"
    let faulty := loop "\x7b\"type\":\"email\"\x7d"
    let exchange (body : Option String) : Exchange :=
      Exchange.ofRequest .standard Depth.standard false (Action.execute Depth.standard .plain)
        ⟨"POST", "/execute", body⟩
    (∃ payload, Exchange.payload? Depth.standard valid = some payload ∧
      (compileValue Depth.standard payload).result ≠ .error .tooDeep ∧ payload.IsValid) ∧
    (exchange valid).response.status = 200 ∧
    (exchange valid).trail =
      #[.loopStarted 2, .iteration 1 2, .smsSent "1", .iteration 2 2, .smsSent "1",
        .loopCompleted 2] ∧
    (∃ payload, Exchange.payload? Depth.standard faulty = some payload ∧
      (compileValue Depth.standard payload).result ≠ .error .tooDeep ∧ ¬payload.IsValid) ∧
    (exchange faulty).response.status = 422 ∧ (exchange faulty).trail = #[] := by
  intro message loop valid faulty exchange
  let payload (next : Value) : Value := .object [("type", .string "loop"),
    ("params", .object [("count", .double (.ofInt 2))]),
    ("subtree", .object [("type", .string "sms"),
      ("params", .object [("phoneNumber", .string "1")])]), ("next", next)]
  let email : Value := .object [("type", .string "email")]
  have hvalid : Exchange.payload? Depth.standard valid = some (payload .null) := by decide +kernel
  have hfaulty : Exchange.payload? Depth.standard faulty = some (payload email) := by decide +kernel
  have hcompiles : (compileValue Depth.standard (payload .null)).result = .ok (.loop 2 (.sms "1")) :=
    eq_ok_of_toOption (by decide +kernel)
  have hfails : (compileValue Depth.standard (payload email)).result =
      .error (.because (.invalid (.address .both))) := eq_error_of_swap (by decide +kernel)
  have hshallow : (compileValue Depth.standard (payload .null)).result ≠ .error .tooDeep := by
    rw [hcompiles]
    exact nofun
  have hshallow' : (compileValue Depth.standard (payload email)).result ≠ .error .tooDeep := by
    rw [hfails]
    exact nofun
  have htype (next : Value) : (payload next).HasType := ⟨_, _, rfl, rfl, rfl⟩
  have hrun : exchange valid = .ofExecution (.ofRun
      (Action.execute Depth.standard .plain (.loop 2 (.sms "1")) ∅)
      (Execution.compiledLog Depth.standard false (payload .null))) := by
    rw [← Execution.ofPayload_of_admits ⟨htype .null, hcompiles, nofun⟩]
    exact Exchange.ofRequest_of_payload? .standard hvalid
  have hrefusal : exchange faulty = .ofExecution ⟨.invalidTree (.invalid (.address .both)), #[],
      Execution.compiledLog Depth.standard false (payload email)⟩ := by
    rw [← Verdict.ofTreeError, ← Execution.ofPayload_of_error (htype email) hfails]
    exact Exchange.ofRequest_of_payload? .standard hfaulty
  have hsucceeds : (exchange valid).response.status = 200 := by
    rw [hrun]
    decide +kernel
  have htrail : (exchange valid).trail = #[.loopStarted 2, .iteration 1 2, .smsSent "1",
      .iteration 2 2, .smsSent "1", .loopCompleted 2] := by
    rw [hrun]
    decide +kernel
  have hrefused : (exchange faulty).response.status = 422 := by
    rw [hrefusal]
    rfl
  have hne : (exchange faulty).response.status ≠ 200 := by
    rw [hrefused]
    exact nofun
  obtain ⟨-, -, -, hvalidity⟩ := execute_answers .standard Depth.standard false valid
  obtain ⟨-, -, hnothing, hvalidity'⟩ := execute_answers .standard Depth.standard false faulty
  refine ⟨⟨_, hvalid, hshallow, ?_⟩, hsucceeds, htrail, ⟨_, hfaulty, hshallow', ?_⟩, hrefused,
    hnothing hne⟩
  · exact ((hvalidity _ hvalid).2 hshallow).mp hsucceeds
  · exact fun h => hne (((hvalidity' _ hfaulty).2 hshallow').mpr h)

end DecisionFlow
