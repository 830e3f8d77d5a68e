import DecisionFlow.Proofs.Compilation
import DecisionFlow.Proofs.Numbers
import DecisionFlow.Service.Basic
import Mathlib.Logic.ExistsUnique

/-!
# The phases of a request

A request to execute a tree ends in one of seven phases: before, while and after its payload compiles,
and in the run, which another party performs.  What a failure means depends on the phase: an error of
the tree is the client's, any error of the run the server's, and too deep a nesting always the client's.

* `Phase` — how a request can end, with the run if there was one;
* `Phase.Reached` — what leads to a phase: `Reached.exists` and `Reached.unique` say that every payload
  reaches exactly one, whatever the performer does;
* `Phase.response`, `Phase.trail`, `Phase.diagnostics`, `Phase.progress` — what a phase leaves;
* `execute_phases` — the table of the phases.
-/

namespace DecisionFlow

/-- How a request to execute a tree ends. -/
inductive Phase where
  /-- The body is no object with a type. -/
  | invalidBody
  /-- There is an error in the tree. -/
  | invalidTree (e : TreeError)
  /-- The tree is nested too deeply to be compiled. -/
  | treeTooDeep
  /-- The tree has no action. -/
  | noAction
  /-- The run completed. -/
  | completed (r : Run)
  /-- The run went too deep. -/
  | runTooDeep (r : Run)
  /-- The run failed in any other way. -/
  | runFailed (r : Run) (cause : RunFailure)

namespace Value

/-- A value is an object with a type that counts as given. -/
def HasType (payload : Value) : Prop :=
  ∃ fields v, payload = .object fields ∧ fields.lookup "type" = some v ∧ v.isTruthy = true

/-- `payload.Admits depth a`: the payload has a type and compiles to an action, which is then run. -/
def Admits (payload : Value) (depth : Nat) (a : Action) : Prop :=
  payload.HasType ∧ (compileValue depth payload).result = .ok a ∧ a ≠ .absent

end Value

namespace Phase

/-- `Reached depth perform payload phase`: a request with this payload ends in the phase, if compiled
within the given depth and performed by the given performer. -/
inductive Reached (depth : Nat) (perform : Action → Variables → Run) (payload : Value) :
    Phase → Prop where
  | invalidBody : ¬payload.HasType → Reached depth perform payload .invalidBody
  | invalidTree {e : TreeError} :
      payload.HasType → (compileValue depth payload).result = .error (.because e) →
      Reached depth perform payload (.invalidTree e)
  | treeTooDeep :
      payload.HasType → (compileValue depth payload).result = .error .tooDeep →
      Reached depth perform payload .treeTooDeep
  | noAction :
      payload.HasType → (compileValue depth payload).result = .ok .absent →
      Reached depth perform payload .noAction
  | completed {a : Action} :
      payload.Admits depth a → (perform a ∅).failure = none →
      Reached depth perform payload (.completed (perform a ∅))
  | runTooDeep {a : Action} :
      payload.Admits depth a → (perform a ∅).failure = some .tooDeep →
      Reached depth perform payload (.runTooDeep (perform a ∅))
  | runFailed {a : Action} {cause : RunFailure} :
      payload.Admits depth a → (perform a ∅).failure = some cause → cause ≠ .tooDeep →
      Reached depth perform payload (.runFailed (perform a ∅) cause)

/-- The response that ends a phase. -/
def response : Phase → Response
  | invalidBody =>
    .withDetail 400 "Invalid request body. Expected an ActionNode with a 'type' property."
  | invalidTree e => .withDetail 422 e.message
  | treeTooDeep | runTooDeep _ => .withDetail 422 "Decision tree is nested too deeply."
  | noAction => .withDetail 400 "Failed to create action from the provided decision tree."
  | runFailed _ cause =>
    .withDetail 500 ("An error occurred while executing the decision tree: " ++ cause.message)
  | completed r =>
    ⟨200, .json (.object [
      ("success", .boolean true),
      ("message", .string "Decision tree executed successfully"),
      ("variables", .object r.vars.toList)])⟩

/-- The events that a phase leaves. -/
def trail : Phase → Array Event
  | completed r | runTooDeep r | runFailed r _ => r.trail
  | invalidBody | invalidTree _ | treeTooDeep | noAction => #[]

/-- What the compiler logs before a phase, given its notices. -/
def diagnostics (notices : List UnknownType) : Phase → List String
  | invalidBody => []
  | _ => notices.map UnknownType.message

/-- What is logged of a run. -/
def progress : Phase → List String
  | completed _ => ["Executing decision tree...", "=== EXECUTION COMPLETE ==="]
  | runTooDeep _ =>
    ["Executing decision tree...", "Error executing decision tree: nesting too deep"]
  | runFailed _ cause =>
    ["Executing decision tree...", "Error executing decision tree: " ++ cause.message]
  | invalidBody | invalidTree _ | treeTooDeep | noAction => []

end Phase

/-- What is logged of a payload, if payloads are logged. -/
def requestLog (logRequests : Bool) (payload : Value) : List String :=
  if logRequests then
    ["\n=== NEW REQUEST RECEIVED ===\nRequest body: " ++ Json.render payload]
  else []

/-! ### Every payload reaches one phase -/

theorem Execution.hasType_iff {payload : Value} : hasType payload = true ↔ payload.HasType := by
  constructor
  · intro h
    cases payload with
    | object fields =>
      simp only [hasType] at h
      cases hlookup : fields.lookup "type" with
      | none =>
        rw [hlookup] at h
        cases h
      | some v =>
        rw [hlookup] at h
        exact ⟨fields, v, rfl, hlookup, h⟩
    | _ => cases h
  · rintro ⟨fields, v, rfl, hlookup, htruthy⟩
    simp only [hasType, hlookup]
    exact htruthy

namespace Phase.Reached

variable {depth : Nat} {perform : Action → Variables → Run} {payload : Value}

/-- Every payload reaches a phase. -/
theorem total (depth : Nat) (perform : Action → Variables → Run) (payload : Value) :
    ∃ phase, Reached depth perform payload phase := by
  by_cases htype : payload.HasType
  · cases hresult : (compileValue depth payload).result with
    | error stop =>
      cases stop with
      | because e => exact ⟨_, .invalidTree htype hresult⟩
      | tooDeep => exact ⟨_, .treeTooDeep htype hresult⟩
    | ok a =>
      by_cases habsent : a = .absent
      · subst habsent
        exact ⟨_, .noAction htype hresult⟩
      · have hadmits : payload.Admits depth a := ⟨htype, hresult, habsent⟩
        cases hfailure : (perform a ∅).failure with
        | none => exact ⟨_, .completed hadmits hfailure⟩
        | some cause =>
          by_cases hdeep : cause = .tooDeep
          · subst hdeep
            exact ⟨_, .runTooDeep hadmits hfailure⟩
          · exact ⟨_, .runFailed hadmits hfailure hdeep⟩
  · exact ⟨_, .invalidBody htype⟩

/-- No payload reaches two phases: the gates exclude one another, and so do the outcomes of a run. -/
theorem unique {phase phase' : Phase} (h : Reached depth perform payload phase)
    (h' : Reached depth perform payload phase') : phase = phase' := by
  cases h <;> cases h' <;> grind [Value.Admits]

end Phase.Reached

/-! ### What a phase leaves -/

namespace Execution

variable {depth : Nat} {logRequests : Bool} {perform : Action → Variables → Run} {payload : Value}

/-- The log of a payload before anything runs, if it has a type. -/
def compiledLog (depth : Nat) (logRequests : Bool) (payload : Value) : List LogEntry :=
  (if logRequests then [.received payload] else []) ++
    (compileValue depth payload).notices.map .unknownType

theorem ofPayload_of_not_hasType (h : ¬payload.HasType) :
    ofPayload depth logRequests perform payload =
      ⟨.invalidBody, #[], if logRequests then [.received payload] else []⟩ := by
  rw [← hasType_iff] at h
  simp only [ofPayload, h]
  rfl

theorem ofPayload_of_error {stop : Bounded TreeError} (htype : payload.HasType)
    (h : (compileValue depth payload).result = .error stop) :
    ofPayload depth logRequests perform payload =
      ⟨.ofTreeError stop, #[], compiledLog depth logRequests payload⟩ := by
  simp only [ofPayload, hasType_iff.mpr htype, if_true, h]
  rfl

theorem ofPayload_of_absent (htype : payload.HasType)
    (h : (compileValue depth payload).result = .ok .absent) :
    ofPayload depth logRequests perform payload =
      ⟨.noAction, #[], compiledLog depth logRequests payload⟩ := by
  simp only [ofPayload, hasType_iff.mpr htype, if_true, h]
  rfl

theorem ofPayload_of_admits {a : Action} (h : payload.Admits depth a) :
    ofPayload depth logRequests perform payload =
      ofRun (perform a ∅) (compiledLog depth logRequests payload) := by
  obtain ⟨htype, hresult, hpresent⟩ := h
  simp only [ofPayload, hasType_iff.mpr htype, if_true, hresult]
  cases a with
  | absent => exact absurd rfl hpresent
  | _ => rfl

end Execution

theorem LogEntry.text_received (logRequests : Bool) (payload : Value) :
    (if logRequests then [received payload] else []).map text = requestLog logRequests payload := by
  cases logRequests <;> rfl

theorem Execution.text_compiledLog (depth : Nat) (logRequests : Bool) (payload : Value) :
    (compiledLog depth logRequests payload).map LogEntry.text =
      requestLog logRequests payload ++
        ((compileValue depth payload).notices.map UnknownType.message ++ []) := by
  rw [compiledLog, List.map_append, LogEntry.text_received, List.map_map, List.append_nil]
  rfl

/-- The log of a run: what was logged before it, its beginning and its end. -/
theorem Execution.text_ofRun (r : Run) (depth : Nat) (logRequests : Bool) (payload : Value) :
    (ofRun r (compiledLog depth logRequests payload)).log.map LogEntry.text =
      requestLog logRequests payload ++
        ((compileValue depth payload).notices.map UnknownType.message ++
          ["Executing decision tree...",
            LogEntry.text (match r.failure with | none => .completed | some cause => .runFailed cause)]) := by
  rw [ofRun, List.map_append, text_compiledLog, List.append_nil, List.append_assoc]
  rfl

namespace Phase.Reached

variable {depth : Nat} {perform : Action → Variables → Run} {payload : Value} {phase : Phase}

/-- **The response, the events and the log** are those of the phase that is reached. -/
theorem leaves (h : Reached depth perform payload phase)
    (hvars : ∀ a, payload.Admits depth a → (perform a ∅).failure = none →
      (Value.object (perform a ∅).vars.toList).Representable) (logRequests : Bool) :
    let exchange := Exchange.ofExecution (.ofPayload depth logRequests perform payload)
    exchange.response = phase.response ∧ exchange.trail = phase.trail ∧
      exchange.log.map LogEntry.text = requestLog logRequests payload ++
        (phase.diagnostics (compileValue depth payload).notices ++ phase.progress) := by
  have htext := Execution.text_compiledLog depth logRequests payload
  have hrun (r : Run) := Execution.text_ofRun r depth logRequests payload
  cases h with
  | invalidBody htype =>
    rw [Execution.ofPayload_of_not_hasType htype]
    refine ⟨rfl, rfl, ?_⟩
    show List.map _ _ = requestLog logRequests payload ++ []
    rw [List.append_nil]
    exact LogEntry.text_received logRequests payload
  | invalidTree htype hresult =>
    rw [Execution.ofPayload_of_error htype hresult]
    exact ⟨rfl, rfl, htext⟩
  | treeTooDeep htype hresult =>
    rw [Execution.ofPayload_of_error htype hresult]
    exact ⟨rfl, rfl, htext⟩
  | noAction htype hresult =>
    rw [Execution.ofPayload_of_absent htype hresult]
    exact ⟨rfl, rfl, htext⟩
  | @completed a hadmits hfailure =>
    have hstandard := Json.standard_eq_of_isFinite (hvars a hadmits hfailure).finite
    have hlog := hrun (perform a ∅)
    rw [hfailure] at hlog
    rw [Execution.ofPayload_of_admits hadmits]
    refine ⟨?_, rfl, hlog⟩
    simp only [Exchange.ofExecution, Execution.ofRun, Verdict.ofRun, hfailure, Response.ofVerdict,
      Response.success, hstandard, response]
  | @runTooDeep a hadmits hfailure =>
    have hlog := hrun (perform a ∅)
    rw [hfailure] at hlog
    rw [Execution.ofPayload_of_admits hadmits]
    refine ⟨?_, rfl, hlog⟩
    simp only [Exchange.ofExecution, Execution.ofRun, Verdict.ofRun, hfailure]
    rfl
  | @runFailed a cause hadmits hfailure hdeep =>
    have hlog := hrun (perform a ∅)
    rw [hfailure] at hlog
    rw [Execution.ofPayload_of_admits hadmits]
    simp only [Exchange.ofExecution, Execution.ofRun, Verdict.ofRun, hfailure] at hlog ⊢
    -- only what goes too deep is told in words of its own
    cases cause with
    | tooDeep => exact absurd rfl hdeep
    | _ => exact ⟨rfl, rfl, hlog⟩

end Phase.Reached

/-! ### The table -/

namespace Exchange

variable {depth : Nat} {logRequests : Bool} {perform : Action → Variables → Run} {body : Option String}

theorem ofRequest_execute (framework : Framework) :
    ofRequest framework depth logRequests perform ⟨"POST", "/execute", body⟩ =
      ofBody framework depth logRequests perform body := by
  have hroute : framework.route? "/execute" = some .execute := framework.route?_path .execute
  simp only [ofRequest, hroute]
  rfl

/-- The exchange of a body that is read as a payload is the one of the execution of that payload. -/
theorem ofRequest_of_payload? (framework : Framework) {payload : Value}
    (hbody : payload? depth body = some payload) :
    ofRequest framework depth logRequests perform ⟨"POST", "/execute", body⟩ =
      .ofExecution (.ofPayload depth logRequests perform payload) := by
  rw [ofRequest_execute, ofBody, hbody]

theorem ofRequest_of_unreadable (framework : Framework) (hbody : payload? depth body = none) :
    ofRequest framework depth logRequests perform ⟨"POST", "/execute", body⟩ =
      .ofResponse (framework.unreadableBody body) := by
  rw [ofRequest_execute, ofBody, hbody]

end Exchange

/-- A performer matters only in what it does with the action that a payload admits. -/
theorem Execution.ofPayload_congr {depth : Nat} {payload : Value}
    {perform perform' : Action → Variables → Run}
    (h : ∀ a, payload.Admits depth a → perform' a ∅ = perform a ∅) (logRequests : Bool) :
    ofPayload depth logRequests perform' payload = ofPayload depth logRequests perform payload := by
  by_cases hadmits : ∃ a, payload.Admits depth a
  · obtain ⟨a, ha⟩ := hadmits
    rw [ofPayload_of_admits ha, ofPayload_of_admits ha, h a ha]
  · obtain ⟨phase, hphase⟩ := Phase.Reached.total depth perform payload
    cases hphase with
    | invalidBody htype => rw [ofPayload_of_not_hasType htype, ofPayload_of_not_hasType htype]
    | invalidTree htype hresult | treeTooDeep htype hresult =>
      rw [ofPayload_of_error htype hresult, ofPayload_of_error htype hresult]
    | noAction htype hresult =>
      rw [ofPayload_of_absent htype hresult, ofPayload_of_absent htype hresult]
    | completed ha _ | runTooDeep ha _ | runFailed ha _ _ => exact absurd ⟨_, ha⟩ hadmits

/-- **The table of the phases.**  A request whose body is read as a payload reaches exactly one phase,
whatever the framework is and the performer does, and the phase gives the response, the events and the log: what is logged
of the payload, then the notices of the compiler, then the progress of the run.  The performer is asked
for nothing but the action that the payload admits, from no variables.  The variables that a completed
run leaves have to be such that JSON can write them. -/
theorem execute_phases (framework : Framework) (depth : Nat) (logRequests : Bool)
    {perform : Action → Variables → Run} {body : Option String} {payload : Value}
    (hbody : Exchange.payload? depth body = some payload)
    (hvars : ∀ a, payload.Admits depth a → (perform a ∅).failure = none →
      (Value.object (perform a ∅).vars.toList).Representable) :
    let exchange := Exchange.ofRequest framework depth logRequests perform ⟨"POST", "/execute", body⟩
    (∃! phase, Phase.Reached depth perform payload phase) ∧
    (∀ phase, Phase.Reached depth perform payload phase →
      exchange.response = phase.response ∧
      exchange.trail = phase.trail ∧
      exchange.log.map LogEntry.text = requestLog logRequests payload ++
        (phase.diagnostics (compileValue depth payload).notices ++ phase.progress)) ∧
    (∀ perform', (∀ a, payload.Admits depth a → perform' a ∅ = perform a ∅) →
      Exchange.ofRequest framework depth logRequests perform' ⟨"POST", "/execute", body⟩ = exchange) := by
  intro exchange
  have hexchange : exchange = .ofExecution (.ofPayload depth logRequests perform payload) :=
    Exchange.ofRequest_of_payload? framework hbody
  obtain ⟨phase, hphase⟩ := Phase.Reached.total depth perform payload
  refine ⟨⟨phase, hphase, fun other hother => hother.unique hphase⟩, fun other hother => ?_,
    fun perform' hsame => ?_⟩
  · rw [hexchange]
    exact hother.leaves hvars logRequests
  · rw [Exchange.ofRequest_of_payload? framework hbody, hexchange, Execution.ofPayload_congr hsame]

/-- A performer that assigns a variable for a text message and fails for anything else, on a text
message in front of a node of unknown type, and on a loop. -/
theorem execute_phases_outcomes :
    let perform : Action → Variables → Run := fun a vars =>
      match a with
      | .sms _ => (Run.start vars).assign "n" (.integer 5)
      | _ => (Run.start vars).fail (.raised "Malformed")
    let message : Option String := some
      ("\x7b\"type\": \"sms\", \"params\": \x7b\"phoneNumber\": \"1\"\x7d, " ++
        "\"next\": \x7b\"type\": \"fax\"\x7d\x7d")
    let loop : Option String := some
      "\x7b\"type\": \"loop\", \"params\": \x7b\"count\": 2\x7d\x7d"
    let exchange (body : Option String) : Exchange :=
      Exchange.ofRequest .standard Depth.standard false perform ⟨"POST", "/execute", body⟩
    (∀ a, (perform a ∅).failure = none → (Value.object (perform a ∅).vars.toList).Representable) ∧
    (Exchange.payload? Depth.standard message).isSome = true ∧
    (exchange message).response.status = 200 ∧
    (exchange message).log.map LogEntry.text =
      ["Unknown action type: 'fax'", "Executing decision tree...", "=== EXECUTION COMPLETE ==="] ∧
    (Exchange.payload? Depth.standard loop).isSome = true ∧
    (exchange loop).response =
      .withDetail 500 "An error occurred while executing the decision tree: Malformed" := by
  intro perform message loop exchange
  have hvars (a : Action) (hcompletes : (perform a ∅).failure = none) :
      (Value.object (perform a ∅).vars.toList).Representable := by
    cases a with
    | sms _ =>
      refine ⟨?_, ?_, ?_⟩
      · rintro n (_ | _ | ⟨hmem, hn⟩)
        cases List.mem_singleton.mp hmem
        cases hn
        decide +kernel
      · rintro x (_ | _ | ⟨hmem, hx⟩)
        cases List.mem_singleton.mp hmem
        cases hx
      · rintro (_ | _ | ⟨hmem, hforeign⟩)
        cases List.mem_singleton.mp hmem
        cases hforeign
    | _ => cases hcompletes
  let messagePayload : Value := .object [("type", .string "sms"),
    ("params", .object [("phoneNumber", .string "1")]), ("next", .object [("type", .string "fax")])]
  let loopPayload : Value := .object [("type", .string "loop"), ("params", .object [("count", .integer 2)])]
  have hmessage : Exchange.payload? Depth.standard message = some messagePayload := by decide +kernel
  have hloop : Exchange.payload? Depth.standard loop = some loopPayload := by decide +kernel
  have hsends : messagePayload.Admits Depth.standard (.sms "1") :=
    ⟨⟨_, _, rfl, rfl, rfl⟩, eq_ok_of_toOption (by decide +kernel), nofun⟩
  have hrepeats : loopPayload.Admits Depth.standard (.loop 2 .absent) :=
    ⟨⟨_, _, rfl, rfl, rfl⟩, eq_ok_of_toOption (by decide +kernel), nofun⟩
  obtain ⟨-, hsent, -⟩ := execute_phases .standard Depth.standard false hmessage fun a _ => hvars a
  obtain ⟨hresponse, -, hlog⟩ := hsent _ (.completed hsends rfl)
  obtain ⟨-, hrepeated, -⟩ := execute_phases .standard Depth.standard false hloop fun a _ => hvars a
  obtain ⟨hfailure, -, -⟩ := hrepeated _ (.runFailed hrepeats rfl nofun)
  refine ⟨hvars, by rw [hmessage]; rfl, by rw [hresponse]; rfl, ?_, by rw [hloop]; rfl, hfailure⟩
  rw [hlog]
  decide +kernel

end DecisionFlow
