import Mathlib.Logic.ExistsUnique
import DecisionFlow.Evaluation
import DecisionFlow.Proofs.Compilation
import DecisionFlow.Proofs.Language
import DecisionFlow.Proofs.Meaning
import DecisionFlow.Proofs.Rejection

/-!
# Evaluation and meaning

What a text means in the language of conditions, at any depth: the truth value of its expression, or the
error for which it has none.  Evaluation agrees with it wherever no string escapes a line feed, up to a
limit on depth.  It fails only if what went wrong cannot be reported.

* `Expresses`, `Means` — the expression of a text, and its outcome under variables;
* `existsUnique_means` — every text has just one meaning;
* `EscapesLineFeed`, `means_iff_truth` — the texts that the tokenizer does not know, and the others;
* `Condition.evaluate_cases` — what may come of evaluating a text;
* `evaluate_agrees_with_meaning` — evaluation and meaning;
* `not_evaluate_escaped_line_feed` — a condition that is true in the language and does not hold.
-/

namespace DecisionFlow

/-! ### What a text means -/

/-- A text of the language expresses an expression. -/
def Expresses (text : String) (e : Expr) : Prop :=
  ∃ tokens, Lexes 0 text.toList tokens none ∧ Derives .disjunction tokens e

/-- `Means text vars outcome`: the truth value of a text under the variables, or why it has none. -/
inductive Means (text : String) (vars : Variables) : Except ConditionError Bool → Prop where
  | unreadable {tokens : List Token} {e : UnexpectedCharacter} :
      Lexes 0 text.toList tokens (some e) →
      Means text vars (.error (.malformed (.unexpectedCharacter e)))
  | rejected {tokens : List Token} {e : SyntaxError} :
      Lexes 0 text.toList tokens none → Rejects tokens e → Means text vars (.error (.malformed e))
  | expressed {e : Expr} {outcome : Except EvalError Scalar} {truth : Except EvalError Bool} :
      Expresses text e → Yields vars e outcome → AsBoolean .condition outcome truth →
      Means text vars (truth.mapError .valueless)

/-- The truth value of tokens, and of the character at which they stop. -/
def truthOfTokens (vars : Variables) (tokens : List Token) :
    Option UnexpectedCharacter → Except ConditionError Bool
  | some e => .error (.malformed (.unexpectedCharacter e))
  | none =>
    ((Expr.ofTokens tokens).mapError .malformed).bind fun e =>
      ((e.value vars).bind (Scalar.boolean? .condition)).mapError .valueless

variable {text : String} {vars : Variables} {outcome : Except ConditionError Bool} {tokens : List Token}
  {stop : Option UnexpectedCharacter}

/-- A text means the truth value of its tokens. -/
theorem means_iff (hlexes : Lexes 0 text.toList tokens stop) :
    Means text vars outcome ↔ truthOfTokens vars tokens stop = outcome := by
  constructor
  · intro h
    cases h with
    | unreadable h =>
      obtain ⟨rfl, rfl⟩ := h.unique hlexes
      rfl
    | rejected h hrejects =>
      obtain ⟨rfl, rfl⟩ := h.unique hlexes
      rw [truthOfTokens, hrejects.ofTokens_eq]
      rfl
    | expressed h hyields htruth =>
      obtain ⟨others, h, hderives⟩ := h
      obtain ⟨rfl, rfl⟩ := h.unique hlexes
      rw [truthOfTokens, ofTokens_eq_ok_iff.mpr hderives, ← asBoolean_iff.mp htruth, ← hyields.value_eq]
      rfl
  · rintro rfl
    cases stop with
    | some e => exact .unreadable hlexes
    | none =>
      rw [truthOfTokens]
      cases hparsed : Expr.ofTokens tokens with
      | error e => exact .rejected hlexes (ofTokens_eq_error_iff.mp hparsed)
      | ok e =>
        exact .expressed ⟨tokens, hlexes, ofTokens_eq_ok_iff.mp hparsed⟩ (yields_value vars e)
          (asBoolean_iff.mpr rfl)

/-- **Every text has just one meaning.** -/
theorem existsUnique_means (text : String) (vars : Variables) : ∃! outcome, Means text vars outcome := by
  obtain ⟨tokens, stop, hlexes⟩ := exists_lexes 0 text.toList
  exact ⟨_, (means_iff hlexes).mpr rfl, fun outcome h => ((means_iff hlexes).mp h).symm⟩

/-- What means a truth value expresses an expression that yields it. -/
theorem Means.expresses {b : Bool} (h : Means text vars (.ok b)) :
    ∃ e, Expresses text e ∧ Yields vars e (.ok (.boolean b)) := by
  generalize houtcome : (.ok b : Except ConditionError Bool) = outcome at h
  cases h with
  | unreadable _ => cases houtcome
  | rejected _ _ => cases houtcome
  | @expressed e outcome truth hexpresses hyields htruth =>
    cases htruth with
    | boolean b' =>
      cases houtcome
      exact ⟨e, hexpresses, hyields⟩
    | other _ => cases houtcome
    | failed _ => cases houtcome

/-! ### The program and the language -/

/-- A string of the text escapes a line feed. -/
def EscapesLineFeed (text : String) : Prop :=
  ∃ tokens stop, Lexes 0 text.toList tokens stop ∧ ∃ t ∈ tokens, t.lexeme.EscapesLineFeed

/-- What is tokenized escapes no line feed. -/
theorem not_escapesLineFeed_of_tokenize (h : tokenize text = .ok tokens) : ¬EscapesLineFeed text := by
  rintro ⟨others, stop, hlexes, hfeeds⟩
  obtain ⟨t, -, -, quote, -, hscan⟩ := hlexes.scan_of_escapesLineFeed hfeeds
  rw [tokenize, hscan] at h
  cases h

/-- **A text that escapes no line feed** means what the unbounded evaluator makes of it. -/
theorem means_iff_truth (hfeeds : ¬EscapesLineFeed text) :
    Means text vars outcome ↔ Condition.truth text vars = outcome := by
  obtain ⟨tokens, stop, hlexes⟩ := exists_lexes 0 text.toList
  have hscan := hlexes.scan_eq fun t ht hfeed => hfeeds ⟨tokens, stop, hlexes, t, ht, hfeed⟩
  have htruth : Condition.truth text vars = truthOfTokens vars tokens stop := by
    unfold Condition.truth Expr.parse
    rw [tokenize, hscan]
    cases stop <;> rfl
  rw [means_iff hlexes, htruth]

/-- **A text that escapes a line feed** is no condition, for the program: the quote of such a string begins no
token. -/
theorem decision_of_escapesLineFeed (hfeeds : EscapesLineFeed text) (depth : Nat) (vars : Variables) :
    ∃ tokens stop, Lexes 0 text.toList tokens stop ∧ ∃ t ∈ tokens, t.lexeme.EscapesLineFeed ∧
      ∃ quote, (quote = '"' ∨ quote = '\'') ∧ Condition.decision depth text vars =
        ⟨false, some (.because (.malformed (.unexpectedCharacter ⟨quote, t.pos⟩)))⟩ := by
  obtain ⟨tokens, stop, hlexes, hfeeds⟩ := hfeeds
  obtain ⟨t, ht, hfeed, quote, hquote, hscan⟩ := hlexes.scan_of_escapesLineFeed hfeeds
  refine ⟨tokens, stop, hlexes, t, ht, hfeed, quote, hquote, ?_⟩
  unfold Condition.decision Condition.truthWithin Expr.parseWithin
  rw [tokenize, hscan]
  rfl

namespace Condition

/-- **What may come of evaluating a text**: its decision, with what went wrong reported if something did, or
the reason why that is not reported. -/
theorem evaluate_cases (sink : Sink) (depth : Nat) (text : String) (vars : Variables) :
    let decision := decision depth text vars
    (decision.event? text = none ∧ evaluate sink depth text vars = .ok decision) ∨
    ∃ event, decision.event? text = some event ∧
      ((Depth.report ≤ depth ∧ sink event.line = none ∧ evaluate sink depth text vars = .ok decision) ∨
        (depth < Depth.report ∧ evaluate sink depth text vars = .error .tooDeep) ∨
        ∃ reason, Depth.report ≤ depth ∧ sink event.line = some reason ∧
          evaluate sink depth text vars = .error (.refused reason)) := by
  intro decision
  cases hevent : decision.event? text with
  | none => exact .inl ⟨rfl, by rw [evaluate, hevent]⟩
  | some event =>
    have hevaluate : evaluate sink depth text vars = (event.reportTo sink depth).map fun _ => decision := by
      rw [evaluate, hevent]
    refine .inr ⟨event, rfl, ?_⟩
    rw [hevaluate, Event.reportTo]
    by_cases hdepth : depth < Depth.report
    · rw [if_pos hdepth]
      exact .inr (.inl ⟨hdepth, rfl⟩)
    · have hroom := Nat.not_lt.mp hdepth
      rw [if_neg hdepth]
      cases hsink : sink event.line with
      | none => exact .inl ⟨hroom, rfl, rfl⟩
      | some reason => exact .inr (.inr ⟨reason, hroom, rfl, rfl⟩)

/-- What is returned is the decision of the text. -/
theorem eq_decision_of_evaluate {sink : Sink} {depth : Nat} {decided : Decision}
    (h : evaluate sink depth text vars = .ok decided) : decided = decision depth text vars := by
  have hcases := evaluate_cases sink depth text vars
  rw [h] at hcases
  rcases hcases with ⟨-, ⟨⟩⟩ | ⟨_, -, ⟨-, -, ⟨⟩⟩ | ⟨-, ⟨⟩⟩ | ⟨_, -, -, ⟨⟩⟩⟩ <;> rfl

/-- What fails has something to report. -/
theorem event_of_evaluate_error {sink : Sink} {depth : Nat} {e : ReportFailure}
    (h : evaluate sink depth text vars = .error e) :
    ∃ event, (decision depth text vars).event? text = some event := by
  have hcases := evaluate_cases sink depth text vars
  rw [h] at hcases
  rcases hcases with ⟨-, ⟨⟩⟩ | ⟨event, hevent, -⟩
  exact ⟨event, hevent⟩

end Condition

/-- A decision is right, up to the given depth.  If something is reported, then with the text as it is and the
message of the error that the text means, or else the text goes deeper. -/
structure Decision.Agrees (depth : Nat) (text : String) (vars : Variables) (decision : Decision) :
    Prop where
  true_of_holds : decision.holds = true → decision.event? text = none ∧
    ∃ e, Expresses text e ∧ Yields vars e (.ok (.boolean true))
  false_of_silent : decision.holds = false → decision.event? text = none →
    ∃ e, Expresses text e ∧ Yields vars e (.ok (.boolean false))
  failed_of_event : ∀ event, decision.event? text = some event → decision.holds = false ∧
    event.title = "ConditionAction: Error evaluating expression" ∧
    ∃ message,
      event.details? = some [("expression", .string text), ("error", .string message)] ∧
      ((∃ cause, Means text vars (.error cause) ∧ message = cause.message) ∨
        (depth < Condition.reach text vars ∧ message = tooDeepMessage))

/-- The decision of a text that escapes no line feed is right. -/
theorem Condition.agrees_decision (hfeeds : ¬EscapesLineFeed text) (depth : Nat) (vars : Variables) :
    (Condition.decision depth text vars).Agrees depth text vars := by
  have hcases := decision_cases depth text vars
  simp only [← means_iff_truth hfeeds] at hcases
  rcases hcases with ⟨b, hmeans, hdecision⟩ | ⟨cause, hmeans, hdecision⟩ | ⟨hreach, hdecision⟩
  · rw [hdecision]
    refine ⟨?_, ?_, nofun⟩
    · rintro rfl
      exact ⟨rfl, hmeans.expresses⟩
    · rintro rfl -
      exact hmeans.expresses
  · rw [hdecision]
    refine ⟨nofun, nofun, ?_⟩
    rintro event ⟨⟩
    exact ⟨rfl, rfl, _, rfl, .inl ⟨cause, hmeans, rfl⟩⟩
  · rw [hdecision]
    refine ⟨nofun, nofun, ?_⟩
    rintro event ⟨⟩
    exact ⟨rfl, rfl, _, rfl, .inr ⟨hreach, rfl⟩⟩

/-- **Evaluation is fail-safe and right.**  Every text has exactly one meaning.  Evaluating it gives a decision
whenever there is depth enough to report what went wrong and the report is taken; it fails only if something
went wrong and is not reported.  If no string of the text escapes a line feed, the decision is right: if the
condition holds, the text expresses an expression that yields true, and nothing is reported; if it does not
hold and nothing is reported, the expression yields false; otherwise exactly one event is reported, with the
text as it is and with the message of the error that the text means, or else the text goes deeper than the
limit.  If a string of the text escapes a line feed, the condition does not hold, whatever the text means, and
the quote of such a string is reported. -/
theorem evaluate_agrees_with_meaning (sink : Sink) (depth : Nat) (text : String) (vars : Variables) :
    (∃! outcome, Means text vars outcome) ∧
    (Depth.report ≤ depth → (∀ line, sink line = none) →
      ∃ decision, Condition.evaluate sink depth text vars = .ok decision) ∧
    (∀ e, Condition.evaluate sink depth text vars = .error e →
      e = .tooDeep ∧ depth < Depth.report ∨ ∃ line reason, sink line = some reason ∧ e = .refused reason) ∧
    (¬EscapesLineFeed text →
      (∀ e, Condition.evaluate sink depth text vars = .error e →
        (∃ cause, Means text vars (.error cause)) ∨ depth < Condition.reach text vars) ∧
      ∀ decision, Condition.evaluate sink depth text vars = .ok decision → decision.Agrees depth text vars) ∧
    (EscapesLineFeed text → ∀ decision, Condition.evaluate sink depth text vars = .ok decision →
      ∃ tokens stop, Lexes 0 text.toList tokens stop ∧ ∃ t ∈ tokens, t.lexeme.EscapesLineFeed ∧
        ∃ quote, (quote = '"' ∨ quote = '\'') ∧
          decision = ⟨false, some (.because (.malformed (.unexpectedCharacter ⟨quote, t.pos⟩)))⟩) := by
  have hcases := Condition.evaluate_cases sink depth text vars
  refine ⟨existsUnique_means text vars, fun hroom htaken => ?_, fun e herror => ?_, fun hfeeds => ⟨?_, ?_⟩, ?_⟩
  · rcases hcases with ⟨-, hok⟩ | ⟨event, -, ⟨-, -, hok⟩ | ⟨hdepth, -⟩ | ⟨reason, -, hsink, -⟩⟩
    · exact ⟨_, hok⟩
    · exact ⟨_, hok⟩
    · exact absurd hdepth (Nat.not_lt.mpr hroom)
    · rw [htaken] at hsink
      cases hsink
  · rw [herror] at hcases
    rcases hcases with ⟨-, ⟨⟩⟩ | ⟨event, -, ⟨-, -, ⟨⟩⟩ | ⟨hdepth, ⟨⟩⟩ | ⟨reason, -, hsink, ⟨⟩⟩⟩
    · exact .inl ⟨rfl, hdepth⟩
    · exact .inr ⟨_, reason, hsink, rfl⟩
  · intro e herror
    obtain ⟨event, hevent⟩ := Condition.event_of_evaluate_error herror
    obtain ⟨-, -, message, -, ⟨cause, hmeans, -⟩ | ⟨hreach, -⟩⟩ :=
      (Condition.agrees_decision hfeeds depth vars).failed_of_event event hevent
    · exact .inl ⟨cause, hmeans⟩
    · exact .inr hreach
  · intro decision hok
    rw [Condition.eq_decision_of_evaluate hok]
    exact Condition.agrees_decision hfeeds depth vars
  · intro hfeeds decision hok
    rw [Condition.eq_decision_of_evaluate hok]
    exact decision_of_escapesLineFeed hfeeds depth vars

/-- With the age at 20, one condition holds, and one compares a number to a string, which is reported unless
there is too little depth for it. -/
theorem evaluate_agrees_with_meaning_age :
    let vars : Variables := .ofList [("age", .integer 20)]
    let mismatch : ConditionError := .valueless (.kindMismatch .number .string .ge)
    ¬EscapesLineFeed "age >= 18" ∧ ¬EscapesLineFeed "age >= 'old'" ∧
    (∃ e, Expresses "age >= 18" e ∧ Yields vars e (.ok (.boolean true))) ∧
    (∃ decision, Condition.evaluate .standard Depth.standard "age >= 'old'" vars = .ok decision ∧
      decision = ⟨false, some (.because mismatch)⟩ ∧ decision.Agrees Depth.standard "age >= 'old'" vars) ∧
    Condition.evaluate .standard 5 "age >= 'old'" vars = .error .tooDeep ∧
    ∃ cause, Means "age >= 'old'" vars (.error cause) := by
  intro vars mismatch
  have hadult : ¬EscapesLineFeed "age >= 18" := not_escapesLineFeed_of_tokenize
    (eq_ok_of_toOption (a := [⟨.name "age", 0⟩, ⟨.symbol (.comparison .ge), 4⟩, ⟨.number "18", 7⟩])
      (by decide +kernel))
  have hold : ¬EscapesLineFeed "age >= 'old'" := not_escapesLineFeed_of_tokenize
    (eq_ok_of_toOption (a := [⟨.name "age", 0⟩, ⟨.symbol (.comparison .ge), 4⟩, ⟨.string "'old'", 7⟩])
      (by decide +kernel))
  obtain ⟨-, -, -, htrue, -⟩ := evaluate_agrees_with_meaning .standard Depth.standard "age >= 18" vars
  obtain ⟨-, -, -, hfalse, -⟩ := evaluate_agrees_with_meaning .standard Depth.standard "age >= 'old'" vars
  obtain ⟨-, -, -, hfails, -⟩ := evaluate_agrees_with_meaning .standard 5 "age >= 'old'" vars
  have hholds : Condition.evaluate .standard Depth.standard "age >= 18" vars = .ok ⟨true, none⟩ :=
    eq_ok_of_toOption (by decide +kernel)
  have hreported : Condition.evaluate .standard Depth.standard "age >= 'old'" vars =
      .ok ⟨false, some (.because mismatch)⟩ := eq_ok_of_toOption (by decide +kernel)
  have hshallow : Condition.evaluate .standard 5 "age >= 'old'" vars = .error .tooDeep :=
    eq_error_of_swap (by decide +kernel)
  refine ⟨hadult, hold, (((htrue hadult).2 _ hholds).true_of_holds rfl).2,
    ⟨_, hreported, rfl, (hfalse hold).2 _ hreported⟩, hshallow, ?_⟩
  obtain hcause | hreach := (hfails hold).1 _ hshallow
  · exact hcause
  · exact absurd hreach (by decide +kernel)

/-! ### A condition that the program does not know -/

/-- **Evaluation does not always agree with the language**: of a string that escapes a line feed, that it
equals itself is true, but the condition does not hold, and what is reported is no error of the text. -/
theorem not_evaluate_escaped_line_feed :
    let text : String := "\"\\\n\" == \"\\\n\""
    let failure : ConditionError := .malformed (.unexpectedCharacter ⟨'"', 0⟩)
    (∀ outcome, Means text ∅ outcome ↔ outcome = .ok true) ∧
    Condition.evaluate .standard Depth.standard text ∅ = .ok ⟨false, some (.because failure)⟩ ∧
    ¬∀ text vars decision, Condition.evaluate .standard Depth.standard text vars = .ok decision →
      decision.Agrees Depth.standard text vars := by
  intro text failure
  let feed : Lexeme := .string "\"\\\n\""
  let equals : Lexeme := .symbol (.comparison .eq)
  have hfeed : feed.Formed := ⟨'"', [('\n', true)], .inl rfl, by decide +kernel⟩
  have hequals : equals.Ends (' ' :: (feed.text.toList ++ [])) := by
    rintro (h | h | h) <;> cases h
  have htext : text.toList =
      feed.text.toList ++ ' ' :: (equals.text.toList ++ ' ' :: (feed.text.toList ++ [])) := by
    decide +kernel
  let second := 0 + feed.text.length + 1
  let third := second + equals.text.length + 1
  have hlexes : Lexes 0 text.toList [⟨feed, 0⟩, ⟨equals, second⟩, ⟨feed, third⟩] none := by
    rw [htext]
    exact .token hfeed (hfeed.ends_string _) (.blank rfl (.token (Lexeme.fits_symbol _).formed hequals
      (.blank rfl (.token hfeed (hfeed.ends_string _) (.done _)))))
  have htruth : truthOfTokens ∅ [⟨feed, 0⟩, ⟨equals, second⟩, ⟨feed, third⟩] none = .ok true :=
    eq_ok_of_toOption (by decide +kernel)
  have hmeans (outcome : Except ConditionError Bool) : Means text ∅ outcome ↔ outcome = .ok true := by
    rw [means_iff hlexes, htruth]
    exact eq_comm
  have hevaluate : Condition.evaluate .standard Depth.standard text ∅ =
      .ok ⟨false, some (.because failure)⟩ := eq_ok_of_toOption (by decide +kernel)
  refine ⟨hmeans, hevaluate, fun hagrees => ?_⟩
  have hevent := (hagrees text ∅ _ hevaluate).failed_of_event _ rfl
  obtain ⟨-, -, message, hdetails, ⟨cause, hcause, -⟩ | ⟨hreach, -⟩⟩ := hevent
  · cases (hmeans _).mp hcause
  · exact absurd hreach (by decide +kernel)

end DecisionFlow
