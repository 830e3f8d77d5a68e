import DecisionFlow.Proofs.Cutting
import DecisionFlow.Proofs.Reach

/-!
# White space between tokens

The parser goes by the lexemes of its tokens.  Their positions get into its messages and nowhere else:
with all positions at zero it does the same, step by step.  So two texts with the same lexemes mean the
same, and white space between tokens is free.

* `Token.unplaced`, `ParseState.unplaced`, `SyntaxError.unplaced`, `ConditionError.unplaced` — the same
  with all positions at zero;
* `ParseState.step_unplaced`, `ParseState.steps_unplaced` — one token, and a list of tokens;
* `Expr.ofTokens_unplaced`, `ParseState.reach_unplaced` — what is parsed, and how deep it goes;
* `Condition.truthWithin_unplaced`, `Condition.decision_unplaced` — a condition is decided by what its text
  is parsed to;
* `SameLexemes` — two texts have the same lexemes; `SameLexemes.decision` says that conditions are decided
  by them;
* `decision_of_spaced` — a text that is written again with other white space between its tokens.
-/

namespace DecisionFlow

/-! ### Positions at zero -/

/-- The token at the beginning of a text. -/
def Token.unplaced (token : Token) : Token := { token with pos := 0 }

/-- The state with all its parentheses at the beginning of a text. -/
def ParseState.unplaced (state : ParseState) : ParseState :=
  { state with outer := state.outer.map fun p => (0, p.2) }

/-- The error at the beginning of a text. -/
def SyntaxError.unplaced : SyntaxError → SyntaxError
  | unexpectedCharacter e => unexpectedCharacter { e with pos := 0 }
  | empty => empty
  | unexpectedEnd => unexpectedEnd
  | unexpectedToken token => unexpectedToken token.unplaced
  | chainedComparison token => chainedComparison token.unplaced
  | missingClosing _ => missingClosing 0
  | numeralTooLong _ digits => numeralTooLong 0 digits

/-- The error at the beginning of a text; what has no value has none wherever it stands. -/
def ConditionError.unplaced : ConditionError → ConditionError
  | malformed e => malformed e.unplaced
  | valueless e => valueless e

/-- Without their positions, tokens are their lexemes. -/
theorem Token.map_unplaced_eq {ts us : List Token} (h : ts.map Token.lexeme = us.map Token.lexeme) :
    ts.map Token.unplaced = us.map Token.unplaced := by
  have hlexemes (vs : List Token) :
      vs.map Token.unplaced = (vs.map Token.lexeme).map fun l => ⟨l, 0⟩ := by
    rw [List.map_map]
    rfl
  rw [hlexemes ts, hlexemes us, h]

/-! ### Parsing goes by the lexemes -/

namespace ParseState

theorem stepOperand_unplaced (level : Level) (outer : List (Nat × Level)) (token : Token) :
    stepOperand level (outer.map fun p => (0, p.2)) token.unplaced =
      ((stepOperand level outer token).map unplaced).mapError SyntaxError.unplaced := by
  obtain ⟨lexeme, pos⟩ := token
  cases lexeme with
  | number text =>
    simp only [stepOperand, Token.unplaced]
    cases Literal.numberValue text <;> rfl
  | string text => rfl
  | name text => rfl
  | symbol s => cases s <;> rfl

theorem stepOperator_unplaced (level : Level) (outer : List (Nat × Level)) (operand : Expr)
    (token : Token) :
    stepOperator level (outer.map fun p => (0, p.2)) operand token.unplaced =
      ((stepOperator level outer operand token).map unplaced).mapError SyntaxError.unplaced := by
  obtain ⟨lexeme, pos⟩ := token
  -- A token that cannot stand here is blamed, or else the innermost open parenthesis.
  have hunclosed (l : Lexeme) :
      (.error (unclosed (outer.map fun p => (0, p.2)) ⟨l, 0⟩) : Except SyntaxError ParseState) =
        .error (unclosed outer ⟨l, pos⟩).unplaced := by
    cases outer <;> rfl
  cases lexeme with
  | number text => exact hunclosed _
  | string text => exact hunclosed _
  | name text => exact hunclosed _
  | symbol s =>
    cases s with
    | comparison op =>
      simp only [stepOperator, Token.unplaced]
      cases level.compared <;> rfl
    | connective op => cases op <;> rfl
    | not => exact hunclosed _
    | opening => exact hunclosed _
    | closing => cases outer <;> rfl

/-- **One token is read by its lexeme.** -/
theorem step_unplaced (state : ParseState) (token : Token) :
    state.unplaced.step token.unplaced =
      ((state.step token).map unplaced).mapError SyntaxError.unplaced := by
  obtain ⟨level, outer, operand⟩ := state
  cases operand with
  | none => exact stepOperand_unplaced level outer token
  | some operand => exact stepOperator_unplaced level outer operand token

/-- **A list of tokens is read by its lexemes.** -/
theorem steps_unplaced (state : ParseState) (tokens : List Token) :
    state.unplaced.steps (tokens.map Token.unplaced) =
      ((state.steps tokens).map unplaced).mapError SyntaxError.unplaced := by
  induction tokens generalizing state with
  | nil => rfl
  | cons token rest ih =>
    rw [List.map_cons, steps, steps, step_unplaced]
    cases state.step token with
    | error e => rfl
    | ok next => exact ih next

theorem finish_unplaced (state : ParseState) :
    state.unplaced.finish = state.finish.mapError SyntaxError.unplaced := by
  obtain ⟨level, outer, operand⟩ := state
  cases operand with
  | none => rfl
  | some operand => cases outer <;> rfl

theorem nesting_unplaced (state : ParseState) : state.unplaced.nesting = state.nesting :=
  List.foldr_map

/-- Nor do positions matter to how much is open at one place. -/
theorem reach_unplaced (state : ParseState) (tokens : List Token) :
    state.unplaced.reach (tokens.map Token.unplaced) = state.reach tokens := by
  induction tokens generalizing state with
  | nil => rfl
  | cons token rest ih =>
    rw [List.map_cons, reach, reach, step_unplaced, Bounded.after_mapError]
    cases state.step token with
    | error e => rfl
    | ok next =>
      show max next.unplaced.nesting _ = max next.nesting _
      rw [nesting_unplaced, ih]

end ParseState

/-- **What is parsed goes by the lexemes**, and so does why nothing is. -/
theorem Expr.ofTokens_unplaced (tokens : List Token) :
    ofTokens (tokens.map Token.unplaced) = (ofTokens tokens).mapError SyntaxError.unplaced := by
  unfold ofTokens
  by_cases hempty : tokens = []
  · subst hempty
    rfl
  · have hsteps : ParseState.start.steps (tokens.map Token.unplaced) = _ :=
      ParseState.steps_unplaced ParseState.start tokens
    rw [if_neg (mt List.map_eq_nil_iff.mp hempty), if_neg hempty, hsteps]
    cases ParseState.start.steps tokens with
    | error e => rfl
    | ok state => exact state.finish_unplaced

/-! ### Decisions go by what is parsed -/

/-- How a condition was decided, with what went wrong at the beginning of the text. -/
def Decision.unplaced (decision : Decision) : Decision :=
  { decision with failure := decision.failure.map (Bounded.map ConditionError.unplaced) }

namespace Condition

/-- What has no value has none wherever it stands. -/
theorem mapError_valueless_unplaced {α : Type} (r : Except (Bounded EvalError) α) :
    (r.mapError (Bounded.map ConditionError.valueless)).mapError (Bounded.map ConditionError.unplaced) =
      r.mapError (Bounded.map ConditionError.valueless) := by
  cases r with
  | error stop => cases stop <;> rfl
  | ok a => rfl

/-- The truth value goes by the expression, or by why there is none. -/
theorem truthWithin_unplaced (depth : Nat) (text : String) (vars : Variables) :
    (truthWithin depth text vars).mapError (Bounded.map ConditionError.unplaced) =
      ((((Expr.parseWithin depth text).mapError (Bounded.map SyntaxError.unplaced)).mapError
        (Bounded.map .malformed)).bind fun e =>
          ((e.valueWithin vars depth).bind fun s => Expr.lift (s.boolean? .condition)).mapError
            (Bounded.map ConditionError.valueless)) := by
  unfold truthWithin
  cases Expr.parseWithin depth text with
  | error e => cases e <;> rfl
  | ok e => exact mapError_valueless_unplaced _

/-- A decision goes by the truth value, or by why there is none. -/
theorem decision_unplaced (depth : Nat) (text : String) (vars : Variables) :
    (decision depth text vars).unplaced =
      match (truthWithin depth text vars).mapError (Bounded.map ConditionError.unplaced) with
      | .ok b => ⟨b, none⟩
      | .error e => ⟨false, some e⟩ := by
  unfold decision
  cases truthWithin depth text vars <;> rfl

end Condition

/-! ### Texts with the same lexemes -/

/-- Two texts have tokens with the same lexemes, at whatever positions. -/
def SameLexemes (text other : String) : Prop :=
  ∃ ts us, tokenize text = .ok ts ∧ tokenize other = .ok us ∧ us.map Token.lexeme = ts.map Token.lexeme

namespace SameLexemes

variable {text other : String}

/-- They parse to the same expression, or fail for the same reason. -/
theorem parse (h : SameLexemes text other) :
    (Expr.parse other).mapError SyntaxError.unplaced = (Expr.parse text).mapError SyntaxError.unplaced := by
  obtain ⟨ts, us, hts, hus, hsame⟩ := h
  unfold Expr.parse
  rw [hts, hus]
  show (Expr.ofTokens us).mapError _ = (Expr.ofTokens ts).mapError _
  rw [← Expr.ofTokens_unplaced, ← Expr.ofTokens_unplaced, Token.map_unplaced_eq hsame]

/-- They do so with the same depth. -/
theorem parseWithin (h : SameLexemes text other) (depth : Nat) :
    (Expr.parseWithin depth other).mapError (Bounded.map SyntaxError.unplaced) =
      (Expr.parseWithin depth text).mapError (Bounded.map SyntaxError.unplaced) := by
  obtain ⟨ts, us, hts, hus, hsame⟩ := h
  have hunplaced (vs : List Token) :
      (Expr.ofTokensWithin depth vs).mapError (Bounded.map SyntaxError.unplaced) =
        Expr.ofTokensWithin depth (vs.map Token.unplaced) := by
    have hreach : ParseState.start.reach (vs.map Token.unplaced) = ParseState.start.reach vs :=
      ParseState.reach_unplaced ParseState.start vs
    rw [Expr.ofTokensWithin_eq, Expr.ofTokensWithin_eq, Bounded.within_mapError, hreach,
      Expr.ofTokens_unplaced]
  unfold Expr.parseWithin
  rw [hts, hus]
  show (Expr.ofTokensWithin depth us).mapError _ = (Expr.ofTokensWithin depth ts).mapError _
  rw [hunplaced, hunplaced, Token.map_unplaced_eq hsame]

/-- They have the same truth value to any depth, or none for the same reason. -/
theorem truthWithin (h : SameLexemes text other) (depth : Nat) (vars : Variables) :
    (Condition.truthWithin depth other vars).mapError (Bounded.map ConditionError.unplaced) =
      (Condition.truthWithin depth text vars).mapError (Bounded.map ConditionError.unplaced) := by
  rw [Condition.truthWithin_unplaced, Condition.truthWithin_unplaced, h.parseWithin depth]

/-- **Conditions are decided by their lexemes.** -/
theorem decision (h : SameLexemes text other) (depth : Nat) (vars : Variables) :
    (Condition.decision depth other vars).unplaced = (Condition.decision depth text vars).unplaced := by
  rw [Condition.decision_unplaced, Condition.decision_unplaced, h.truthWithin depth vars]

end SameLexemes

/-! ### White space is free -/

/-- The expression of a text is known when its error is known but for the position. -/
theorem ok_iff_of_mapError {ε δ α : Type} {r s : Except ε α} {f : ε → δ}
    (h : r.mapError f = s.mapError f) (a : α) : r = .ok a ↔ s = .ok a := by
  cases r with
  | ok b =>
    cases s with
    | ok c =>
      cases h
      exact Iff.rfl
    | error e => cases h
  | error e =>
    cases s with
    | ok c => cases h
    | error e' => exact ⟨nofun, nofun⟩

/-- A text that is written again with other white space between its lexemes has the same lexemes. -/
theorem sameLexemes_of_spaced {text other : String} {tokens : List Token}
    (h : tokenize text = .ok tokens) (hspaced : Spaced (tokens.map Token.lexeme) other.toList) :
    SameLexemes text other := by
  have hfits := (cuts_of_tokenize h).fits
  have hreads : ∀ l ∈ tokens.map Token.lexeme, l.ReadsBack := fun l hl =>
    Lexeme.readsBack_of_fits (hfits l hl)
  obtain ⟨again, hscan, hagain⟩ := Token.scan_of_spaced hspaced hreads 0
  exact ⟨tokens, again, h, hscan, hagain⟩

/-- **White space between tokens changes nothing.**  Let a text have tokens, and let another text consist
of their lexemes in this order, with white space between neighbours and perhaps at both ends.  Then the other
text has tokens with the same lexemes.  It parses to the same expression or to none, to any depth or to a
given one.  Under all variables it is decided in the same way, and whatever goes wrong is the same but for
its position. -/
theorem decision_of_spaced {text other : String} {tokens : List Token}
    (h : tokenize text = .ok tokens) (hspaced : Spaced (tokens.map Token.lexeme) other.toList) :
    (∃ again, tokenize other = .ok again ∧ again.map Token.lexeme = tokens.map Token.lexeme) ∧
    (∀ e, Expr.parse other = .ok e ↔ Expr.parse text = .ok e) ∧
    (∀ depth e, Expr.parseWithin depth other = .ok e ↔ Expr.parseWithin depth text = .ok e) ∧
    ∀ depth vars,
      (Condition.decision depth other vars).holds = (Condition.decision depth text vars).holds ∧
      (Condition.decision depth other vars).failure.map (Bounded.map ConditionError.unplaced) =
        (Condition.decision depth text vars).failure.map (Bounded.map ConditionError.unplaced) := by
  have hsame := sameLexemes_of_spaced h hspaced
  refine ⟨?_, ok_iff_of_mapError hsame.parse, fun depth => ok_iff_of_mapError (hsame.parseWithin depth),
    fun depth vars => ?_⟩
  · obtain ⟨ts, again, hts, hagain, hlexemes⟩ := hsame
    cases hts.symm.trans h
    exact ⟨again, hagain, hlexemes⟩
  · exact Decision.mk.inj (hsame.decision depth vars)

/-- Tokens that stood without a gap, with a line feed, an ideographic space and a no-break space between
them; the space inside the string stays. -/
theorem decision_of_spaced_gaps :
    let text : String := "!x||y<-1&&s=='a b'"
    let tokens : List Token := [⟨.symbol .not, 0⟩, ⟨.name "x", 1⟩, ⟨.symbol (.connective .or), 2⟩,
      ⟨.name "y", 4⟩, ⟨.symbol (.comparison .lt), 5⟩, ⟨.number "-1", 6⟩,
      ⟨.symbol (.connective .and), 8⟩, ⟨.name "s", 10⟩, ⟨.symbol (.comparison .eq), 11⟩,
      ⟨.string "'a b'", 13⟩]
    let other : String := "! x ||\u3000y <\n-1 && s\u00a0== 'a b' "
    tokenize text = .ok tokens ∧ Spaced (tokens.map Token.lexeme) other.toList ∧
      ∀ vars, (Condition.decision Depth.standard other vars).holds =
        (Condition.decision Depth.standard text vars).holds := by
  intro text tokens other
  have htokens : tokenize text = .ok tokens := by
    have hcut : (tokenize text).toOption = some tokens := by decide +kernel
    cases hscan : tokenize text with
    | error e =>
      rw [hscan] at hcut
      cases hcut
    | ok found =>
      rw [hscan] at hcut
      exact congrArg Except.ok (Option.some.inj hcut)
  have hgap {c : Char} (hc : Text.isBlank c = true) {l : Lexeme} {ls : List Lexeme} {cs : List Char}
      (h : Spaced ls cs) : Spaced (l :: ls) (l.text.toList ++ c :: cs) :=
    .lexeme (Text.startsBlank_cons hc cs) (.blank hc h)
  have hspaced : Spaced (tokens.map Token.lexeme) other.toList := by
    have hchars : Spaced (tokens.map Token.lexeme) _ :=
      hgap (c := ' ') (by decide) <| hgap (c := ' ') (by decide) <| hgap (c := '\u3000') (by decide) <|
      hgap (c := ' ') (by decide) <| hgap (c := '\n') (by decide) <| hgap (c := ' ') (by decide) <|
      hgap (c := ' ') (by decide) <| hgap (c := '\u00a0') (by decide) <|
      hgap (c := ' ') (by decide) <| hgap (c := ' ') (by decide) Spaced.nil
    refine Eq.subst (motive := Spaced (tokens.map Token.lexeme)) ?_ hchars
    decide +kernel
  exact ⟨htokens, hspaced, fun vars =>
    ((decision_of_spaced htokens hspaced).2.2.2 Depth.standard vars).1⟩

end DecisionFlow
