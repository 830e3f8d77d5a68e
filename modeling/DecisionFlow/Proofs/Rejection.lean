import Mathlib.Data.List.TakeWhile
import DecisionFlow.Proofs.Prefixes

/-!
# Syntax errors

Which error a list of tokens has that is no expression, told by the grammar alone: by what its beginnings can
be continued to, by the parentheses that they leave open, and by whether they end with an operand.

* `Viable` — the lists of tokens that begin an expression;
* `Token.endsOperand`, `endsOperand` — what an operand ends with;
* `Token.refusal` — the error for a token that cannot come next;
* `Rejects` — the error of a list of tokens;
* `ofTokens_eq_error_iff` — it is the one that the parser finds.
-/

namespace DecisionFlow

/-- A list of tokens begins an expression. -/
def Viable (tokens : List Token) : Prop := ∃ rest, Grammatical (tokens ++ rest)

/-- Whether an operand may end with a token: with a literal, a name or a closing parenthesis. -/
def Token.endsOperand (token : Token) : Bool :=
  match token.lexeme with
  | .number _ | .string _ | .name _ | .symbol .closing => true
  | .symbol _ => false

/-- Whether tokens end with an operand. -/
def endsOperand (tokens : List Token) : Bool := tokens.getLast?.any Token.endsOperand

/-- The error for a token that cannot come next, by whether it follows an operand and by the parentheses that
are open.  A comparison that cannot follow an operand follows one of a comparison; before anything else the
innermost parenthesis ought to have been closed. -/
def Token.refusal (afterOperand : Bool) (opened : List Nat) (token : Token) : SyntaxError :=
  if afterOperand then
    match token.lexeme, opened.head? with
    | .symbol (.comparison _), _ => .chainedComparison token
    | _, some pos => .missingClosing pos
    | _, none => .unexpectedToken token
  else .unexpectedToken token

/-- `Rejects tokens e`: the tokens are no expression, and this is the reason.  The first of them that no
expression can have there is to blame, or an integer with too many digits in front of it; if there is none,
then something is missing at the end. -/
inductive Rejects (tokens : List Token) : SyntaxError → Prop where
  | empty : tokens = [] → Rejects tokens .empty
  | refused {before after : List Token} {token : Token} :
      tokens = before ++ token :: after → (∀ other ∈ before, ¬other.IsTooLong) → Viable before →
      ¬Viable (before ++ [token]) →
      Rejects tokens (token.refusal (endsOperand before) (Token.openings before))
  | numeralTooLong {before after : List Token} {text : String} {pos : Nat} :
      tokens = before ++ ⟨.number text, pos⟩ :: after → (∀ other ∈ before, ¬other.IsTooLong) →
      Viable (before ++ [⟨.number text, pos⟩]) → Token.IsTooLong ⟨.number text, pos⟩ →
      Rejects tokens (.numeralTooLong pos (Literal.splitSign text.toList).2.length)
  | unexpectedEnd :
      tokens ≠ [] → (∀ other ∈ tokens, ¬other.IsTooLong) → Viable tokens → endsOperand tokens = false →
      Rejects tokens .unexpectedEnd
  | unclosed {pos : Nat} :
      (∀ other ∈ tokens, ¬other.IsTooLong) → Viable tokens → endsOperand tokens = true →
      (Token.openings tokens).head? = some pos → Rejects tokens (.missingClosing pos)

/-! ### Numerals that are too long -/

namespace Token

/-- An integer has too many digits exactly if it has no value, and then their number is to blame. -/
theorem numberValue_of_isTooLong {text : String} {pos : Nat} (h : IsTooLong ⟨.number text, pos⟩) :
    Literal.numberValue text = .error (Literal.splitSign text.toList).2.length := by
  obtain ⟨other, htext, hpoint, hlong⟩ := h
  cases htext
  unfold Literal.numberValue
  generalize Literal.splitSign text.toList = signed at hpoint hlong ⊢
  obtain ⟨negative, cs⟩ := signed
  have hwhole : cs.takeWhile (· ≠ '.') = cs := by
    rw [List.takeWhile_eq_self_iff]
    intro c hc
    simp only [decide_eq_true_eq]
    rintro rfl
    exact hpoint hc
  have hcontains : cs.contains '.' = false := by simpa using hpoint
  simp only [hcontains, hwhole, if_pos hlong, Bool.false_eq_true, if_false]

theorem length_of_numberValue {text : String} {digits : Nat}
    (h : Literal.numberValue text = .error digits) :
    digits = (Literal.splitSign text.toList).2.length := by
  have hlong := isTooLong_of_numberValue h 0
  exact (Except.error.inj ((numberValue_of_isTooLong hlong).symm.trans h)).symm

/-- A token is shortened at most once. -/
theorem shortened_shortened (token : Token) : token.shortened.shortened = token.shortened := by
  obtain ⟨lexeme, pos⟩ := token
  cases lexeme with
  | number text =>
    cases hvalue : Literal.numberValue text with
    | ok n => simp only [shortened, hvalue]
    | error digits =>
      have hzero : Literal.numberValue "0" = .ok (.integer 0) := rfl
      simp only [shortened, hvalue, hzero]
  | _ => rfl

end Token

/-! ### States and the tokens in front of them -/

namespace ParseState

/-- After a token there is an operand exactly if one ends with the token. -/
theorem isSome_operand_of_step {state next : ParseState} {token : Token} (h : state.step token = .ok next) :
    next.operand.isSome = token.endsOperand := by
  obtain ⟨level, outer, operand⟩ := state
  obtain ⟨lexeme, pos⟩ := token
  cases operand with
  | none =>
    replace h : stepOperand level outer ⟨lexeme, pos⟩ = .ok next := h
    cases lexeme with
    | number text =>
      simp only [stepOperand] at h
      cases hvalue : Literal.numberValue text with
      | ok n =>
        rw [hvalue] at h
        cases h
        rfl
      | error digits =>
        rw [hvalue] at h
        cases h
    | string text | name text =>
      cases h
      rfl
    | symbol s => cases s <;> cases h <;> rfl
  | some operand =>
    replace h : stepOperator level outer operand ⟨lexeme, pos⟩ = .ok next := h
    cases lexeme with
    | symbol s =>
      cases s with
      | comparison op =>
        simp only [stepOperator] at h
        cases hcompared : level.compared <;> rw [hcompared] at h <;> cases h
        rfl
      | connective op => cases op <;> cases h <;> rfl
      | closing =>
        cases outer with
        | nil => cases h
        | cons around outer =>
          cases h
          rfl
      | not | opening => cases h
    | number text | string text | name text => cases h

theorem isSome_operand {reached : ParseState} {tokens : List Token} (h : start.steps tokens = .ok reached) :
    reached.operand.isSome = endsOperand tokens := by
  rcases List.eq_nil_or_concat tokens with rfl | ⟨before, token, rfl⟩
  · cases h
    rfl
  · rw [List.concat_eq_append] at h ⊢
    rw [steps_append] at h
    cases hbefore : start.steps before with
    | error e =>
      rw [hbefore] at h
      cases h
    | ok middle =>
      rw [hbefore] at h
      replace h : middle.steps [token] = .ok reached := h
      cases hstep : middle.step token with
      | error e =>
        rw [steps, hstep] at h
        cases h
      | ok next =>
        rw [steps, hstep] at h
        cases h
        rw [isSome_operand_of_step hstep, endsOperand, List.getLast?_concat]
        rfl

/-- What is read is no integer with too many digits. -/
theorem not_isTooLong_of_step {state next : ParseState} {token : Token} (h : state.step token = .ok next) :
    ¬token.IsTooLong := by
  intro hlong
  obtain ⟨level, outer, operand⟩ := state
  obtain ⟨lexeme, pos⟩ := token
  have ⟨text, hlexeme, _⟩ := hlong
  obtain rfl : lexeme = .number text := hlexeme
  cases operand with
  | none =>
    replace h : stepOperand level outer ⟨.number text, pos⟩ = .ok next := h
    simp only [stepOperand, Token.numberValue_of_isTooLong hlong] at h
    cases h
  | some operand => cases h

theorem not_isTooLong_of_steps {state reached : ParseState} {tokens : List Token}
    (h : state.steps tokens = .ok reached) : ∀ token ∈ tokens, ¬token.IsTooLong := by
  induction tokens generalizing state with
  | nil => exact nofun
  | cons token rest ih =>
    cases hstep : state.step token with
    | error e =>
      rw [steps, hstep] at h
      cases h
    | ok next =>
      rw [steps, hstep] at h
      exact List.forall_mem_cons.mpr ⟨not_isTooLong_of_step hstep, ih h⟩

/-- An integer with too many digits is read where any other number is. -/
theorem step_shortened {state : ParseState} {text : String} {pos digits : Nat}
    (hvalue : Literal.numberValue text = .error digits) :
    (∃ next, state.step (Token.shortened ⟨.number text, pos⟩) = .ok next) ↔ state.operand = none := by
  have hzero : Literal.numberValue "0" = .ok (.integer 0) := rfl
  obtain ⟨level, outer, operand⟩ := state
  simp only [Token.shortened, hvalue]
  cases operand with
  | none => simp [step, stepOperand, hzero]
  | some operand => simp [step, stepOperator]

/-- Where an operand has to follow, a token is refused for itself. -/
theorem refusal_of_stepOperand {level : Level} {outer : List (Nat × Level)} {token : Token} {e : SyntaxError}
    (h : stepOperand level outer token = .error e) :
    (∃ text digits, token.lexeme = .number text ∧ Literal.numberValue text = .error digits ∧
      e = .numeralTooLong token.pos digits) ∨
    ¬token.IsTooLong ∧ e = token.refusal false (outer.map Prod.fst) := by
  obtain ⟨lexeme, pos⟩ := token
  cases lexeme with
  | number text =>
    simp only [stepOperand] at h
    cases hvalue : Literal.numberValue text with
    | ok n =>
      rw [hvalue] at h
      cases h
    | error digits =>
      rw [hvalue] at h
      exact .inl ⟨text, digits, rfl, hvalue, (Except.error.inj h).symm⟩
  | string text | name text => cases h
  | symbol s =>
    refine .inr ⟨by rintro ⟨_, ⟨⟩, _⟩, ?_⟩
    cases s <;> cases h <;> rfl

/-- After an operand, a token is refused for itself or for the innermost parenthesis that is open. -/
theorem refusal_of_stepOperator {level : Level} {outer : List (Nat × Level)} {operand : Expr}
    {token : Token} {e : SyntaxError} (h : stepOperator level outer operand token = .error e) :
    e = token.refusal true (outer.map Prod.fst) := by
  obtain ⟨lexeme, pos⟩ := token
  cases lexeme with
  | symbol s =>
    cases s with
    | comparison op =>
      simp only [stepOperator] at h
      cases hcompared : level.compared <;> rw [hcompared] at h <;> cases h
      rfl
    | connective op => cases op <;> cases h
    | closing =>
      cases outer with
      | nil =>
        cases h
        rfl
      | cons around outer => cases h
    | not | opening =>
      cases h
      cases outer <;> rfl
  | number text | string text | name text =>
    cases h
    cases outer <;> rfl

/-- **A token is refused for the place where it stands**, unless it is an integer with too many digits
where an operand has to follow. -/
theorem refusal_of_step {state : ParseState} {token : Token} {e : SyntaxError}
    (h : state.step token = .error e) :
    (state.operand = none ∧ ∃ text digits, token.lexeme = .number text ∧
      Literal.numberValue text = .error digits ∧ e = .numeralTooLong token.pos digits) ∨
    (¬∃ next, state.step token.shortened = .ok next) ∧
      e = token.refusal state.operand.isSome state.opened := by
  by_cases hlong : token.IsTooLong
  · obtain ⟨lexeme, pos⟩ := token
    have ⟨text, hlexeme, _⟩ := hlong
    obtain rfl : lexeme = .number text := hlexeme
    rw [step_shortened (Token.numberValue_of_isTooLong hlong)]
    obtain ⟨level, outer, operand⟩ := state
    cases operand with
    | none =>
      replace h : stepOperand level outer ⟨.number text, pos⟩ = .error e := h
      obtain hnumeral | ⟨hshort, -⟩ := refusal_of_stepOperand h
      · exact .inl ⟨rfl, hnumeral⟩
      · exact absurd hlong hshort
    | some operand =>
      replace h : stepOperator level outer operand ⟨.number text, pos⟩ = .error e := h
      exact .inr ⟨nofun, refusal_of_stepOperator h⟩
  · rw [Token.shortened_eq_self hlong, h]
    obtain ⟨level, outer, operand⟩ := state
    cases operand with
    | none =>
      replace h : stepOperand level outer token = .error e := h
      obtain hnumeral | ⟨-, hrefusal⟩ := refusal_of_stepOperand h
      · exact .inl ⟨rfl, hnumeral⟩
      · exact .inr ⟨nofun, hrefusal⟩
    | some operand =>
      replace h : stepOperator level outer operand token = .error e := h
      exact .inr ⟨nofun, refusal_of_stepOperator h⟩

/-! ### Beginnings of expressions -/

/-- What begins an expression is read. -/
theorem steps_of_viable {tokens : List Token} (hshort : ∀ token ∈ tokens, ¬token.IsTooLong)
    (hviable : Viable tokens) : ∃ reached, start.steps tokens = .ok reached := by
  obtain ⟨rest, e, hderives⟩ := hviable
  rw [List.map_append, Token.map_shortened hshort] at hderives
  obtain ⟨after, operand, hread, -⟩ := hderives.steps .start [] rfl
  replace hread : start.steps (tokens ++ rest.map Token.shortened) = _ := hread
  rw [steps_append] at hread
  cases hsteps : start.steps tokens with
  | ok reached => exact ⟨reached, rfl⟩
  | error e =>
    rw [hsteps] at hread
    cases hread

theorem viable_of_steps {tokens : List Token} {reached : ParseState} (h : start.steps tokens = .ok reached) :
    Viable tokens := exists_grammatical h

/-- **One more token begins an expression** exactly if it is read, whatever its digits. -/
theorem viable_append_iff {before : List Token} {reached : ParseState}
    (hshort : ∀ other ∈ before, ¬other.IsTooLong) (hsteps : start.steps before = .ok reached)
    (token : Token) :
    Viable (before ++ [token]) ↔ ∃ next, reached.step token.shortened = .ok next := by
  have hmap (rest : List Token) : (before ++ [token] ++ rest).map Token.shortened =
      before ++ token.shortened :: rest.map Token.shortened := by
    rw [List.map_append, List.map_append, Token.map_shortened hshort, List.append_assoc]
    rfl
  constructor
  · rintro ⟨rest, e, hderives⟩
    rw [hmap] at hderives
    obtain ⟨after, operand, hread, -⟩ := hderives.steps .start [] rfl
    replace hread : start.steps (before ++ token.shortened :: rest.map Token.shortened) = _ := hread
    rw [steps_append, hsteps] at hread
    replace hread : reached.steps (token.shortened :: rest.map Token.shortened) = _ := hread
    cases hstep : reached.step token.shortened with
    | ok next => exact ⟨next, rfl⟩
    | error e =>
      rw [steps, hstep] at hread
      cases hread
  · rintro ⟨next, hstep⟩
    have hread : start.steps (before ++ [token.shortened]) = .ok next := by
      rw [steps_append, hsteps]
      show reached.steps [token.shortened] = .ok next
      rw [steps, hstep]
      rfl
    obtain ⟨rest, e, hderives⟩ := exists_grammatical hread
    refine ⟨rest, e, ?_⟩
    rw [List.map_append, List.map_append, Token.map_shortened hshort, List.map_singleton,
      Token.shortened_shortened] at hderives
    rw [hmap]
    simpa using hderives

end ParseState

/-! ### The error of the parser -/

/-- What stops the parser at a token. -/
theorem ofTokens_of_step {before after : List Token} {token : Token} {reached : ParseState} {e : SyntaxError}
    (hsteps : ParseState.start.steps before = .ok reached) (hstep : reached.step token = .error e) :
    Expr.ofTokens (before ++ token :: after) = .error e := by
  have hfails : ParseState.start.steps (before ++ token :: after) = .error e := by
    rw [ParseState.steps_append, hsteps]
    show reached.steps (token :: after) = .error e
    rw [ParseState.steps, hstep]
  unfold Expr.ofTokens
  rw [if_neg (by simp), hfails]

/-- What stops the parser at the end. -/
theorem ofTokens_of_finish {tokens : List Token} {last : ParseState} (hne : tokens ≠ [])
    (hsteps : ParseState.start.steps tokens = .ok last) : Expr.ofTokens tokens = last.finish := by
  unfold Expr.ofTokens
  rw [if_neg hne, hsteps]

theorem Rejects.ofTokens_eq {tokens : List Token} {e : SyntaxError} (h : Rejects tokens e) :
    Expr.ofTokens tokens = .error e := by
  cases h with
  | empty hempty =>
    subst hempty
    rfl
  | @refused before after token htokens hshort hviable hunviable =>
    subst htokens
    obtain ⟨reached, hsteps⟩ := ParseState.steps_of_viable hshort hviable
    rw [ParseState.viable_append_iff hshort hsteps token] at hunviable
    have hoperand := ParseState.isSome_operand hsteps
    have hopened := ParseState.opened_eq_openings hsteps
    cases hstep : reached.step token with
    | error e =>
      rw [ofTokens_of_step hsteps hstep, ← hoperand, ← hopened]
      obtain ⟨hnone, text, digits, hlexeme, hvalue, -⟩ | ⟨-, hrefusal⟩ := ParseState.refusal_of_step hstep
      · obtain ⟨lexeme, pos⟩ := token
        obtain rfl : lexeme = .number text := hlexeme
        exact absurd ((ParseState.step_shortened hvalue).mpr hnone) hunviable
      · rw [hrefusal]
    | ok next =>
      rw [Token.shortened_eq_self (ParseState.not_isTooLong_of_step hstep), hstep] at hunviable
      exact absurd ⟨next, rfl⟩ hunviable
  | @numeralTooLong before after text pos htokens hshort hviable hlong =>
    subst htokens
    have hbefore : Viable before := by
      obtain ⟨rest, hgrammatical⟩ := hviable
      rw [List.append_assoc] at hgrammatical
      exact ⟨_, hgrammatical⟩
    obtain ⟨reached, hsteps⟩ := ParseState.steps_of_viable hshort hbefore
    have hvalue := Token.numberValue_of_isTooLong hlong
    have hoperand : reached.operand = none :=
      (ParseState.step_shortened hvalue).mp ((ParseState.viable_append_iff hshort hsteps _).mp hviable)
    refine ofTokens_of_step hsteps ?_
    obtain ⟨level, outer, operand⟩ := reached
    obtain rfl : operand = none := hoperand
    show ParseState.stepOperand level outer ⟨.number text, pos⟩ = _
    simp only [ParseState.stepOperand, hvalue]
  | unexpectedEnd hne hshort hviable hends =>
    obtain ⟨last, hsteps⟩ := ParseState.steps_of_viable hshort hviable
    rw [ofTokens_of_finish hne hsteps]
    have hoperand := (ParseState.isSome_operand hsteps).trans hends
    obtain ⟨level, outer, operand⟩ := last
    cases operand with
    | none => rfl
    | some operand => cases hoperand
  | @unclosed pos hshort hviable hends hopen =>
    have hne : tokens ≠ [] := by
      rintro rfl
      cases hends
    obtain ⟨last, hsteps⟩ := ParseState.steps_of_viable hshort hviable
    rw [ofTokens_of_finish hne hsteps]
    have hoperand := (ParseState.isSome_operand hsteps).trans hends
    rw [← ParseState.opened_eq_openings hsteps] at hopen
    obtain ⟨level, outer, operand⟩ := last
    cases operand with
    | none => cases hoperand
    | some operand =>
      cases outer with
      | nil => cases hopen
      | cons p outer =>
        obtain rfl : p.1 = pos := Option.some.inj hopen
        rfl

/-- **The error of a list of tokens is the one that the parser finds.** -/
theorem ofTokens_eq_error_iff {tokens : List Token} {e : SyntaxError} :
    Expr.ofTokens tokens = .error e ↔ Rejects tokens e := by
  refine ⟨fun h => ?_, Rejects.ofTokens_eq⟩
  obtain ⟨last, hsteps, -, hend⟩ | ⟨reached, token, hread, hnext, hstep⟩ := ofTokens_error_cases h
  · -- all tokens are read, and the end is too early
    obtain ⟨hempty, rfl⟩ | hfinish := hend
    · exact .empty hempty
    · have hshort := ParseState.not_isTooLong_of_steps hsteps
      have hviable := ParseState.viable_of_steps hsteps
      have hoperand := ParseState.isSome_operand hsteps
      have hopened := ParseState.opened_eq_openings hsteps
      by_cases hne : tokens = []
      · subst hne
        cases h
        exact .empty rfl
      · obtain ⟨level, outer, operand⟩ := last
        cases operand with
        | none =>
          cases hfinish
          exact .unexpectedEnd hne hshort hviable hoperand.symm
        | some operand =>
          cases outer with
          | nil => cases hfinish
          | cons p outer =>
            cases hfinish
            exact .unclosed hshort hviable hoperand.symm (hopened ▸ rfl)
  · -- a token is refused
    obtain ⟨hlt, htoken⟩ := List.getElem?_eq_some_iff.mp hnext
    have hshort := ParseState.not_isTooLong_of_steps hread
    have hiff := ParseState.viable_append_iff hshort hread token
    have htokens : tokens = tokens.take (ParseState.start.accepted tokens) ++
        token :: tokens.drop (ParseState.start.accepted tokens + 1) := by
      rw [← htoken, ← List.drop_eq_getElem_cons hlt, List.take_append_drop]
    obtain ⟨hnone, text, digits, hlexeme, hvalue, rfl⟩ | ⟨hunread, rfl⟩ := ParseState.refusal_of_step hstep
    · obtain ⟨lexeme, pos⟩ := token
      obtain rfl : lexeme = .number text := hlexeme
      have hlong := Token.isTooLong_of_numberValue hvalue pos
      rw [Token.length_of_numberValue hvalue]
      exact .numeralTooLong htokens hshort (hiff.mpr ((ParseState.step_shortened hvalue).mpr hnone)) hlong
    · rw [ParseState.isSome_operand hread, ParseState.opened_eq_openings hread]
      exact .refused htokens hshort (ParseState.viable_of_steps hread) fun h => hunread (hiff.mp h)

end DecisionFlow
