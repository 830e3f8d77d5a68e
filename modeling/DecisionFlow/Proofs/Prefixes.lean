import DecisionFlow.Proofs.Grammar

/-!
# Where parsing fails

The parser stops at the first token that no expression can have there: what it has read up to that
token can still be completed, and with the token it cannot.  This is the correct-prefix property.

* `Grammatical` — the lists of tokens of the grammar, whatever the digits of their numbers;
* `Token.openings` — the parentheses that are open after a list of tokens;
* `SyntaxError.Refuses`, `ParseState.moves_step` — what one token does to the open parentheses, or
  why it is refused;
* `ParseState.exists_completion` — every state can be completed: with an operand, where one is
  missing, and a closing parenthesis for each that is open;
* `ParseState.accepted` — how many tokens are read before the parser stops;
* `SyntaxError.Blames` — what an error says about the place where the parser stops;
* `ofTokensWithin_stops_at_first_unviable` — the place and the error of every list of tokens that is
  rejected.
-/

namespace DecisionFlow

/-! ### Tokens of the grammar -/

namespace Token

/-- An integer with more digits than can be converted. -/
def IsTooLong (token : Token) : Prop :=
  ∃ text, token.lexeme = .number text ∧ '.' ∉ (Literal.splitSign text.toList).2 ∧
    Numeral.maxDigits < (Literal.splitSign text.toList).2.length

/-- A token with a number of one digit in place of a number that has no value. -/
def shortened (token : Token) : Token :=
  match token.lexeme with
  | .number text =>
    match Literal.numberValue text with
    | .ok _ => token
    | .error _ => { token with lexeme := .number "0" }
  | _ => token

/-- Only an integer with too many digits has no value. -/
theorem isTooLong_of_numberValue {text : String} {digits : Nat}
    (h : Literal.numberValue text = .error digits) (pos : Nat) : IsTooLong ⟨.number text, pos⟩ := by
  refine ⟨text, rfl, ?_⟩
  unfold Literal.numberValue at h
  generalize Literal.splitSign text.toList = signed at h ⊢
  obtain ⟨negative, cs⟩ := signed
  by_cases hpoint : '.' ∈ cs
  · simp [hpoint] at h
  · have hwhole : (cs.takeWhile (· ≠ '.')).length ≤ cs.length :=
      (List.takeWhile_sublist _).length_le
    refine ⟨hpoint, Nat.lt_of_lt_of_le (Nat.lt_of_not_le ?_) hwhole⟩
    intro hshort
    simp only [List.contains_eq_mem, hpoint, decide_false] at h
    rw [if_neg Bool.false_ne_true, if_neg (Nat.not_lt.mpr hshort)] at h
    cases h

theorem shortened_eq_self {token : Token} (h : ¬token.IsTooLong) : token.shortened = token := by
  obtain ⟨lexeme, pos⟩ := token
  cases lexeme with
  | number text =>
    cases hvalue : Literal.numberValue text with
    | ok n => simp only [shortened, hvalue]
    | error digits => exact absurd (isTooLong_of_numberValue hvalue pos) h
  | _ => rfl

theorem map_shortened {tokens : List Token} (h : ∀ token ∈ tokens, ¬token.IsTooLong) :
    tokens.map shortened = tokens := by
  rw [List.map_congr_left fun token htoken => shortened_eq_self (h token htoken)]
  exact List.map_id' tokens

end Token

/-- A list of tokens derives from the grammar.  How many digits a number has is nothing to the grammar:
a number without a value stands wherever any other number does. -/
def Grammatical (tokens : List Token) : Prop :=
  ∃ e, Derives .disjunction (tokens.map Token.shortened) e

/-- In a derivation every number has a value. -/
theorem Derives.map_shortened {category : Category} {tokens : List Token} {e : Expr}
    (h : Derives category tokens e) : tokens.map Token.shortened = tokens := by
  induction h with
  | number pos hvalue => simp [Token.shortened, hvalue]
  | _ => simp_all [Token.shortened]

theorem Derives.grammatical {tokens : List Token} {e : Expr} (h : Derives .disjunction tokens e) :
    Grammatical tokens := by
  have hsame := h.map_shortened
  exact ⟨e, hsame.symm ▸ h⟩

/-! ### One token -/

namespace Token

/-- What a token does to the parentheses that are open, given by their positions from the inside
out. -/
def reopen (opened : List Nat) (token : Token) : List Nat :=
  match token.lexeme with
  | .symbol .opening => token.pos :: opened
  | .symbol .closing => opened.tail
  | _ => opened

/-- The positions of the parentheses that are open after a list of tokens, from the inside out. -/
def openings (tokens : List Token) : List Nat := tokens.foldl reopen []

end Token

/-- `e.Refuses opened token`: the error is one for a token that cannot stand where the given parentheses
are open. -/
def SyntaxError.Refuses (opened : List Nat) (token : Token) : SyntaxError → Prop
  | unexpectedToken found | chainedComparison found => found = token
  | missingClosing pos => opened.head? = some pos
  | numeralTooLong _ _ => token.IsTooLong
  | unexpectedCharacter _ | empty | unexpectedEnd => False

namespace ParseState

/-- The positions of the parentheses that are open in a state, from the inside out. -/
def opened (state : ParseState) : List Nat := state.outer.map Prod.fst

/-- What an outcome of one token says where the given parentheses are open: which of them are open
after it, or why it is refused. -/
def Moves (opened : List Nat) (token : Token) : Except SyntaxError ParseState → Prop
  | .ok next => next.opened = token.reopen opened
  | .error e => e.Refuses opened token

theorem unclosed_refuses (outer : List (Nat × Level)) (token : Token) :
    (unclosed outer token).Refuses (outer.map Prod.fst) token := by
  cases outer <;> rfl

theorem moves_stepOperand (level : Level) (outer : List (Nat × Level)) (token : Token) :
    Moves (outer.map Prod.fst) token (stepOperand level outer token) := by
  obtain ⟨lexeme, pos⟩ := token
  cases lexeme with
  | number text =>
    simp only [stepOperand]
    cases hvalue : Literal.numberValue text with
    | ok n => rfl
    | error digits => exact Token.isTooLong_of_numberValue hvalue pos
  | string text => rfl
  | name text => rfl
  | symbol s => cases s <;> rfl

theorem moves_stepOperator (level : Level) (outer : List (Nat × Level)) (operand : Expr)
    (token : Token) : Moves (outer.map Prod.fst) token (stepOperator level outer operand token) := by
  obtain ⟨lexeme, pos⟩ := token
  cases lexeme with
  | symbol s =>
    cases s with
    | comparison op =>
      simp only [stepOperator]
      cases level.compared <;> rfl
    | connective op => cases op <;> rfl
    | closing => cases outer <;> rfl
    | not => exact unclosed_refuses outer _
    | opening => exact unclosed_refuses outer _
  | number text => exact unclosed_refuses outer _
  | string text => exact unclosed_refuses outer _
  | name text => exact unclosed_refuses outer _

/-- **One token** opens and closes parentheses as it says, or is refused for itself or for the
innermost parenthesis that is open. -/
theorem moves_step (state : ParseState) (token : Token) :
    Moves state.opened token (state.step token) := by
  obtain ⟨level, outer, operand⟩ := state
  cases operand with
  | none => exact moves_stepOperand level outer token
  | some operand => exact moves_stepOperator level outer operand token

/-- **Several tokens**: the parentheses that are open are those that the tokens leave open. -/
theorem opened_steps {state reached : ParseState} {tokens : List Token}
    (h : state.steps tokens = .ok reached) :
    reached.opened = tokens.foldl Token.reopen state.opened := by
  induction tokens generalizing state with
  | nil =>
    cases h
    rfl
  | cons token rest ih =>
    have hmoves := state.moves_step token
    rw [steps] at h
    cases hstep : state.step token with
    | error e =>
      rw [hstep] at h
      cases h
    | ok next =>
      rw [hstep] at h hmoves
      have hnext : next.opened = token.reopen state.opened := hmoves
      rw [ih h, hnext]
      rfl

theorem opened_eq_openings {reached : ParseState} {tokens : List Token}
    (h : start.steps tokens = .ok reached) : reached.opened = Token.openings tokens :=
  opened_steps h

/-! ### Completing what has been read -/

/-- After an operand, closing parentheses complete the expression, one for each that is open. -/
theorem exists_closing (level : Level) (outer : List (Nat × Level)) (operand : Expr) :
    ∃ rest last e, steps ⟨level, outer, some operand⟩ rest = .ok last ∧ last.finish = .ok e := by
  induction outer generalizing level operand with
  | nil => exact ⟨[], _, _, rfl, rfl⟩
  | cons p outer ih =>
    obtain ⟨pos, around⟩ := p
    obtain ⟨rest, last, e, hsteps, hfinish⟩ := ih { around with negations := 0 }
      ((level.close operand).negate around.negations)
    refine ⟨⟨.symbol .closing, 0⟩ :: rest, last, e, ?_, hfinish⟩
    show steps (withOperand around outer (level.close operand)) rest = .ok last
    exact hsteps

/-- **Every state can be completed.** -/
theorem exists_completion (state : ParseState) :
    ∃ rest last e, state.steps rest = .ok last ∧ last.finish = .ok e := by
  obtain ⟨level, outer, operand⟩ := state
  cases operand with
  | some operand => exact exists_closing level outer operand
  | none =>
    obtain ⟨rest, last, e, hsteps, hfinish⟩ := exists_closing { level with negations := 0 } outer
      ((Expr.reference "a").negate level.negations)
    refine ⟨⟨.name "a", 0⟩ :: rest, last, e, ?_, hfinish⟩
    show steps (withOperand level outer (.reference "a")) rest = .ok last
    exact hsteps

/-- What has been read begins an expression. -/
theorem exists_grammatical {reached : ParseState} {tokens : List Token}
    (h : start.steps tokens = .ok reached) : ∃ rest, Grammatical (tokens ++ rest) := by
  obtain ⟨rest, last, e, hrest, hfinish⟩ := reached.exists_completion
  have hreads := (reads_start.steps h).steps hrest
  exact ⟨rest, (hreads.finish hfinish).grammatical⟩

/-- What is refused begins no expression. -/
theorem not_grammatical {reached : ParseState} {tokens : List Token} {token : Token} {e : SyntaxError}
    (hshort : ∀ other ∈ tokens ++ [token], ¬other.IsTooLong)
    (hsteps : start.steps tokens = .ok reached) (hstep : reached.step token = .error e)
    (rest : List Token) : ¬Grammatical (tokens ++ [token] ++ rest) := by
  intro hgrammatical
  obtain ⟨e', hderives⟩ := hgrammatical
  rw [List.map_append, Token.map_shortened hshort, List.append_assoc] at hderives
  -- the parser reads every derivation, and so it would read the token
  obtain ⟨after, operand, hread, -⟩ := hderives.steps .start [] rfl
  have hfails : start.steps (tokens ++ ([token] ++ rest.map Token.shortened)) = .error e := by
    rw [steps_append, hsteps]
    show reached.steps (token :: rest.map Token.shortened) = .error e
    rw [steps, hstep]
  cases hfails.symm.trans hread

/-! ### Where the parser stops -/

/-- How many of the tokens are read, one after the other, before one is refused. -/
def accepted (state : ParseState) : List Token → Nat
  | [] => 0
  | token :: rest =>
    match state.step token with
    | .ok next => next.accepted rest + 1
    | .error _ => 0

/-- **The tokens are all read**, or they are read up to one that is refused. -/
theorem accepted_cases (state : ParseState) (tokens : List Token) :
    (∃ last, state.steps tokens = .ok last ∧ state.accepted tokens = tokens.length) ∨
    (∃ reached token e, state.steps tokens = .error e ∧
      state.steps (tokens.take (state.accepted tokens)) = .ok reached ∧
      tokens[state.accepted tokens]? = some token ∧ reached.step token = .error e) := by
  induction tokens generalizing state with
  | nil => exact .inl ⟨state, rfl, rfl⟩
  | cons token rest ih =>
    cases hstep : state.step token with
    | error e =>
      right
      have hnone : state.accepted (token :: rest) = 0 := by rw [accepted, hstep]
      refine ⟨state, token, e, by rw [steps, hstep], ?_, ?_, hstep⟩
      · rw [hnone]
        rfl
      · rw [hnone]
        rfl
    | ok next =>
      have hone : state.accepted (token :: rest) = next.accepted rest + 1 := by rw [accepted, hstep]
      have hsteps (tokens : List Token) : state.steps (token :: tokens) = next.steps tokens := by
        rw [steps, hstep]
      rw [hone, hsteps, List.take_succ_cons, hsteps, List.getElem?_cons_succ]
      obtain ⟨last, hlast, hall⟩ | hrefused := ih next
      · exact .inl ⟨last, hlast, congrArg (· + 1) hall⟩
      · exact .inr hrefused

end ParseState

/-- `e.Blames tokens k`: the error is one for stopping after so many of the tokens.  It says that the
tokens have come to an end, or names the token that comes next, or the innermost parenthesis that is
open. -/
def SyntaxError.Blames (tokens : List Token) (k : Nat) : SyntaxError → Prop
  | empty => tokens = []
  | unexpectedEnd => k = tokens.length
  | unexpectedToken token | chainedComparison token => tokens[k]? = some token
  | missingClosing pos => (Token.openings (tokens.take k)).head? = some pos
  | unexpectedCharacter _ | numeralTooLong _ _ => False

namespace SyntaxError

/-- What refuses a token blames it. -/
theorem Refuses.blames {e : SyntaxError} {tokens : List Token} {token : Token} {k : Nat}
    (h : e.Refuses (Token.openings (tokens.take k)) token) (hnext : tokens[k]? = some token)
    (hshort : ¬token.IsTooLong) : e.Blames tokens k := by
  cases e with
  | unexpectedToken found =>
    obtain rfl : found = token := h
    exact hnext
  | chainedComparison found =>
    obtain rfl : found = token := h
    exact hnext
  | missingClosing pos => exact h
  | numeralTooLong pos digits => exact absurd h hshort
  | unexpectedCharacter c => exact h.elim
  | empty => exact h.elim
  | unexpectedEnd => exact h.elim

/-- So does what is missing at the end. -/
theorem blames_of_finish {last : ParseState} {tokens : List Token} {e : SyntaxError}
    (hsteps : ParseState.start.steps tokens = .ok last) (hfinish : last.finish = .error e) :
    e.Blames tokens tokens.length := by
  have hopened := ParseState.opened_eq_openings hsteps
  obtain ⟨level, outer, operand⟩ := last
  cases operand with
  | none =>
    cases hfinish
    rfl
  | some operand =>
    cases outer with
    | nil => cases hfinish
    | cons p outer =>
      cases hfinish
      show (Token.openings (tokens.take tokens.length)).head? = some p.1
      rw [List.take_length, ← hopened]
      rfl

end SyntaxError

/-- A rejected list of tokens stops the parser without a limit, at the end or at a token. -/
theorem ofTokens_error_cases {tokens : List Token} {e : SyntaxError}
    (h : Expr.ofTokens tokens = .error e) :
    (∃ last, ParseState.start.steps tokens = .ok last ∧
      ParseState.start.accepted tokens = tokens.length ∧
      (tokens = [] ∧ e = .empty ∨ last.finish = .error e)) ∨
    (∃ reached token,
      ParseState.start.steps (tokens.take (ParseState.start.accepted tokens)) = .ok reached ∧
      tokens[ParseState.start.accepted tokens]? = some token ∧ reached.step token = .error e) := by
  unfold Expr.ofTokens at h
  by_cases hempty : tokens = []
  · subst hempty
    rw [if_pos rfl] at h
    cases h
    exact .inl ⟨_, rfl, rfl, .inl ⟨rfl, rfl⟩⟩
  · rw [if_neg hempty] at h
    obtain ⟨last, hlast, hall⟩ | ⟨reached, token, e', hsteps, hread, hnext, hstep⟩ :=
      ParseState.start.accepted_cases tokens
    · rw [hlast] at h
      exact .inl ⟨last, hlast, hall, .inr h⟩
    · rw [hsteps] at h
      obtain rfl : e' = e := Except.error.inj h
      exact .inr ⟨reached, token, hread, hnext, hstep⟩

/-- **The parser stops at the first token that cannot stand where it stands.**  What it has read of a
list of tokens that it rejects begins an expression, and together with the next token, if there is one,
it begins none.  The error tells just that place. -/
theorem ofTokensWithin_stops_at_first_unviable {depth : Nat} {tokens : List Token} {e : SyntaxError}
    (hrejected : Expr.ofTokensWithin depth tokens = .error (.because e))
    (hshort : ∀ token ∈ tokens, ¬token.IsTooLong) :
    let k := ParseState.start.accepted tokens
    (∃ rest, Grammatical (tokens.take k ++ rest)) ∧
    (k < tokens.length → ∀ rest, ¬Grammatical (tokens.take (k + 1) ++ rest)) ∧
    e.Blames tokens k := by
  intro k
  rw [Expr.ofTokensWithin_eq] at hrejected
  obtain ⟨last, hlast, hall, hend⟩ | ⟨reached, token, hread, hnext, hstep⟩ :=
    ofTokens_error_cases (Bounded.eq_error_of_within hrejected)
  · -- all tokens are read, and the end is too early
    have hk : k = tokens.length := hall
    rw [hk]
    refine ⟨?_, fun hlt => absurd hlt (Nat.lt_irrefl _), ?_⟩
    · rw [List.take_length]
      exact ParseState.exists_grammatical hlast
    · obtain ⟨hempty, rfl⟩ | hfinish := hend
      · exact hempty
      · exact SyntaxError.blames_of_finish hlast hfinish
  · -- the next token is refused
    have htake : tokens.take (k + 1) = tokens.take k ++ [token] := by
      rw [List.take_add_one, hnext]
      rfl
    have hmoves := reached.moves_step token
    rw [hstep, ParseState.opened_eq_openings hread] at hmoves
    refine ⟨ParseState.exists_grammatical hread, fun _ rest => ?_, ?_⟩
    · rw [htake]
      apply ParseState.not_grammatical _ hread hstep
      intro other hother
      exact hshort other (List.mem_of_mem_take (htake.symm ▸ hother))
    · exact SyntaxError.Refuses.blames hmoves hnext (hshort token (List.mem_of_getElem? hnext))

/-- In `(a && (b c` the inner parenthesis is to blame, and in `(a < b < c)` the second comparison. -/
theorem ofTokensWithin_stops_at_first_unviable_nested :
    let unclosed : List Token := [⟨.symbol .opening, 0⟩, ⟨.name "a", 1⟩,
      ⟨.symbol (.connective .and), 3⟩, ⟨.symbol .opening, 6⟩, ⟨.name "b", 7⟩, ⟨.name "c", 9⟩]
    let chained : List Token := [⟨.symbol .opening, 0⟩, ⟨.name "a", 1⟩,
      ⟨.symbol (.comparison .lt), 3⟩, ⟨.name "b", 5⟩, ⟨.symbol (.comparison .lt), 7⟩, ⟨.name "c", 9⟩,
      ⟨.symbol .closing, 10⟩]
    Expr.ofTokensWithin Depth.standard unclosed = .error (.because (.missingClosing 6)) ∧
    (∀ token ∈ unclosed, ¬token.IsTooLong) ∧
    (∃ rest, Grammatical (unclosed.take 5 ++ rest)) ∧ (∀ rest, ¬Grammatical (unclosed ++ rest)) ∧
    Expr.ofTokensWithin Depth.standard chained =
      .error (.because (.chainedComparison ⟨.symbol (.comparison .lt), 7⟩)) ∧
    (∀ token ∈ chained, ¬token.IsTooLong) ∧
    (∃ rest, Grammatical (chained.take 4 ++ rest)) ∧
    (∀ rest, ¬Grammatical (chained.take 5 ++ rest)) := by
  intro unclosed chained
  have hunclosed : Expr.ofTokensWithin Depth.standard unclosed =
      .error (.because (.missingClosing 6)) := by rfl
  have hchained : Expr.ofTokensWithin Depth.standard chained =
      .error (.because (.chainedComparison ⟨.symbol (.comparison .lt), 7⟩)) := by rfl
  have hshort : ∀ token ∈ unclosed, ¬token.IsTooLong := by simp [unclosed, Token.IsTooLong]
  have hshort' : ∀ token ∈ chained, ¬token.IsTooLong := by simp [chained, Token.IsTooLong]
  obtain ⟨hviable, hunviable, -⟩ := ofTokensWithin_stops_at_first_unviable hunclosed hshort
  obtain ⟨hviable', hunviable', -⟩ := ofTokensWithin_stops_at_first_unviable hchained hshort'
  exact ⟨hunclosed, hshort, hviable, hunviable (by decide), hchained, hshort', hviable',
    hunviable' (by decide)⟩

end DecisionFlow
