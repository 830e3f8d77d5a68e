import DecisionFlow.Proofs.Reach

/-!
# The grammar of conditions

The parser works token by token on a state.  This module says what it is meant to accept, without
any state: the five categories of the grammar

    disjunction := conjunction ( "||" conjunction )*
    conjunction := comparison ( "&&" comparison )*
    comparison  := unary ( ("==" | "!=" | "<" | "<=" | ">" | ">=") unary )?
    unary       := "!" unary | primary
    primary     := NUMBER | STRING | "true" | "false" | NAME | "(" disjunction ")"

as one inductive relation between a category, a list of tokens and the expression that the
derivation prescribes, and proves that the parser and the grammar agree.

* `Derives` — the grammar, with the expression of each derivation;
* `ParseState.Reads` — the invariant: a state has been read from a list of tokens;
* `Reads.step`, `Reads.steps` — one token, and a whole list, preserve it;
* `ofTokens_sound`, `ofTokens_complete` — what the parser returns is derivable, and what is
  derivable is returned.
-/

namespace DecisionFlow

/-! ### The grammar -/

/-- The categories of the grammar, from the loosest to the tightest. -/
inductive Category where
  /-- Conjunctions joined by `||`. -/
  | disjunction
  /-- Comparisons joined by `&&`. -/
  | conjunction
  /-- Two operands with a comparison between them, or one operand. -/
  | comparison
  /-- An operand with its negations. -/
  | unary
  /-- A literal, a variable or a parenthesis. -/
  | primary
deriving DecidableEq, Repr

/-- `Derives category tokens e`: the tokens derive from the category, and the expression of the
derivation is `e`.  The repetitions of the two connectives are read from the left.  A number token
derives nothing when it has no value, as an integer with too many digits. -/
inductive Derives : Category → List Token → Expr → Prop where
  | or {ls rs : List Token} {l r : Expr} (pos : Nat) :
      Derives .disjunction ls l → Derives .conjunction rs r →
      Derives .disjunction (ls ++ ⟨.symbol (.connective .or), pos⟩ :: rs) (.logical .or l r)
  | ofConjunction {ts : List Token} {e : Expr} :
      Derives .conjunction ts e → Derives .disjunction ts e
  | and {ls rs : List Token} {l r : Expr} (pos : Nat) :
      Derives .conjunction ls l → Derives .comparison rs r →
      Derives .conjunction (ls ++ ⟨.symbol (.connective .and), pos⟩ :: rs) (.logical .and l r)
  | ofComparison {ts : List Token} {e : Expr} :
      Derives .comparison ts e → Derives .conjunction ts e
  | compare {ls rs : List Token} {l r : Expr} (op : Comparison) (pos : Nat) :
      Derives .unary ls l → Derives .unary rs r →
      Derives .comparison (ls ++ ⟨.symbol (.comparison op), pos⟩ :: rs) (.compare op l r)
  | ofUnary {ts : List Token} {e : Expr} :
      Derives .unary ts e → Derives .comparison ts e
  | not {ts : List Token} {e : Expr} (pos : Nat) :
      Derives .unary ts e → Derives .unary (⟨.symbol .not, pos⟩ :: ts) (.negation e)
  | ofPrimary {ts : List Token} {e : Expr} :
      Derives .primary ts e → Derives .unary ts e
  | number {text : String} {n : Number} (pos : Nat) :
      Literal.numberValue text = .ok n →
      Derives .primary [⟨.number text, pos⟩] (.literal (.number n))
  | string {text : String} (pos : Nat) :
      Derives .primary [⟨.string text, pos⟩] (.literal (.string (Literal.stringValue text)))
  | true (pos : Nat) : Derives .primary [⟨.name "true", pos⟩] (.literal (.boolean true))
  | false (pos : Nat) : Derives .primary [⟨.name "false", pos⟩] (.literal (.boolean false))
  | name {text : String} (pos : Nat) :
      text ≠ "true" → text ≠ "false" → Derives .primary [⟨.name text, pos⟩] (.reference text)
  | parenthesis {ts : List Token} {e : Expr} (pos pos' : Nat) :
      Derives .disjunction ts e →
      Derives .primary (⟨.symbol .opening, pos⟩ :: (ts ++ [⟨.symbol .closing, pos'⟩])) e

/-- A name token derives the expression that the name stands for. -/
theorem Derives.ofName (text : String) (pos : Nat) :
    Derives .primary [⟨.name text, pos⟩] (Literal.nameExpr text) := by
  unfold Literal.nameExpr
  split
  · rename_i h
    subst h
    exact .true pos
  · rename_i htrue
    split
    · rename_i h
      subst h
      exact .false pos
    · rename_i hfalse
      exact .name pos htrue hfalse

/-! ### What a state has been read from -/

/-- What stands to the left of a connective, with the connective: nothing, or an operand of the
category. -/
inductive LeftOf (category : Category) (op : Connective) : Option Expr → List Token → Prop where
  | nothing : LeftOf category op none []
  | operand {ts : List Token} {e : Expr} (pos : Nat) :
      Derives category ts e →
      LeftOf category op (some e) (ts ++ [⟨.symbol (.connective op), pos⟩])

/-- What stands to the left of a comparison, with its operator. -/
inductive LeftOfComparison : Option (Expr × Comparison) → List Token → Prop where
  | nothing : LeftOfComparison none []
  | operand {ts : List Token} {e : Expr} (op : Comparison) (pos : Nat) :
      Derives .unary ts e →
      LeftOfComparison (some (e, op)) (ts ++ [⟨.symbol (.comparison op), pos⟩])

/-- A number of negations in a row. -/
inductive Negations : Nat → List Token → Prop where
  | zero : Negations 0 []
  | succ {n : Nat} {ts : List Token} (pos : Nat) :
      Negations n ts → Negations (n + 1) (ts ++ [⟨.symbol .not, pos⟩])

/-- A level has been read from a list of tokens: its disjuncts, its conjuncts, the left side of its
comparison and its negations, in this order. -/
inductive Level.Reads : Level → List Token → Prop where
  | parts {disjuncts conjuncts : Option Expr} {compared : Option (Expr × Comparison)}
      {negations : Nat} {ds cs ls ns : List Token} :
      LeftOf .disjunction .or disjuncts ds → LeftOf .conjunction .and conjuncts cs →
      LeftOfComparison compared ls → Negations negations ns →
      Level.Reads ⟨disjuncts, conjuncts, compared, negations⟩ (ds ++ (cs ++ (ls ++ ns)))

/-- The levels around the innermost one have been read, each with the parenthesis opened in it. -/
inductive ReadsAround : List (Nat × Level) → List Token → Prop where
  | nil : ReadsAround [] []
  | cons {outer : List (Nat × Level)} {us vs : List Token} {level : Level} (pos : Nat) :
      ReadsAround outer us → level.Reads vs →
      ReadsAround ((pos, level) :: outer) (us ++ (vs ++ [⟨.symbol .opening, pos⟩]))

/-- A state has been read from a list of tokens: the levels around, the innermost level and, if it is
there, the operand with its negations. -/
inductive ParseState.Reads : ParseState → List Token → Prop where
  | awaiting {level : Level} {outer : List (Nat × Level)} {us vs : List Token} :
      ReadsAround outer us → level.Reads vs → ParseState.Reads ⟨level, outer, none⟩ (us ++ vs)
  | after {level : Level} {outer : List (Nat × Level)} {us vs ws : List Token} {e : Expr} :
      ReadsAround outer us → level.Reads vs → level.negations = 0 → Derives .unary ws e →
      ParseState.Reads ⟨level, outer, some e⟩ (us ++ (vs ++ ws))

theorem Level.reads_start : Level.start.Reads [] :=
  .parts .nothing .nothing .nothing .zero

theorem ParseState.reads_start : ParseState.start.Reads [] :=
  .awaiting .nil Level.reads_start

/-! ### Soundness: one token preserves the invariant -/

theorem negate_negation (n : Nat) (e : Expr) :
    (Expr.negation e).negate n = .negation (e.negate n) := by
  induction n with
  | zero => rfl
  | succ n ih => rw [Expr.negate, ih, Expr.negate]

/-- Negations in front of an operand make an operand. -/
theorem Negations.derives {n : Nat} {ns ws : List Token} {e : Expr} (h : Negations n ns)
    (he : Derives .unary ws e) : Derives .unary (ns ++ ws) (e.negate n) := by
  induction h generalizing ws e with
  | zero => exact he
  | succ pos _ ih =>
    rw [Expr.negate, ← negate_negation, List.append_assoc]
    exact ih (.not _ he)

/-- The last conjunct of a level is a comparison. -/
theorem Level.derives_conjunct {level : Level} {ls ws : List Token} {e : Expr}
    (hls : LeftOfComparison level.compared ls) (he : Derives .unary ws e) :
    Derives .comparison (ls ++ ws) (level.conjunct e) := by
  obtain ⟨disjuncts, conjuncts, compared, negations⟩ := level
  cases hls with
  | nothing => exact .ofUnary he
  | operand op pos hl =>
    rw [List.append_assoc]
    exact .compare op pos hl he

/-- The last disjunct of a level is a conjunction. -/
theorem Level.derives_disjunct {level : Level} {cs ls ws : List Token} {e : Expr}
    (hcs : LeftOf .conjunction .and level.conjuncts cs)
    (hls : LeftOfComparison level.compared ls) (he : Derives .unary ws e) :
    Derives .conjunction (cs ++ (ls ++ ws)) (level.disjunct e) := by
  have hcomparison := Level.derives_conjunct hls he
  obtain ⟨disjuncts, conjuncts, compared, negations⟩ := level
  cases hcs with
  | nothing => exact .ofComparison hcomparison
  | operand pos hl =>
    rw [List.append_assoc]
    exact .and pos hl hcomparison

/-- A whole level is a disjunction. -/
theorem Level.Reads.derives_close {level : Level} {vs ws : List Token} {e : Expr}
    (h : level.Reads vs) (hneg : level.negations = 0) (he : Derives .unary ws e) :
    Derives .disjunction (vs ++ ws) (level.close e) := by
  cases h with
  | @parts disjuncts conjuncts compared negations ds cs ls ns hds hcs hls hns =>
    obtain rfl : negations = 0 := hneg
    cases hns
    have hconjunction : Derives .conjunction (cs ++ (ls ++ ws))
        (Level.disjunct ⟨disjuncts, conjuncts, compared, 0⟩ e) :=
      Level.derives_disjunct hcs hls he
    simp only [List.append_nil, List.append_assoc]
    cases hds with
    | nothing => exact .ofConjunction hconjunction
    | operand pos hl =>
      rw [List.append_assoc]
      exact .or pos hl hconjunction

/-- An operand read in a level carries the level's negations with it. -/
theorem Level.Reads.withOperand {level : Level} {outer : List (Nat × Level)}
    {us vs ws : List Token} {e : Expr} (hus : ReadsAround outer us) (hvs : level.Reads vs)
    (he : Derives .primary ws e) :
    (ParseState.withOperand level outer e).Reads (us ++ (vs ++ ws)) := by
  cases hvs with
  | @parts disjuncts conjuncts compared negations ds cs ls ns hds hcs hls hns =>
    have hoperand := hns.derives (Derives.ofPrimary he)
    have hlevel : Level.Reads ⟨disjuncts, conjuncts, compared, 0⟩ (ds ++ (cs ++ (ls ++ []))) :=
      .parts hds hcs hls .zero
    have hstate := ParseState.Reads.after hus hlevel rfl hoperand
    simpa [ParseState.withOperand] using hstate

theorem ParseState.Reads.stepOperand {level : Level} {outer : List (Nat × Level)}
    {us vs : List Token} {token : Token} {next : ParseState} (hus : ReadsAround outer us)
    (hvs : level.Reads vs) (h : ParseState.stepOperand level outer token = .ok next) :
    next.Reads (us ++ (vs ++ [token])) := by
  obtain ⟨lexeme, pos⟩ := token
  unfold ParseState.stepOperand at h
  split at h
  · rename_i text hlexeme
    subst hlexeme
    split at h
    · rename_i n hvalue
      cases h
      exact hvs.withOperand hus (.number pos hvalue)
    · cases h
  · rename_i text hlexeme
    subst hlexeme
    cases h
    exact hvs.withOperand hus (.string pos)
  · rename_i text hlexeme
    subst hlexeme
    cases h
    exact hvs.withOperand hus (.ofName text pos)
  · rename_i hlexeme
    subst hlexeme
    cases h
    cases hvs with
    | parts hds hcs hls hns =>
      have hlevel := Level.Reads.parts hds hcs hls (hns.succ pos)
      simpa using ParseState.Reads.awaiting hus hlevel
  · rename_i hlexeme
    subst hlexeme
    cases h
    have hstate := ParseState.Reads.awaiting (hus.cons pos hvs) Level.reads_start
    simpa using hstate
  · cases h

theorem ParseState.Reads.stepOperator {level : Level} {outer : List (Nat × Level)}
    {us vs ws : List Token} {operand : Expr} {token : Token} {next : ParseState}
    (hus : ReadsAround outer us) (hvs : level.Reads vs) (hneg : level.negations = 0)
    (hws : Derives .unary ws operand)
    (h : ParseState.stepOperator level outer operand token = .ok next) :
    next.Reads (us ++ (vs ++ (ws ++ [token]))) := by
  obtain ⟨lexeme, pos⟩ := token
  have hclose := hvs.derives_close hneg hws
  unfold ParseState.stepOperator at h
  split at h
  · rename_i op hlexeme
    subst hlexeme
    split at h
    · rename_i hcompared
      cases h
      cases hvs with
      | @parts disjuncts conjuncts compared negations ds cs ls ns hds hcs hls hns =>
        obtain rfl : compared = none := hcompared
        obtain rfl : negations = 0 := hneg
        cases hls
        cases hns
        have hlevel := Level.Reads.parts hds hcs (.operand op pos hws) .zero
        simpa using ParseState.Reads.awaiting hus hlevel
    · cases h
  · rename_i hlexeme
    subst hlexeme
    cases h
    cases hvs with
    | @parts disjuncts conjuncts compared negations ds cs ls ns hds hcs hls hns =>
      obtain rfl : negations = 0 := hneg
      cases hns
      have hdisjunct : Derives .conjunction (cs ++ (ls ++ ws))
          (Level.disjunct ⟨disjuncts, conjuncts, compared, 0⟩ operand) :=
        Level.derives_disjunct hcs hls hws
      have hlevel := Level.Reads.parts hds (.operand pos hdisjunct) .nothing .zero
      simpa using ParseState.Reads.awaiting hus hlevel
  · rename_i hlexeme
    subst hlexeme
    cases h
    have hlevel : Level.Reads ⟨some (level.close operand), none, none, 0⟩
        ((vs ++ ws ++ [⟨.symbol (.connective .or), pos⟩]) ++ ([] ++ ([] ++ []))) :=
      .parts (.operand pos hclose) .nothing .nothing .zero
    simpa using ParseState.Reads.awaiting hus hlevel
  · rename_i hlexeme
    subst hlexeme
    split at h
    · rename_i pos' around outer
      cases h
      cases hus with
      | cons _ hus haround =>
        have hstate := haround.withOperand hus (.parenthesis pos' pos hclose)
        simpa using hstate
    · cases h
  · cases h

/-- **One token preserves the invariant.** -/
theorem ParseState.Reads.step {state next : ParseState} {ts : List Token} {token : Token}
    (hreads : state.Reads ts) (h : state.step token = .ok next) : next.Reads (ts ++ [token]) := by
  cases hreads with
  | awaiting hus hvs =>
    have hnext := ParseState.Reads.stepOperand hus hvs h
    simpa using hnext
  | after hus hvs hneg hws =>
    have hnext := ParseState.Reads.stepOperator hus hvs hneg hws h
    simpa using hnext

/-- **A run over a list of tokens preserves the invariant.** -/
theorem ParseState.Reads.steps {state last : ParseState} {ts us : List Token}
    (hreads : state.Reads ts) (h : state.steps us = .ok last) : last.Reads (ts ++ us) := by
  induction us generalizing state ts with
  | nil =>
    cases h
    simpa using hreads
  | cons token rest ih =>
    simp only [ParseState.steps] at h
    split at h
    · rename_i next hstep
      have hlast := ih (hreads.step hstep) h
      simpa using hlast
    · cases h

/-- A state that may end has been read from a disjunction. -/
theorem ParseState.Reads.finish {state : ParseState} {ts : List Token} {e : Expr}
    (hreads : state.Reads ts) (h : state.finish = .ok e) : Derives .disjunction ts e := by
  cases hreads with
  | awaiting hus hvs => cases h
  | after hus hvs hneg hws =>
    cases hus with
    | nil =>
      cases h
      exact hvs.derives_close hneg hws
    | cons pos hus haround => cases h

/-- **The parser is sound.** The expression that it returns is that of a derivation of the tokens. -/
theorem ofTokens_sound {tokens : List Token} {e : Expr} (h : Expr.ofTokens tokens = .ok e) :
    Derives .disjunction tokens e := by
  unfold Expr.ofTokens at h
  split at h
  · cases h
  · split at h
    · rename_i state hsteps
      have hreads := ParseState.reads_start.steps hsteps
      exact hreads.finish h
    · cases h

/-! ### Completeness: reading a derivation -/

theorem ParseState.steps_append (state : ParseState) (ts us : List Token) :
    state.steps (ts ++ us) = (state.steps ts).bind fun next => next.steps us := by
  induction ts generalizing state with
  | nil => rfl
  | cons token rest ih =>
    simp only [List.cons_append, ParseState.steps]
    cases state.step token with
    | error e => rfl
    | ok next => exact ih next

/-- A list of tokens, one more token, and a list after it. -/
theorem ParseState.steps_append_cons {state middle next : ParseState} {ts us : List Token}
    {token : Token} (hts : state.steps ts = .ok middle) (htoken : middle.step token = .ok next) :
    state.steps (ts ++ token :: us) = next.steps us := by
  rw [ParseState.steps_append, hts]
  show middle.steps (token :: us) = next.steps us
  rw [ParseState.steps, htoken]

/-- What a level must still lack where a category begins: each category fills the parts of the level
that belong to it and to the tighter ones. -/
def Category.Fits : Category → Level → Prop
  | .disjunction, level => level = .start
  | .conjunction, level => level.conjuncts = none ∧ level.compared = none ∧ level.negations = 0
  | .comparison, level => level.compared = none ∧ level.negations = 0
  | .unary, _ | .primary, _ => True

/-- A category has been read to its end: where the level was `before` it is `after`, an operand is
complete, and the part of the level that belongs to the category is the given expression. -/
def Category.Filled (before after : Level) (operand : Expr) : Category → Expr → Prop
  | .disjunction, e => after.negations = 0 ∧ after.close operand = e
  | .conjunction, e =>
    after.negations = 0 ∧ after.disjuncts = before.disjuncts ∧ after.disjunct operand = e
  | .comparison, e =>
    after.negations = 0 ∧ after.disjuncts = before.disjuncts ∧
      after.conjuncts = before.conjuncts ∧ after.conjunct operand = e
  | .unary, e | .primary, e =>
    after = { before with negations := 0 } ∧ operand = e.negate before.negations

/-- Without negations in front of it, an operand leaves its level as it was. -/
theorem Category.Filled.eq_of_no_negations {before after : Level} {operand e : Expr}
    (h : Category.unary.Filled before after operand e) (hneg : before.negations = 0) :
    before = after ∧ e = operand := by
  obtain ⟨disjuncts, conjuncts, compared, negations⟩ := before
  obtain rfl : negations = 0 := hneg
  exact ⟨h.1.symm, h.2.symm⟩

/-- An operand is read by one step. -/
theorem ParseState.steps_operand {level : Level} {outer : List (Nat × Level)} {token : Token}
    {e : Expr} (h : ParseState.stepOperand level outer token = .ok (.withOperand level outer e)) :
    ∃ after operand, ParseState.steps ⟨level, outer, none⟩ [token] = .ok ⟨after, outer, some operand⟩ ∧
      Category.primary.Filled level after operand e := by
  refine ⟨{ level with negations := 0 }, e.negate level.negations, ?_, rfl, rfl⟩
  have hstep : ParseState.step ⟨level, outer, none⟩ token = .ok (.withOperand level outer e) := h
  rw [ParseState.steps, hstep]
  rfl

/-- **The parser reads every derivation.** From a level that still lacks what the category fills, the
tokens of a derivation lead to a state in which it is filled with the expression prescribed. -/
theorem Derives.steps {category : Category} {ts : List Token} {e : Expr}
    (h : Derives category ts e) (level : Level) (outer : List (Nat × Level))
    (hfits : category.Fits level) :
    ∃ after operand, ParseState.steps ⟨level, outer, none⟩ ts = .ok ⟨after, outer, some operand⟩ ∧
      category.Filled level after operand e := by
  induction h generalizing level outer with
  | @or ls rs l r pos _ _ ihl ihr =>
    obtain ⟨middle, left, hls, hneg, hclose⟩ := ihl level outer hfits
    obtain ⟨after, right, hrs, hneg', hdisjuncts, hdisjunct⟩ :=
      ihr ⟨some (middle.close left), none, none, 0⟩ outer ⟨rfl, rfl, rfl⟩
    refine ⟨after, right, ?_, hneg', ?_⟩
    · rw [ParseState.steps_append_cons hls rfl]
      exact hrs
    · rw [Level.close, hdisjuncts, hdisjunct, hclose]
      rfl
  | ofConjunction _ ih =>
    obtain rfl : level = .start := hfits
    obtain ⟨after, operand, hsteps, hneg, hdisjuncts, hdisjunct⟩ :=
      ih .start outer ⟨rfl, rfl, rfl⟩
    refine ⟨after, operand, hsteps, hneg, ?_⟩
    rw [Level.close, hdisjuncts, hdisjunct]
    rfl
  | @and ls rs l r pos _ _ ihl ihr =>
    obtain ⟨middle, left, hls, hneg, hdisjuncts, hdisjunct⟩ := ihl level outer hfits
    obtain ⟨after, right, hrs, hneg', hdisjuncts', hconjuncts, hconjunct⟩ :=
      ihr { middle with conjuncts := some (middle.disjunct left), compared := none } outer ⟨rfl, hneg⟩
    refine ⟨after, right, ?_, hneg', hdisjuncts'.trans hdisjuncts, ?_⟩
    · rw [ParseState.steps_append_cons hls rfl]
      exact hrs
    · rw [Level.disjunct, hconjuncts, hconjunct, hdisjunct]
      rfl
  | ofComparison _ ih =>
    obtain ⟨hconjuncts, hcompared, hneg⟩ := hfits
    obtain ⟨after, operand, hsteps, hneg', hdisjuncts, hconjuncts', hconjunct⟩ :=
      ih level outer ⟨hcompared, hneg⟩
    refine ⟨after, operand, hsteps, hneg', hdisjuncts, ?_⟩
    rw [Level.disjunct, hconjuncts', hconjuncts, hconjunct]
    rfl
  | @compare ls rs l r op pos _ _ ihl ihr =>
    obtain ⟨hcompared, hneg⟩ := hfits
    obtain ⟨middle, left, hls, hleft⟩ := ihl level outer trivial
    obtain ⟨rfl, rfl⟩ := hleft.eq_of_no_negations hneg
    obtain ⟨after, right, hrs, hright⟩ :=
      ihr { level with compared := some (l, op) } outer trivial
    obtain ⟨rfl, rfl⟩ := hright.eq_of_no_negations hneg
    have hop : ParseState.step ⟨level, outer, some l⟩ ⟨.symbol (.comparison op), pos⟩ =
        .ok ⟨{ level with compared := some (l, op) }, outer, none⟩ := by
      simp only [ParseState.step, ParseState.stepOperator, hcompared]
    refine ⟨{ level with compared := some (l, op) }, r, ?_, hneg, rfl, rfl, rfl⟩
    rw [ParseState.steps_append_cons hls hop]
    exact hrs
  | ofUnary _ ih =>
    obtain ⟨hcompared, hneg⟩ := hfits
    obtain ⟨after, operand, hsteps, hfilled⟩ := ih level outer trivial
    obtain ⟨rfl, rfl⟩ := hfilled.eq_of_no_negations hneg
    refine ⟨_, _, hsteps, hneg, rfl, rfl, ?_⟩
    rw [Level.conjunct, hcompared]
  | @not ts e pos _ ih =>
    obtain ⟨after, operand, hsteps, rfl, rfl⟩ :=
      ih { level with negations := level.negations + 1 } outer trivial
    refine ⟨_, _, hsteps, rfl, ?_⟩
    rw [negate_negation]
    rfl
  | ofPrimary _ ih => exact ih level outer trivial
  | number pos hvalue =>
    refine ParseState.steps_operand ?_
    simp only [ParseState.stepOperand, hvalue]
  | string pos => exact ParseState.steps_operand rfl
  | true pos => exact ParseState.steps_operand rfl
  | false pos => exact ParseState.steps_operand rfl
  | name pos htrue hfalse =>
    refine ParseState.steps_operand ?_
    simp only [ParseState.stepOperand, Literal.nameExpr, if_neg htrue, if_neg hfalse]
  | @parenthesis ts e pos pos' _ ih =>
    obtain ⟨inside, operand, hsteps, hneg, hclose⟩ :=
      ih .start ((pos, level) :: outer) rfl
    refine ⟨{ level with negations := 0 }, e.negate level.negations, ?_, rfl, rfl⟩
    have hclosing : ParseState.step ⟨inside, (pos, level) :: outer, some operand⟩
        ⟨.symbol .closing, pos'⟩ = .ok (.withOperand level outer e) := by
      rw [← hclose]
      rfl
    show ParseState.steps ⟨.start, (pos, level) :: outer, none⟩ (ts ++ [⟨.symbol .closing, pos'⟩]) = _
    rw [ParseState.steps_append_cons hsteps hclosing]
    rfl

/-- **The parser is complete.** It returns the expression of every derivation. -/
theorem ofTokens_complete {tokens : List Token} {e : Expr} (h : Derives .disjunction tokens e) :
    Expr.ofTokens tokens = .ok e := by
  obtain ⟨after, operand, hsteps, hneg, hclose⟩ := h.steps .start [] rfl
  have hne : tokens ≠ [] := by
    rintro rfl
    cases hsteps
  unfold Expr.ofTokens
  rw [if_neg hne]
  have hrun : ParseState.start.steps tokens = .ok ⟨after, [], some operand⟩ := hsteps
  rw [hrun]
  show Except.ok (after.close operand) = Except.ok e
  rw [hclose]

/-- The parser returns an expression exactly if it is that of a derivation. -/
theorem ofTokens_eq_ok_iff {tokens : List Token} {e : Expr} :
    Expr.ofTokens tokens = .ok e ↔ Derives .disjunction tokens e :=
  ⟨ofTokens_sound, ofTokens_complete⟩

/-- The tokens have one expression at most. -/
theorem Derives.unique {tokens : List Token} {e e' : Expr} (h : Derives .disjunction tokens e)
    (h' : Derives .disjunction tokens e') : e = e' := by
  have hok := ofTokens_complete h
  rw [ofTokens_complete h'] at hok
  exact (Except.ok.inj hok).symm

/-- **The parser accepts exactly the grammar.** Within a limit on depth it overflows exactly if more
than that is open at one place.  Otherwise it returns an expression if and only if the whole list of
tokens derives from the grammar with that expression, and no list has two. -/
theorem ofTokensWithin_ok_iff_derives (tokens : List Token) :
    (∀ depth, Expr.ofTokensWithin depth tokens = .error .tooDeep ↔
      depth < ParseState.start.reach tokens) ∧
    (∀ depth e, Expr.ofTokensWithin depth tokens ≠ .error .tooDeep →
      (Expr.ofTokensWithin depth tokens = .ok e ↔ Derives .disjunction tokens e)) ∧
    (∀ e e', Derives .disjunction tokens e → Derives .disjunction tokens e' → e = e') := by
  refine ⟨fun depth => ?_, fun depth e hdeep => ?_, fun e e' => Derives.unique⟩
  · rw [Expr.ofTokensWithin_eq]
    exact Bounded.within_eq_tooDeep_iff
  · rw [Expr.ofTokensWithin_eq] at hdeep ⊢
    have hreach := Nat.not_lt.mp (mt Bounded.within_eq_tooDeep_iff.mpr hdeep)
    rw [Bounded.within_of_le _ hreach, Bounded.mapError_because_eq_ok_iff]
    exact ofTokens_eq_ok_iff

/-- In `a || (b || c) && !d == e` negation binds tightest, then the comparison, then `&&`, and the
parenthesis leaves no trace. -/
theorem ofTokensWithin_ok_iff_derives_precedence :
    let tokens : List Token := [⟨.name "a", 0⟩, ⟨.symbol (.connective .or), 2⟩,
      ⟨.symbol .opening, 5⟩, ⟨.name "b", 6⟩, ⟨.symbol (.connective .or), 8⟩, ⟨.name "c", 11⟩,
      ⟨.symbol .closing, 12⟩, ⟨.symbol (.connective .and), 14⟩, ⟨.symbol .not, 17⟩, ⟨.name "d", 18⟩,
      ⟨.symbol (.comparison .eq), 20⟩, ⟨.name "e", 23⟩]
    Expr.ofTokensWithin Depth.standard tokens ≠ .error .tooDeep ∧
      Derives .disjunction tokens (.logical .or (.reference "a")
        (.logical .and (.logical .or (.reference "b") (.reference "c"))
          (.compare .eq (.negation (.reference "d")) (.reference "e")))) := by
  intro tokens
  have hparsed : Expr.ofTokensWithin Depth.standard tokens = .ok (.logical .or (.reference "a")
      (.logical .and (.logical .or (.reference "b") (.reference "c"))
        (.compare .eq (.negation (.reference "d")) (.reference "e")))) := by rfl
  have hdeep : Expr.ofTokensWithin Depth.standard tokens ≠ .error .tooDeep := by
    rw [hparsed]
    exact nofun
  exact ⟨hdeep, ((ofTokensWithin_ok_iff_derives tokens).2.1 Depth.standard _ hdeep).mp hparsed⟩

end DecisionFlow
