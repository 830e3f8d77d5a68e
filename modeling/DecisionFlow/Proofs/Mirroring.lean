import Mathlib.Data.String.Basic
import DecisionFlow.Proofs.Composition
import DecisionFlow.Proofs.Dependence
import DecisionFlow.Proofs.Respacing

/-!
# Comparisons turned round

A comparison turned round, with its operator turned round as well, is decided in the same way, whatever its
sides are: if one of them has no value the comparison has none either way, and how deep the comparison goes
does not depend on which side comes first.

* `Comparison.mirrored` — the comparison that holds the other way round;
* `Scalar.compare_mirrored` — a comparison of two scalars turned round;
* `ParseState.inside` — a state inside other levels, and what it takes there;
* `ParseState.reach_parenthesis`, `ParseState.reach_compare` — how deep an expression in parentheses goes, and
  a comparison of two of them;
* `Comparison.between` — the text of a comparison of two texts;
* `Condition.holds_between_mirrored` — such a comparison turned round.
-/

namespace DecisionFlow

/-! ### Comparisons of scalars -/

namespace Comparison

/-- The comparison that holds of two things exactly if the given one holds of them the other way round. -/
def mirrored : Comparison → Comparison
  | eq => eq
  | ne => ne
  | lt => gt
  | le => ge
  | gt => lt
  | ge => le

theorem mirrored_mirrored (op : Comparison) : op.mirrored.mirrored = op := by
  cases op <;> rfl

theorem holds_mirrored (op : Comparison) (o : Option Ordering) :
    op.mirrored.holds (o.map Ordering.swap) = op.holds o := by
  cases o with
  | none => cases op <;> rfl
  | some o => cases op <;> cases o <;> rfl

end Comparison

theorem Place.compare_swap (p q : Place) : q.compare p = (p.compare q).swap := by
  cases p with
  | bottom | top => cases q <;> rfl
  | finite m =>
    cases q with
    | bottom | top => rfl
    | finite n => exact (Int.compare_swap m n).symm

theorem Number.compare?_swap (x y : Number) : y.compare? x = (x.compare? y).map Ordering.swap := by
  unfold compare?
  cases x.place? with
  | none => cases y.place? <;> rfl
  | some p =>
    cases y.place? with
    | none => rfl
    | some q => exact congrArg some (p.compare_swap q)

theorem Text.compare_swap (s t : String) : Ord.compare t s = (Ord.compare s t).swap :=
  (compare_iff t s).mpr (Ordering.compares_swap.mpr ((compare_iff s t).mp rfl))

/-- **A comparison of scalars turned round** has the same truth value, if it has one. -/
theorem Scalar.compare_mirrored {a b : Scalar} {op : Comparison} {holds : Bool}
    (h : a.compare op b = .ok holds) : b.compare op.mirrored a = .ok holds := by
  cases a with
  | boolean a =>
    cases b with
    | boolean b =>
      cases op with
      | eq | ne => cases a <;> cases b <;> exact h
      | lt | le | gt | ge => cases h
    | number y => cases h
    | string t => cases h
  | number x =>
    cases b with
    | boolean b => cases h
    | number y =>
      have hholds : op.mirrored.holds (y.compare? x) = op.holds (x.compare? y) := by
        rw [Number.compare?_swap, Comparison.holds_mirrored]
      exact (congrArg Except.ok hholds).trans h
    | string t => cases h
  | string s =>
    cases b with
    | boolean b => cases h
    | number y => cases h
    | string t =>
      have hholds : op.mirrored.holds (some (Ord.compare t s)) = op.holds (some (Ord.compare s t)) := by
        rw [Text.compare_swap s t]
        exact op.holds_mirrored (some (Ord.compare s t))
      exact (congrArg Except.ok hholds).trans h

/-! ### How deep parentheses go -/

namespace ParseState

/-- The price of levels that wait for the one inside them. -/
def price (outer : List (Nat × Level)) : Nat :=
  outer.foldr (fun p price => p.2.negations + Depth.parenthesis + price) 0

/-- Levels add their price to what is inside them. -/
theorem foldr_price (outer : List (Nat × Level)) (n : Nat) :
    outer.foldr (fun p price => p.2.negations + Depth.parenthesis + price) n = n + price outer := by
  induction outer with
  | nil => rfl
  | cons p outer ih =>
    have hprice : price (p :: outer) = p.2.negations + Depth.parenthesis + price outer := rfl
    rw [List.foldr_cons, ih, hprice]
    omega

theorem nesting_eq (state : ParseState) :
    state.nesting = state.level.negations + price state.outer :=
  foldr_price state.outer state.level.negations

/-- The same state inside other levels. -/
def inside (state : ParseState) (outer : List (Nat × Level)) : ParseState :=
  { state with outer := state.outer ++ outer }

variable {state next : ParseState} {ts us : List Token} {token : Token}

theorem nesting_inside (state : ParseState) (outer : List (Nat × Level)) :
    (state.inside outer).nesting = state.nesting + price outer := by
  have happend : price (state.outer ++ outer) = price outer + price state.outer := by
    rw [price, List.foldr_append, ← price, foldr_price]
  rw [nesting_eq, nesting_eq, Nat.add_assoc, Nat.add_comm (price state.outer), ← happend]
  rfl

section Inside

variable {level : Level} {opened : List (Nat × Level)}

theorem stepOperand_inside (h : stepOperand level opened token = .ok next) (outer : List (Nat × Level)) :
    stepOperand level (opened ++ outer) token = .ok (next.inside outer) := by
  obtain ⟨lexeme, pos⟩ := token
  cases lexeme with
  | number text =>
    simp only [stepOperand] at h ⊢
    cases hvalue : Literal.numberValue text with
    | error digits =>
      rw [hvalue] at h
      cases h
    | ok n =>
      rw [hvalue] at h
      cases h
      rfl
  | string text | name text =>
    cases h
    rfl
  | symbol s =>
    cases s with
    | not | opening =>
      cases h
      rfl
    | comparison op | connective op | closing => cases h

theorem stepOperator_inside {operand : Expr} (h : stepOperator level opened operand token = .ok next)
    (outer : List (Nat × Level)) :
    stepOperator level (opened ++ outer) operand token = .ok (next.inside outer) := by
  obtain ⟨lexeme, pos⟩ := token
  cases lexeme with
  | number text | string text | name text => cases h
  | symbol s =>
    cases s with
    | comparison op =>
      simp only [stepOperator] at h ⊢
      cases hcompared : level.compared with
      | none =>
        rw [hcompared] at h
        cases h
        rfl
      | some side =>
        rw [hcompared] at h
        cases h
    | connective op =>
      cases op with
      | and | or =>
        cases h
        rfl
    | closing =>
      cases opened with
      | nil => cases h
      | cons p opened =>
        -- the parenthesis that is closed is one of the inner ones
        cases h
        rfl
    | not | opening => cases h

end Inside

/-- A token that can stand where it stands can stand there inside other levels. -/
theorem step_inside (h : state.step token = .ok next) (outer : List (Nat × Level)) :
    (state.inside outer).step token = .ok (next.inside outer) := by
  obtain ⟨level, opened, operand⟩ := state
  cases operand with
  | none => exact stepOperand_inside h outer
  | some operand => exact stepOperator_inside h outer

/-- A run of tokens begins with the first one. -/
theorem exists_of_steps_cons (h : state.steps (token :: ts) = .ok next) :
    ∃ middle, state.step token = .ok middle ∧ middle.steps ts = .ok next := by
  rw [steps] at h
  cases hstep : state.step token with
  | error e =>
    rw [hstep] at h
    cases h
  | ok middle =>
    rw [hstep] at h
    exact ⟨middle, rfl, h⟩

theorem steps_inside (h : state.steps ts = .ok next) (outer : List (Nat × Level)) :
    (state.inside outer).steps ts = .ok (next.inside outer) := by
  induction ts generalizing state with
  | nil =>
    cases h
    rfl
  | cons token rest ih =>
    obtain ⟨middle, hstep, hrest⟩ := exists_of_steps_cons h
    rw [steps, step_inside hstep]
    exact ih hrest

/-- Inside other levels everything takes their price more. -/
theorem reach_inside (h : state.steps ts = .ok next) (outer : List (Nat × Level)) :
    max (price outer) ((state.inside outer).reach ts) = state.reach ts + price outer := by
  induction ts generalizing state with
  | nil =>
    show max (price outer) 0 = 0 + price outer
    omega
  | cons token rest ih =>
    obtain ⟨middle, hstep, hrest⟩ := exists_of_steps_cons h
    have hmiddle := ih hrest
    rw [reach, reach, hstep, step_inside hstep]
    show max _ (max (middle.inside outer).nesting _) = max middle.nesting _ + price outer
    rw [nesting_inside]
    omega

/-- Two lists of tokens, one after the other, take the greater of what they take. -/
theorem reach_append (h : state.steps ts = .ok next) (us : List Token) :
    state.reach (ts ++ us) = max (state.reach ts) (next.reach us) := by
  induction ts generalizing state with
  | nil =>
    cases h
    exact (Nat.zero_max _).symm
  | cons token rest ih =>
    obtain ⟨middle, hstep, hrest⟩ := exists_of_steps_cons h
    rw [List.cons_append, reach, reach, hstep]
    show max _ (middle.reach (rest ++ us)) = max (max _ _) _
    rw [ih hrest, Nat.max_assoc]

/-- **An expression in parentheses** takes their price more than it takes itself. -/
theorem reach_parenthesis {e : Expr} (h : Expr.ofTokens ts = .ok e) {level : Level}
    (hlevel : level.negations = 0) (pos pos' : Nat) (us : List Token) :
    reach ⟨level, [], none⟩ (⟨.symbol .opening, pos⟩ :: (ts ++ ⟨.symbol .closing, pos'⟩ :: us)) =
      max (start.reach ts + Depth.parenthesis) (reach (withOperand level [] e) us) := by
  obtain ⟨after, operand, hsteps, hneg, rfl⟩ := (ofTokens_sound h).steps .start [] rfl
  have hstart : start.steps ts = .ok ⟨after, [], some operand⟩ := hsteps
  have hprice : price [(pos, level)] = Depth.parenthesis := by simp [price, hlevel]
  have hts := reach_inside hstart [(pos, level)]
  have hopened : nesting ⟨.start, [(pos, level)], none⟩ = Depth.parenthesis := by
    rw [nesting_eq, hprice]
    exact Nat.zero_add _
  have hclosed : nesting (withOperand level [] (after.close operand)) = 0 := nesting_eq _
  have hclosing :
      (inside ⟨after, [], some operand⟩ [(pos, level)]).reach (⟨.symbol .closing, pos'⟩ :: us) =
      max 0 (reach (withOperand level [] (after.close operand)) us) := by
    rw [← hclosed]
    rfl
  calc reach ⟨level, [], none⟩ (⟨.symbol .opening, pos⟩ :: (ts ++ ⟨.symbol .closing, pos'⟩ :: us))
      = max (nesting ⟨.start, [(pos, level)], none⟩)
          ((start.inside [(pos, level)]).reach (ts ++ ⟨.symbol .closing, pos'⟩ :: us)) := rfl
    _ = max (start.reach ts + Depth.parenthesis)
          (reach (withOperand level [] (after.close operand)) us) := by
        rw [reach_append (steps_inside hstart _), hclosing, hopened, ← hprice, ← hts]
        omega

/-- Tokens with the same lexemes take the same depth. -/
theorem reach_congr (h : ts.map Token.lexeme = us.map Token.lexeme) :
    start.reach ts = start.reach us := by
  have hunplaced (vs : List Token) : start.reach (vs.map Token.unplaced) = start.reach vs :=
    reach_unplaced start vs
  rw [← hunplaced ts, ← hunplaced us, Token.map_unplaced_eq h]

/-- **Two expressions in parentheses with a comparison between them** take what the deeper one takes in
parentheses. -/
theorem reach_compare {joined : List Token} {l r : Expr} (hl : Expr.ofTokens ts = .ok l)
    (hr : Expr.ofTokens us = .ok r) {op : Comparison}
    (h : joined.map Token.lexeme = .symbol .opening :: (ts.map Token.lexeme ++ [.symbol .closing]) ++
      .symbol (.comparison op) :: .symbol .opening :: (us.map Token.lexeme ++ [.symbol .closing])) :
    start.reach joined =
      max (start.reach ts + Depth.parenthesis) (start.reach us + Depth.parenthesis) := by
  let right : List Token := ⟨.symbol .opening, 0⟩ :: (us ++ [⟨.symbol .closing, 0⟩])
  let compared : Level := { Level.start with compared := some (l, op) }
  have hlexemes : joined.map Token.lexeme = (⟨.symbol .opening, 0⟩ ::
      (ts ++ ⟨.symbol .closing, 0⟩ :: ⟨.symbol (.comparison op), 0⟩ :: right) : List Token).map
        Token.lexeme := by
    simp [h, right]
  have hnesting : nesting ⟨compared, [], none⟩ = 0 := nesting_eq _
  have hop : reach (withOperand .start [] l) (⟨.symbol (.comparison op), 0⟩ :: right) =
      max (nesting ⟨compared, [], none⟩) (reach ⟨compared, [], none⟩ right) := rfl
  have hright : reach ⟨compared, [], none⟩ right = max (start.reach us + Depth.parenthesis) 0 :=
    reach_parenthesis hr rfl 0 0 []
  rw [reach_congr hlexemes]
  calc start.reach _
      = max (start.reach ts + Depth.parenthesis)
          (reach (withOperand .start [] l) (⟨.symbol (.comparison op), 0⟩ :: right)) :=
        reach_parenthesis hl rfl 0 0 _
    _ = max (start.reach ts + Depth.parenthesis) (start.reach us + Depth.parenthesis) := by
        rw [hop, hnesting, hright]
        omega

end ParseState

/-! ### Comparisons of expressions -/

/-- The text of a comparison of two texts, each in parentheses. -/
def Comparison.between (op : Comparison) (s t : String) : String :=
  "(" ++ s ++ ") " ++ op.text ++ " (" ++ t ++ ")"

namespace Expr

/-- How deep parsing a text goes. -/
def parseReach (text : String) : Nat := Bounded.after (tokenize text) ParseState.start.reach

theorem parseWithin_eq_within (depth : Nat) (text : String) :
    parseWithin depth text = Bounded.within depth (parseReach text) (parse text) := by
  unfold parseWithin parse parseReach
  cases tokenize text with
  | error e => exact Bounded.mapError_because depth (.error (SyntaxError.unexpectedCharacter e))
  | ok tokens => exact ofTokensWithin_eq depth tokens

/-- A text that parses has tokens of its expression. -/
theorem exists_tokens_of_parse {text : String} {e : Expr} (h : parse text = .ok e) :
    ∃ tokens, tokenize text = .ok tokens ∧ ofTokens tokens = .ok e ∧
      parseReach text = ParseState.start.reach tokens := by
  obtain ⟨tokens, htokens, hderives⟩ := parse_eq_ok_iff.mp h
  refine ⟨tokens, htokens, ofTokens_complete hderives, ?_⟩
  rw [parseReach, htokens]
  rfl

/-- **A comparison of two texts in parentheses** parses to the comparison of their expressions, and goes as
deep as the deeper one of them in parentheses. -/
theorem parseWithin_between {s t : String} {l r : Expr} (hs : parse s = .ok l) (ht : parse t = .ok r)
    (op : Comparison) (depth : Nat) :
    parseWithin depth (op.between s t) = Bounded.within depth
      (max (parseReach s + Depth.parenthesis) (parseReach t + Depth.parenthesis)) (.ok (.compare op l r)) := by
  have hparse : parse (op.between s t) = .ok (.compare op l r) := (parsesTo_compare hs ht op).1
  obtain ⟨ts, hts, hl, hreach⟩ := exists_tokens_of_parse hs
  obtain ⟨us, hus, hr, hreach'⟩ := exists_tokens_of_parse ht
  obtain ⟨joined, hjoined, hlexemes⟩ := Token.scan_of_cuts
    (cuts_joined (cuts_of_tokenize hts) (cuts_of_tokenize hus) (.comparison op)) 0
  have htokenize : tokenize (op.between s t) = .ok joined := hjoined
  have hbetween : parseReach (op.between s t) = ParseState.start.reach joined := by
    rw [parseReach, htokenize]
    rfl
  rw [parseWithin_eq_within, hparse, hbetween, ParseState.reach_compare hl hr hlexemes, hreach, hreach']

variable {vars : Variables} {limit : Nat} {l r : Expr}

/-- A comparison whose sides have values compares them. -/
theorem valueWithin_compare {a b : Scalar} (hl : l.valueWithin vars limit = .ok a)
    (hr : r.valueWithin vars limit = .ok b) (op : Comparison) :
    (compare op l r).valueWithin vars (limit + 1) = (lift (a.compare op b)).map .boolean := by
  unfold valueWithin
  rw [hl, hr]
  show (lift (a.compare op b)).bind (fun holds => .ok (Scalar.boolean holds)) = _
  cases a.compare op b <;> rfl

/-- A comparison has a value only if its sides have values that compare. -/
theorem exists_of_valueWithin_compare {op : Comparison} {holds : Bool}
    (h : (compare op l r).valueWithin vars limit = .ok (.boolean holds)) :
    ∃ n a b, limit = n + 1 ∧ l.valueWithin vars n = .ok a ∧ r.valueWithin vars n = .ok b ∧
      a.compare op b = .ok holds := by
  cases limit with
  | zero => cases h
  | succ n =>
    cases hl : l.valueWithin vars n with
    | error e =>
      unfold valueWithin at h
      rw [hl] at h
      cases h
    | ok a =>
      cases hr : r.valueWithin vars n with
      | error e =>
        unfold valueWithin at h
        rw [hl, hr] at h
        cases h
      | ok b =>
        rw [valueWithin_compare hl hr] at h
        cases hholds : a.compare op b with
        | error e =>
          rw [hholds] at h
          cases h
        | ok found =>
          rw [hholds] at h
          cases h
          exact ⟨n, a, b, rfl, hl, hr, hholds⟩

/-- A comparison has a truth value turned round, if it has one. -/
theorem valueWithin_mirrored {op : Comparison} {holds : Bool}
    (h : (compare op l r).valueWithin vars limit = .ok (.boolean holds)) :
    (compare op.mirrored r l).valueWithin vars limit = .ok (.boolean holds) := by
  obtain ⟨n, a, b, rfl, hl, hr, hholds⟩ := exists_of_valueWithin_compare h
  rw [valueWithin_compare hr hl, Scalar.compare_mirrored hholds]
  rfl

end Expr

namespace Condition

/-- A text that parses has the truth value of its expression. -/
theorem truthWithin_of_parseWithin {depth : Nat} {text : String} {e : Expr}
    (h : Expr.parseWithin depth text = .ok e) (vars : Variables) :
    truthWithin depth text vars =
      ((e.valueWithin vars depth).bind fun s => Expr.lift (s.boolean? .condition)).mapError
        (Bounded.map .valueless) := by
  unfold truthWithin
  rw [h]
  rfl

/-- A text that parses holds if its expression has the value true. -/
theorem holds_iff_of_parseWithin {depth : Nat} {text : String} {e : Expr}
    (h : Expr.parseWithin depth text = .ok e) (vars : Variables) :
    (decision depth text vars).holds = true ↔ e.valueWithin vars depth = .ok (.boolean true) := by
  unfold decision
  rw [truthWithin_of_parseWithin h]
  cases e.valueWithin vars depth with
  | error err => exact ⟨nofun, nofun⟩
  | ok s =>
    cases s with
    | boolean b =>
      show b = true ↔ Except.ok (Scalar.boolean b) = .ok (.boolean true)
      rw [Except.ok.injEq, Scalar.boolean.injEq]
    | number x => exact ⟨nofun, nofun⟩
    | string t => exact ⟨nofun, nofun⟩

/-- **A comparison turned round is decided in the same way**, whatever its sides are and however deep they
go. -/
theorem holds_between_mirrored {s t : String} {l r : Expr} (hs : Expr.parse s = .ok l)
    (ht : Expr.parse t = .ok r) {op : Comparison} {depth : Nat} {vars : Variables}
    (h : (decision depth (op.between s t) vars).holds = true) :
    (decision depth (op.mirrored.between t s) vars).holds = true := by
  have hreach := Nat.max_comm (Expr.parseReach s + Depth.parenthesis) (Expr.parseReach t + Depth.parenthesis)
  have hparse := Expr.parseWithin_between hs ht op depth
  have hparse' := Expr.parseWithin_between ht hs op.mirrored depth
  rw [← hreach] at hparse'
  by_cases hdeep : max (Expr.parseReach s + Depth.parenthesis) (Expr.parseReach t + Depth.parenthesis) ≤ depth
  · rw [Bounded.within_of_le _ hdeep] at hparse hparse'
    rw [holds_iff_of_parseWithin hparse] at h
    exact (holds_iff_of_parseWithin hparse' vars).mpr (Expr.valueWithin_mirrored h)
  · rw [Bounded.within_of_lt _ (Nat.not_le.mp hdeep)] at hparse
    rw [decision_of_error hparse] at h
    cases h

end Condition

end DecisionFlow
