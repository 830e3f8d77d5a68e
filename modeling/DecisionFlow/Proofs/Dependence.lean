import DecisionFlow.Proofs.Compilation
import DecisionFlow.Proofs.Cutting
import DecisionFlow.Proofs.Meaning

/-!
# What a condition depends on

A condition asks for the variables that its expression names, and for no others.  It asks for fewer still
where a connective is decided by its left side: what stands on the right side is then of no account, and so
are the variables that are named only there.

* `Expr.names` — the variables that an expression names;
* `Variables.AgreeOn` — two stores are alike in the variables of some names;
* `Expr.valueWithin_congr` — an expression has one outcome in stores that agree on its names;
* `Derives.names` — what an expression names are name tokens other than the two truth values;
* `Expr.Context` — an expression with a place left open, and what may stand there;
* `Expr.valueWithin_decided` — a connective that its left side decides does not depend on its right side;
* `decision_depends_on_names` — both together, for the decision of a text.
-/

namespace DecisionFlow

/-! ### Names -/

/-- The variables that an expression names. -/
def Expr.names : Expr → List String
  | literal _ => []
  | reference name => [name]
  | negation operand => operand.names
  | compare _ left right => left.names ++ right.names
  | logical _ left right => left.names ++ right.names

/-- Two stores agree on names: each one is there in both, with one value, or in neither. -/
def Variables.AgreeOn (names : List String) (vars others : Variables) : Prop :=
  ∀ name ∈ names, vars.get? name = others.get? name

section Agreement

variable {vars others : Variables}

theorem Variables.agreeOn_append {names more : List String} :
    AgreeOn (names ++ more) vars others ↔ AgreeOn names vars others ∧ AgreeOn more vars others :=
  List.forall_mem_append

theorem Variables.scalar?_congr {name : String} (h : vars.get? name = others.get? name) :
    vars.scalar? name = others.scalar? name := by
  unfold scalar?
  rw [h]

/-- **An expression has one outcome in stores that agree on its names**, at every limit on depth. -/
theorem Expr.valueWithin_congr {e : Expr} (h : Variables.AgreeOn e.names vars others) (limit : Nat) :
    e.valueWithin vars limit = e.valueWithin others limit := by
  induction e generalizing limit with
  | literal s => cases limit <;> rfl
  | reference name =>
    have hname := Variables.scalar?_congr (h name List.mem_cons_self)
    cases limit with
    | zero => rfl
    | succ limit => simp only [valueWithin, hname]
  | negation operand ih =>
    cases limit with
    | zero => rfl
    | succ limit => simp only [valueWithin, ih h limit]
  | compare op left right ihl ihr =>
    obtain ⟨hleft, hright⟩ := Variables.agreeOn_append.mp h
    cases limit with
    | zero => rfl
    | succ limit => simp only [valueWithin, ihl hleft limit, ihr hright limit]
  | logical op left right ihl ihr =>
    obtain ⟨hleft, hright⟩ := Variables.agreeOn_append.mp h
    cases limit with
    | zero => rfl
    | succ limit => simp only [valueWithin, ihl hleft limit, ihr hright limit]

end Agreement

/-- What an expression names are name tokens, and never one of the two that stand for truth values. -/
theorem Derives.names {c : Category} {ts : List Token} {e : Expr} (h : Derives c ts e) :
    ∀ name ∈ e.names, name ≠ "true" ∧ name ≠ "false" ∧ Lexeme.name name ∈ ts.map Token.lexeme := by
  induction h with
  | or _ _ _ ihl ihr | and _ _ _ ihl ihr | compare _ _ _ _ ihl ihr =>
    intro name hname
    rw [List.map_append, List.map_cons, List.mem_append, List.mem_cons]
    rcases List.mem_append.mp hname with hleft | hright
    · obtain ⟨htrue, hfalse, hmem⟩ := ihl name hleft
      exact ⟨htrue, hfalse, .inl hmem⟩
    · obtain ⟨htrue, hfalse, hmem⟩ := ihr name hright
      exact ⟨htrue, hfalse, .inr (.inr hmem)⟩
  | ofConjunction _ ih | ofComparison _ ih | ofUnary _ ih | ofPrimary _ ih => exact ih
  | not _ _ ih =>
    intro name hname
    obtain ⟨htrue, hfalse, hmem⟩ := ih name hname
    exact ⟨htrue, hfalse, List.mem_cons_of_mem _ hmem⟩
  | number _ _ | string _ | true _ | false _ => exact nofun
  | name _ htrue hfalse =>
    intro name hname
    obtain rfl := List.mem_singleton.mp hname
    exact ⟨htrue, hfalse, List.mem_cons_self⟩
  | parenthesis _ _ _ ih =>
    intro name hname
    obtain ⟨htrue, hfalse, hmem⟩ := ih name hname
    rw [List.map_cons, List.map_append]
    exact ⟨htrue, hfalse, List.mem_cons_of_mem _ (List.mem_append_left _ hmem)⟩

/-- The variables of a text that parses have names as they are written in conditions. -/
theorem Expr.isName_of_parse {text : String} {e : Expr} (h : parse text = .ok e) :
    ∀ name ∈ e.names, Lexeme.IsName name ∧ name ≠ "true" ∧ name ≠ "false" := by
  obtain ⟨tokens, htokens, hderives⟩ := parse_eq_ok_iff.mp h
  intro name hname
  obtain ⟨htrue, hfalse, hmem⟩ := hderives.names name hname
  exact ⟨(cuts_of_tokenize htokens).fits _ hmem, htrue, hfalse⟩

/-- What parses within a limit on depth parses without one. -/
theorem Expr.parse_of_parseWithin {depth : Nat} {text : String} {e : Expr}
    (h : parseWithin depth text = .ok e) : parse text = .ok e := by
  unfold parseWithin at h
  unfold parse
  cases htokens : tokenize text with
  | error unexpected =>
    rw [htokens] at h
    cases h
  | ok tokens =>
    rw [htokens] at h
    simp only [ofTokensWithin_eq] at h
    unfold Bounded.within at h
    split at h
    · exact Bounded.mapError_because_eq_ok_iff.mp h
    · cases h

/-! ### Places -/

/-- An expression with a place left open. -/
inductive Expr.Context where
  /-- The open place. -/
  | hole
  /-- A negation of what has the open place. -/
  | negation (operand : Context)
  /-- A comparison with the open place on its left side. -/
  | compareLeft (op : Comparison) (left : Context) (right : Expr)
  /-- A comparison with the open place on its right side. -/
  | compareRight (op : Comparison) (left : Expr) (right : Context)
  /-- A connective with the open place on its left side. -/
  | logicalLeft (op : Connective) (left : Context) (right : Expr)
  /-- A connective with the open place on its right side. -/
  | logicalRight (op : Connective) (left : Expr) (right : Context)

namespace Expr

/-- The expression with another one at the open place. -/
def Context.fill : Context → Expr → Expr
  | hole, e => e
  | negation operand, e => .negation (operand.fill e)
  | compareLeft op left right, e => .compare op (left.fill e) right
  | compareRight op left right, e => .compare op left (right.fill e)
  | logicalLeft op left right, e => .logical op (left.fill e) right
  | logicalRight op left right, e => .logical op left (right.fill e)

variable {vars others : Variables}

/-- Stores that agree on a whole expression agree on what stands at the open place. -/
theorem Context.agreeOn_of_fill (context : Context) {e : Expr}
    (h : Variables.AgreeOn (context.fill e).names vars others) :
    Variables.AgreeOn e.names vars others := by
  induction context with
  | hole => exact h
  | negation operand ih => exact ih h
  | compareLeft op left right ih | logicalLeft op left right ih =>
    exact ih (Variables.agreeOn_append.mp h).1
  | compareRight op left right ih | logicalRight op left right ih =>
    exact ih (Variables.agreeOn_append.mp h).2

/-- **Two expressions with one outcome may stand for each other** at any place, also in stores that agree on
what is named around it. -/
theorem Context.valueWithin_fill (context : Context) {e e' shown : Expr}
    (hsame : ∀ limit, e.valueWithin vars limit = e'.valueWithin others limit)
    (h : Variables.AgreeOn (context.fill shown).names vars others) (limit : Nat) :
    (context.fill e).valueWithin vars limit = (context.fill e').valueWithin others limit := by
  induction context generalizing limit with
  | hole => exact hsame limit
  | negation operand ih =>
    cases limit with
    | zero => rfl
    | succ limit => simp only [fill, valueWithin, ih h limit]
  | compareLeft op left right ih | logicalLeft op left right ih =>
    obtain ⟨hleft, hright⟩ := Variables.agreeOn_append.mp h
    cases limit with
    | zero => rfl
    | succ limit => simp only [fill, valueWithin, ih hleft limit, valueWithin_congr hright limit]
  | compareRight op left right ih | logicalRight op left right ih =>
    obtain ⟨hleft, hright⟩ := Variables.agreeOn_append.mp h
    cases limit with
    | zero => rfl
    | succ limit => simp only [fill, valueWithin, ih hright limit, valueWithin_congr hleft limit]

/-- **A connective that its left side decides** does not depend on its right side. -/
theorem valueWithin_decided {op : Connective} {left right other : Expr}
    (hleft : left.value vars = .ok (.boolean op.decisive))
    (h : Variables.AgreeOn left.names vars others) (limit : Nat) :
    (logical op left right).valueWithin vars limit =
      (logical op left other).valueWithin others limit := by
  cases limit with
  | zero => rfl
  | succ limit =>
    have hsame := valueWithin_congr h limit
    simp only [valueWithin, ← hsame, valueWithin_eq_within, hleft]
    -- the left side is valued to the truth value that decides, or goes too deep
    unfold Bounded.within
    split
    · show (if op.decisive = op.decisive then _ else _) = if op.decisive = op.decisive then _ else _
      rw [if_pos rfl, if_pos rfl]
    · rfl

end Expr

/-! ### Decisions -/

/-- A text that parses within the limit on depth is decided by the outcome of its expression. -/
theorem Condition.decision_congr {depth : Nat} {text other : String} {vars others : Variables} {e e' : Expr}
    (h : Expr.parseWithin depth text = .ok e) (h' : Expr.parseWithin depth other = .ok e')
    (hvalue : e.valueWithin vars depth = e'.valueWithin others depth) :
    decision depth text vars = decision depth other others := by
  have htruth : truthWithin depth text vars = truthWithin depth other others := by
    unfold truthWithin
    rw [h, h']
    show ((e.valueWithin vars depth).bind _).mapError _ = ((e'.valueWithin others depth).bind _).mapError _
    rw [hvalue]
  unfold decision
  rw [htruth]

/-- A text that does not parse is decided without a look at the variables. -/
theorem Condition.decision_of_error {depth : Nat} {text : String} {e : Bounded SyntaxError}
    (h : Expr.parseWithin depth text = .error e) (vars : Variables) :
    decision depth text vars = ⟨false, some (e.map .malformed)⟩ := by
  unfold decision truthWithin
  rw [h]
  rfl

/-- **A condition depends on the variables that it names**, and on no others.  In two stores that agree on
the names in its expression it is decided in one way, and the same event is reported of it if any is; these
names are names as they are written in conditions, other than those of the truth values.  Where a
connective is decided by its left side, anything may stand on its right side and the stores may disagree on
what is named only there: the outcome of the whole expression, a value or an error, stays the same, and so
does the decision of its text. -/
theorem decision_depends_on_names (depth : Nat) (vars others : Variables) :
    (∀ text, (∀ e, Expr.parseWithin depth text = .ok e → Variables.AgreeOn e.names vars others) →
      Condition.decision depth text vars = Condition.decision depth text others ∧
      (Condition.decision depth text vars).event? text =
        (Condition.decision depth text others).event? text) ∧
    (∀ text e, Expr.parseWithin depth text = .ok e →
      ∀ name ∈ e.names, Lexeme.IsName name ∧ name ≠ "true" ∧ name ≠ "false") ∧
    ∀ (context : Expr.Context) (op : Connective) (left right other : Expr),
      left.value vars = .ok (.boolean op.decisive) →
      Variables.AgreeOn (context.fill left).names vars others →
      (∀ limit, (context.fill (.logical op left right)).valueWithin vars limit =
        (context.fill (.logical op left other)).valueWithin others limit) ∧
      ∀ text text', Expr.parseWithin depth text = .ok (context.fill (.logical op left right)) →
        Expr.parseWithin depth text' = .ok (context.fill (.logical op left other)) →
        Condition.decision depth text vars = Condition.decision depth text' others := by
  refine ⟨fun text hagree => ?_, fun text e hparse => Expr.isName_of_parse (Expr.parse_of_parseWithin hparse),
    fun context op left right other hleft hagree => ?_⟩
  · have hdecision : Condition.decision depth text vars = Condition.decision depth text others := by
      cases hparse : Expr.parseWithin depth text with
      | error e => rw [Condition.decision_of_error hparse, Condition.decision_of_error hparse]
      | ok e =>
        exact Condition.decision_congr hparse hparse (Expr.valueWithin_congr (hagree e hparse) depth)
    exact ⟨hdecision, by rw [hdecision]⟩
  · have hdecided (limit : Nat) : (Expr.logical op left right).valueWithin vars limit =
        (Expr.logical op left other).valueWithin others limit :=
      Expr.valueWithin_decided hleft (context.agreeOn_of_fill hagree) limit
    have hwhole := context.valueWithin_fill hdecided hagree
    exact ⟨hwhole, fun text text' hparse hparse' => Condition.decision_congr hparse hparse' (hwhole depth)⟩

/-- A variable called `true`, one whose name is no name of a condition and one that stands on the right of a
disjunction that holds already: none of them matters. -/
theorem decision_depends_on_names_shadowed :
    let vars : Variables := .ofList [("true", .boolean false), ("age", .integer 20), ("no name", .list [])]
    let others : Variables := .ofList [("limit", .null), ("age", .integer 20)]
    let adult : Expr := .compare .ge (.reference "age") (.literal (.number (.integer 18)))
    Expr.parseWithin Depth.standard "true && age >= 18" = .ok (.logical .and (.literal (.boolean true)) adult) ∧
    Variables.AgreeOn ["age"] vars others ∧
    Condition.decision Depth.standard "true && age >= 18" vars =
      Condition.decision Depth.standard "true && age >= 18" others ∧
    adult.value vars = .ok (.boolean true) ∧
    Condition.decision Depth.standard "!(age >= 18 || age < limit)" vars =
      Condition.decision Depth.standard "!(age >= 18 || 'a' == 1)" others := by
  intro vars others adult
  have hparse : Expr.parseWithin Depth.standard "true && age >= 18" =
      .ok (.logical .and (.literal (.boolean true)) adult) := eq_ok_of_toOption (by decide +kernel)
  have hagree : Variables.AgreeOn ["age"] vars others := List.forall_mem_singleton.mpr (by decide +kernel)
  have hadult : adult.value vars = .ok (.boolean true) := eq_ok_of_toOption (by decide +kernel)
  obtain ⟨hsame, -, hdecided⟩ := decision_depends_on_names Depth.standard vars others
  have hshadowed := hsame "true && age >= 18" fun e he => by
    obtain rfl := Except.ok.inj (hparse.symm.trans he)
    exact hagree
  have hright := (hdecided (.negation .hole) .or adult (.compare .lt (.reference "age") (.reference "limit"))
    (.compare .eq (.literal (.string "a")) (.literal (.number (.integer 1)))) hadult hagree).2
    "!(age >= 18 || age < limit)" "!(age >= 18 || 'a' == 1)"
    (eq_ok_of_toOption (by decide +kernel)) (eq_ok_of_toOption (by decide +kernel))
  exact ⟨hparse, hagree, hshadowed.1, hadult, hright⟩

end DecisionFlow
