import DecisionFlow.Proofs.Compilation
import DecisionFlow.Proofs.Cutting
import DecisionFlow.Proofs.Meaning
import DecisionFlow.Proofs.Printing

/-!
# Conditions made of conditions

Texts that parse can be put together as texts: in parentheses they parse to the same tree again, and with
an operator between them to the tree of the operator.  Without parentheses a disjunction is appended to what
stands in front of it, one disjunct after the other.

* `Derives.spells` — a derivation goes by the lexemes of its tokens;
* `ParsesTo`, `parsesTo_of_cuts` — a text that is cut into lexemes of a tree parses to the tree;
* `Cuts.parenthesis`, `Cuts.symbol` — parentheses and operators around texts; `parsesTo_parenthesis`,
  `parsesTo_negation`, `parsesTo_logical`, `parsesTo_compare` say what comes of them;
* `Disjuncts` — the disjuncts that stand side by side in a list of lexemes;
* `Condition.truth_logical_of_decisive`, `Condition.truth_logical` — the truth value of a connective, from
  those of its sides;
* `compose_parse` — all compositions, and how a composed condition is decided.
-/

namespace DecisionFlow

/-! ### Lexemes of trees -/

/-- A derivation goes by the lexemes of its tokens. -/
theorem Derives.spells {c : Category} {ts : List Token} {e : Expr} (h : Derives c ts e) :
    c.Spells (ts.map Token.lexeme) e := by
  induction h with
  | or _ _ _ ihl ihr =>
    rw [List.map_append, List.map_cons]
    exact ihl.join ihr fun _ _ pos => .or pos
  | and _ _ _ ihl ihr =>
    rw [List.map_append, List.map_cons]
    exact ihl.join ihr fun _ _ pos => .and pos
  | compare op _ _ _ ihl ihr =>
    rw [List.map_append, List.map_cons]
    exact ihl.join ihr fun _ _ pos => .compare op pos
  | ofConjunction _ ih | ofComparison _ ih | ofUnary _ ih | ofPrimary _ ih => exact ih.loosen (by decide)
  | not _ _ ih => exact ih.negation
  | number _ hvalue => exact .single fun pos => .number pos hvalue
  | string _ => exact .single .string
  | true _ => exact .single .true
  | false _ => exact .single .false
  | name _ htrue hfalse => exact .single fun pos => .name pos htrue hfalse
  | parenthesis _ _ _ ih =>
    rw [List.map_cons, List.map_append]
    exact ih.parenthesis

/-- A text parses to an expression, at any depth that suffices. -/
def ParsesTo (text : String) (e : Expr) : Prop :=
  Expr.parse text = .ok e ∧
    ∀ depth, Expr.parseWithin depth text ≠ .error .tooDeep → Expr.parseWithin depth text = .ok e

/-- A text parses to the tree whose lexemes it is cut into. -/
theorem parsesTo_of_cuts {text : String} {ls : List Lexeme} {e : Expr} (hcuts : Cuts text.toList ls)
    (hspells : Category.disjunction.Spells ls e) : ParsesTo text e := by
  obtain ⟨tokens, hscan, htokens⟩ := Token.scan_of_cuts hcuts 0
  have htokenize : tokenize text = .ok tokens := hscan
  have hparse : Expr.ofTokens tokens = .ok e := ofTokens_complete (hspells tokens htokens)
  unfold ParsesTo Expr.parse Expr.parseWithin
  rw [htokenize]
  refine ⟨hparse, fun depth hdeep => ?_⟩
  simp only [Expr.ofTokensWithin_eq, hparse] at hdeep ⊢
  rw [Ne, Bounded.within_eq_tooDeep_iff, Nat.not_lt] at hdeep
  rw [Bounded.within_of_le _ hdeep]
  rfl

/-- A text that parses is cut into the lexemes of its tree. -/
theorem exists_cuts_of_parse {text : String} {e : Expr} (h : Expr.parse text = .ok e) :
    ∃ ls, Cuts text.toList ls ∧ Category.disjunction.Spells ls e := by
  obtain ⟨tokens, htokens, hderives⟩ := parse_eq_ok_iff.mp h
  exact ⟨_, cuts_of_tokenize htokens, hderives.spells⟩

/-! ### Texts around texts -/

namespace Cuts

variable {cs more : List Char} {ls ms : List Lexeme}

/-- A text in parentheses, with another text behind it. -/
theorem parenthesis (h : Cuts cs ls) (hmore : Cuts more ms) :
    Cuts ('(' :: (cs ++ ')' :: more)) (.symbol .opening :: (ls ++ .symbol .closing :: ms)) := by
  have hclosing : Cuts (')' :: more) (.symbol .closing :: ms) :=
    .lexeme (Lexeme.read?_of_symbol rfl rfl) hmore
  exact .lexeme (Lexeme.read?_of_symbol rfl rfl) (h.append (Lexeme.delimits_closing more) hclosing)

/-- An operator between spaces, with another text behind it. -/
theorem symbol (s : Symbol) (hmore : Cuts more ms) :
    Cuts (' ' :: (s.text.toList ++ ' ' :: more)) (.symbol s :: ms) := by
  have hspace : Text.isBlank ' ' = true := by decide
  have hread := Lexeme.readsBack_symbol s (' ' :: more) (Text.startsBlank_cons hspace more)
  exact .blank hspace (.lexeme hread (.blank hspace hmore))

end Cuts

/-- Two texts in parentheses, with an operator between them. -/
theorem cuts_joined {s t : String} {ls ms : List Lexeme} (hs : Cuts s.toList ls)
    (ht : Cuts t.toList ms) (op : Symbol) :
    Cuts ("(" ++ s ++ ") " ++ op.text ++ " (" ++ t ++ ")").toList
      ((.symbol .opening :: (ls ++ [.symbol .closing])) ++
        .symbol op :: (.symbol .opening :: (ms ++ [.symbol .closing]))) := by
  have hchars := hs.parenthesis (Cuts.symbol op (ht.parenthesis .nil))
  simpa [String.toList_append] using hchars

section Parentheses

variable {s t : String} {l r : Expr}

/-- A text in parentheses parses to the same tree. -/
theorem parsesTo_parenthesis (hs : Expr.parse s = .ok l) : ParsesTo ("(" ++ s ++ ")") l := by
  obtain ⟨ls, hls, hl⟩ := exists_cuts_of_parse hs
  have hcuts : Cuts ("(" ++ s ++ ")").toList (.symbol .opening :: (ls ++ [.symbol .closing])) := by
    simpa [String.toList_append] using hls.parenthesis .nil
  exact parsesTo_of_cuts hcuts (hl.parenthesis.loosen (by decide))

/-- With a negation in front it parses to the negation. -/
theorem parsesTo_negation (hs : Expr.parse s = .ok l) : ParsesTo ("!(" ++ s ++ ")") (.negation l) := by
  obtain ⟨ls, hls, hl⟩ := exists_cuts_of_parse hs
  have hcuts : Cuts ("!(" ++ s ++ ")").toList
      (.symbol .not :: .symbol .opening :: (ls ++ [.symbol .closing])) := by
    have hread : Lexeme.read? ('!' :: '(' :: (s.toList ++ [')'])) = some (.symbol .not, _) :=
      Lexeme.read?_of_symbol rfl rfl
    have hchars := Cuts.lexeme hread (hls.parenthesis .nil)
    simpa [String.toList_append] using hchars
  have hunary : Category.unary.Spells _ l := hl.parenthesis.loosen (by decide)
  exact parsesTo_of_cuts hcuts (hunary.negation.loosen (by decide))

/-- With a connective between them, two texts in parentheses parse to the connective. -/
theorem parsesTo_logical (hs : Expr.parse s = .ok l) (ht : Expr.parse t = .ok r) (op : Connective) :
    ParsesTo ("(" ++ s ++ ") " ++ op.text ++ " (" ++ t ++ ")") (.logical op l r) := by
  obtain ⟨ls, hls, hl⟩ := exists_cuts_of_parse hs
  obtain ⟨ms, hms, hr⟩ := exists_cuts_of_parse ht
  refine parsesTo_of_cuts (cuts_joined hls hms (.connective op)) ?_
  cases op with
  | and =>
    have hleft : Category.conjunction.Spells _ l := hl.parenthesis.loosen (by decide)
    have hright : Category.comparison.Spells _ r := hr.parenthesis.loosen (by decide)
    have hspells : Category.conjunction.Spells _ _ := hleft.join hright fun _ _ pos => .and pos
    exact hspells.loosen (by decide)
  | or =>
    have hleft : Category.disjunction.Spells _ l := hl.parenthesis.loosen (by decide)
    have hright : Category.conjunction.Spells _ r := hr.parenthesis.loosen (by decide)
    exact hleft.join hright fun _ _ pos => .or pos

/-- With a comparison between them, they parse to the comparison. -/
theorem parsesTo_compare (hs : Expr.parse s = .ok l) (ht : Expr.parse t = .ok r) (op : Comparison) :
    ParsesTo ("(" ++ s ++ ") " ++ op.text ++ " (" ++ t ++ ")") (.compare op l r) := by
  obtain ⟨ls, hls, hl⟩ := exists_cuts_of_parse hs
  obtain ⟨ms, hms, hr⟩ := exists_cuts_of_parse ht
  have hleft : Category.unary.Spells _ l := hl.parenthesis.loosen (by decide)
  have hright : Category.unary.Spells _ r := hr.parenthesis.loosen (by decide)
  have hspells : Category.comparison.Spells _ _ := hleft.join hright fun _ _ pos => .compare op pos
  exact parsesTo_of_cuts (cuts_joined hls hms (.comparison op)) (hspells.loosen (by decide))

end Parentheses

/-! ### Disjuncts -/

/-- `Disjuncts ls first others`: the lexemes are conjunctions joined by `||`, of which the first one stands
for the first expression and each other one for one of the others, in this order. -/
inductive Disjuncts : List Lexeme → Expr → List Expr → Prop where
  | single {ls : List Lexeme} {e : Expr} : Category.conjunction.Spells ls e → Disjuncts ls e []
  | append {ls ms : List Lexeme} {first e : Expr} {others : List Expr} :
      Disjuncts ls first others → Category.conjunction.Spells ms e →
      Disjuncts (ls ++ .symbol (.connective .or) :: ms) first (others ++ [e])

namespace Disjuncts

variable {ls ks : List Lexeme} {first e : Expr} {others : List Expr}

/-- Every disjunction has disjuncts. -/
theorem exists_of_derives {ts : List Token} (h : Derives .disjunction ts e) :
    ∃ first others, Disjuncts (ts.map Token.lexeme) first others := by
  generalize hc : Category.disjunction = c at h
  induction h with
  | or _ _ hr ihl _ =>
    obtain ⟨first, others, hl⟩ := ihl rfl
    rw [List.map_append, List.map_cons]
    exact ⟨first, _, hl.append hr.spells⟩
  | ofConjunction h _ => exact ⟨_, [], .single h.spells⟩
  | _ => cases hc

/-- Disjuncts stand for the disjunction that associates them to the left. -/
theorem spells (h : Disjuncts ls first others) :
    Category.disjunction.Spells ls (others.foldl (.logical .or) first) := by
  induction h with
  | single h => exact h.loosen (by decide)
  | append _ he ih =>
    rw [List.foldl_append]
    exact ih.join he fun _ _ pos => .or pos

/-- **Behind another disjunction**, disjuncts are appended to it one by one. -/
theorem spells_behind (h : Disjuncts ls first others) (hks : Category.disjunction.Spells ks e) :
    Category.disjunction.Spells (ks ++ .symbol (.connective .or) :: ls)
      ((first :: others).foldl (.logical .or) e) := by
  induction h with
  | single h => exact hks.join h fun _ _ pos => .or pos
  | @append ls ms first last others _ hlast ih =>
    show Category.disjunction.Spells (ks ++ (_ :: ls ++ .symbol (.connective .or) :: ms))
      ((first :: others ++ [last]).foldl (.logical .or) e)
    rw [← List.append_assoc, List.foldl_append]
    exact ih.join hlast fun _ _ pos => .or pos

end Disjuncts

/-! ### Truth values -/

/-- The truth value that a connective gives two truth values. -/
def Connective.apply : Connective → Bool → Bool → Bool
  | and, a, b => a && b
  | or, a, b => a || b

namespace Condition

variable {s t text : String} {vars : Variables} {a b : Bool}

/-- A text has a truth value if its expression has it. -/
theorem truth_eq_ok_iff {e : Expr} (h : Expr.parse text = .ok e) :
    truth text vars = .ok a ↔ e.value vars = .ok (.boolean a) := by
  rw [truth_of_parse h]
  cases e.value vars with
  | error e => exact ⟨nofun, nofun⟩
  | ok s =>
    cases s with
    | boolean b =>
      refine ⟨fun hb => ?_, fun hb => ?_⟩
      · cases hb
        rfl
      · cases hb
        rfl
    | number n => exact ⟨nofun, nofun⟩
    | string s => exact ⟨nofun, nofun⟩

/-- A condition that is decided without a failure has this truth value. -/
theorem truth_of_decision {depth : Nat} (h : decision depth text vars = ⟨a, none⟩) :
    truth text vars = .ok a := by
  rcases decision_cases depth text vars with ⟨b, htruth, hb⟩ | ⟨cause, -, hb⟩ | ⟨-, hb⟩
  · rw [h] at hb
    cases hb
    exact htruth
  · rw [h] at hb
    cases hb
  · rw [h] at hb
    cases hb

/-- A text with a truth value is decided by it, if its depth suffices. -/
theorem decision_of_truth (h : truth text vars = .ok a) {depth : Nat}
    (hdeep : (decision depth text vars).failure ≠ some .tooDeep) :
    decision depth text vars = ⟨a, none⟩ := by
  rcases decision_cases depth text vars with ⟨b, htruth, hb⟩ | ⟨cause, htruth, -⟩ | ⟨-, hb⟩
  · rw [htruth] at h
    cases h
    exact hb
  · rw [htruth] at h
    cases h
  · rw [hb] at hdeep
    exact absurd rfl hdeep

/-- **A connective short-circuits**: its left side may decide it. -/
theorem truth_logical_of_decisive {op : Connective} {l r : Expr} (hs : Expr.parse s = .ok l)
    (htext : Expr.parse text = .ok (.logical op l r)) (ha : truth s vars = .ok a)
    (hdecisive : a = op.decisive) : truth text vars = .ok a := by
  rw [truth_eq_ok_iff hs] at ha
  rw [truth_eq_ok_iff htext, Expr.value_logical, ha]
  exact if_pos hdecisive

/-- If both sides have truth values, a connective has the one that it gives them. -/
theorem truth_logical {op : Connective} {l r : Expr} (hs : Expr.parse s = .ok l)
    (ht : Expr.parse t = .ok r) (htext : Expr.parse text = .ok (.logical op l r))
    (ha : truth s vars = .ok a) (hb : truth t vars = .ok b) :
    truth text vars = .ok (op.apply a b) := by
  rw [truth_eq_ok_iff hs] at ha
  rw [truth_eq_ok_iff ht] at hb
  rw [truth_eq_ok_iff htext, Expr.value_logical, ha, hb]
  cases op <;> cases a <;> cases b <;> rfl

end Condition

/-! ### Compositions -/

/-- The disjuncts that stand side by side in a text. -/
def HasDisjuncts (text : String) (first : Expr) (others : List Expr) : Prop :=
  ∃ tokens, tokenize text = .ok tokens ∧ Disjuncts (tokens.map Token.lexeme) first others

/-- A text that parses has disjuncts. -/
theorem exists_hasDisjuncts {text : String} {e : Expr} (h : Expr.parse text = .ok e) :
    ∃ first others, HasDisjuncts text first others := by
  obtain ⟨tokens, htokens, hderives⟩ := parse_eq_ok_iff.mp h
  obtain ⟨first, others, hdisjuncts⟩ := Disjuncts.exists_of_derives hderives
  exact ⟨first, others, tokens, htokens, hdisjuncts⟩

/-- The disjuncts of a text make its tree, and behind another text they are appended to the tree of that. -/
theorem HasDisjuncts.parsesTo {s t : String} {l first : Expr} {others : List Expr}
    (ht : HasDisjuncts t first others) (hs : Expr.parse s = .ok l) :
    ParsesTo t (others.foldl (.logical .or) first) ∧
      ParsesTo (s ++ " || " ++ t) ((first :: others).foldl (.logical .or) l) := by
  obtain ⟨tokens, htokens, hdisjuncts⟩ := ht
  obtain ⟨ls, hls, hl⟩ := exists_cuts_of_parse hs
  have hms := cuts_of_tokenize htokens
  refine ⟨parsesTo_of_cuts hms hdisjuncts.spells, parsesTo_of_cuts ?_ (hdisjuncts.spells_behind hl)⟩
  have hspace : Text.isBlank ' ' = true := by decide
  have hchars := hls.append (Lexeme.delimits_of_startsBlank (Text.startsBlank_cons hspace _))
    (hms.symbol (.connective .or))
  have htext : (s ++ " || " ++ t).toList = s.toList ++ ' ' :: ((Connective.or.text).toList ++ ' ' :: t.toList) := by
    simp [String.toList_append, Connective.text]
  rw [htext]
  exact hchars

/-- **Conditions compose as texts.**  Let two texts parse.  In parentheses a text parses to its tree, with a
negation in front to the negation of its tree, and with a connective or a comparison between the two texts,
both in parentheses, to the tree of this operator.  Without parentheses, `||` between the texts appends the
disjuncts of the second one to the tree of the first one, one by one and associated to the left.  A
connective between two texts in parentheses short-circuits: if the first one decides it, this is how it is
decided; and if neither fails, it is decided as the connective says.  All this holds at any depth that
suffices for the text that is composed. -/
theorem compose_parse {s t : String} {l r : Expr} (hs : Expr.parse s = .ok l)
    (ht : Expr.parse t = .ok r) :
    ParsesTo ("(" ++ s ++ ")") l ∧
    ParsesTo ("!(" ++ s ++ ")") (.negation l) ∧
    (∀ op : Connective, ParsesTo ("(" ++ s ++ ") " ++ op.text ++ " (" ++ t ++ ")") (.logical op l r)) ∧
    (∀ op : Comparison, ParsesTo ("(" ++ s ++ ") " ++ op.text ++ " (" ++ t ++ ")") (.compare op l r)) ∧
    ((∃ first others, HasDisjuncts t first others) ∧
      ∀ first others, HasDisjuncts t first others →
        r = others.foldl (.logical .or) first ∧
        ParsesTo (s ++ " || " ++ t) ((first :: others).foldl (.logical .or) l)) ∧
    ∀ (op : Connective) (depth : Nat) (vars : Variables) (a : Bool),
      Condition.decision depth s vars = ⟨a, none⟩ →
      let decided := Condition.decision depth ("(" ++ s ++ ") " ++ op.text ++ " (" ++ t ++ ")") vars
      decided.failure ≠ some .tooDeep →
        (a = op.decisive → decided = ⟨a, none⟩) ∧
        ∀ b, Condition.decision depth t vars = ⟨b, none⟩ → decided = ⟨op.apply a b, none⟩ := by
  refine ⟨parsesTo_parenthesis hs, parsesTo_negation hs, parsesTo_logical hs ht, parsesTo_compare hs ht,
    ⟨exists_hasDisjuncts ht, fun first others hdisjuncts => ?_⟩, ?_⟩
  · obtain ⟨hparsesTo, happended⟩ := hdisjuncts.parsesTo hs
    exact ⟨Except.ok.inj (ht.symm.trans hparsesTo.1), happended⟩
  · intro op depth vars a ha decided hdeep
    have htruth := Condition.truth_of_decision ha
    have htext := (parsesTo_logical hs ht op).1
    refine ⟨fun hdecisive => ?_, fun b hb => ?_⟩
    · have hleft := Condition.truth_logical_of_decisive hs htext htruth hdecisive
      exact Condition.decision_of_truth hleft hdeep
    · have hboth := Condition.truth_logical hs ht htext htruth (Condition.truth_of_decision hb)
      exact Condition.decision_of_truth hboth hdeep

/-- Behind `a`, the two disjuncts of a text are appended one by one, and a string that holds a parenthesis and
an operator stays as it is. -/
theorem compose_parse_disjuncts :
    let s : String := "a"
    let t : String := "b && c || d == ') || ('"
    let compared : Expr := .compare .eq (.reference "d") (.literal (.string ") || ("))
    let both : Expr := .logical .and (.reference "b") (.reference "c")
    Expr.parse s = .ok (.reference "a") ∧ Expr.parse t = .ok (.logical .or both compared) ∧
      ParsesTo ("(" ++ s ++ ") && (" ++ t ++ ")")
        (.logical .and (.reference "a") (.logical .or both compared)) ∧
      ∃ first others, HasDisjuncts t first others ∧
        Expr.parse (s ++ " || " ++ t) = .ok ((first :: others).foldl (.logical .or) (.reference "a")) ∧
        Expr.parse (s ++ " || " ++ t) =
          .ok (.logical .or (.logical .or (.reference "a") both) compared) := by
  intro s t compared both
  have hs : Expr.parse s = .ok (.reference "a") := eq_ok_of_toOption (by decide +kernel)
  have ht : Expr.parse t = .ok (.logical .or both compared) := eq_ok_of_toOption (by decide +kernel)
  obtain ⟨-, -, hlogical, -, ⟨⟨first, others, hdisjuncts⟩, hbehind⟩, -⟩ := compose_parse hs ht
  have hwhole : Expr.parse (s ++ " || " ++ t) =
      .ok (.logical .or (.logical .or (.reference "a") both) compared) :=
    eq_ok_of_toOption (by decide +kernel)
  exact ⟨hs, ht, hlogical .and, first, others, hdisjuncts, (hbehind first others hdisjuncts).2.1, hwhole⟩

end DecisionFlow
