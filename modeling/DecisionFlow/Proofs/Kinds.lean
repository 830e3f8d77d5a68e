import DecisionFlow.Proofs.Compilation
import DecisionFlow.Proofs.Meaning

/-!
# Kinds of expressions

Every scalar has a kind, and from the kinds of the variables alone the kind of an expression can be
told, if it has one.  An expression that has a kind never fails, whatever the values of the variables.

* `Variables.kind?` — the kind of a variable, none if it is not there or holds no scalar;
* `HasKind` — the rules for kinds;
* `Expr.parts` — an expression and everything in it;
* `HasKind.exists_value` — an expression that has a kind has a value of that kind;
* `decision_of_hasKind` — so a condition of boolean kind is decided by its value, and nothing is
  reported.
-/

namespace DecisionFlow

/-! ### The rules -/

/-- The kind of a value, if it is a scalar. -/
def Value.kind? : Value → Option Kind
  | scalar s => some s.kind
  | _ => none

/-- The kind of a variable.  It has none if it is not there, or holds a value that is unsupported. -/
def Variables.kind? (vars : Variables) (name : String) : Option Kind :=
  (vars.get? name).bind Value.kind?

/-- `HasKind kinds e kind`: where variables have the given kinds, the expression has this one. -/
inductive HasKind (kinds : String → Option Kind) : Expr → Kind → Prop where
  | literal (s : Scalar) : HasKind kinds (.literal s) s.kind
  | reference {name : String} {kind : Kind} :
      kinds name = some kind → HasKind kinds (.reference name) kind
  | negation {e : Expr} : HasKind kinds e .boolean → HasKind kinds (.negation e) .boolean
  | logical {l r : Expr} (op : Connective) :
      HasKind kinds l .boolean → HasKind kinds r .boolean → HasKind kinds (.logical op l r) .boolean
  /-- Two operands of one kind are compared, for order only if they are numbers or strings. -/
  | compare {l r : Expr} {kind : Kind} (op : Comparison) :
      HasKind kinds l kind → HasKind kinds r kind →
      (op.isOrdering = true → kind = .number ∨ kind = .string) →
      HasKind kinds (.compare op l r) .boolean

/-- An expression and everything in it: all that valuing it may come to value. -/
def Expr.parts : Expr → List Expr
  | literal s => [literal s]
  | reference name => [reference name]
  | negation operand => negation operand :: operand.parts
  | compare op left right => compare op left right :: (left.parts ++ right.parts)
  | logical op left right => logical op left right :: (left.parts ++ right.parts)

/-- Everything in an expression that has a kind has one. -/
theorem HasKind.parts {kinds : String → Option Kind} {e : Expr} {kind : Kind}
    (h : HasKind kinds e kind) : ∀ part ∈ e.parts, ∃ kind, HasKind kinds part kind := by
  induction h with
  | literal s => exact List.forall_mem_singleton.mpr ⟨_, .literal s⟩
  | reference hname => exact List.forall_mem_singleton.mpr ⟨_, .reference hname⟩
  | negation he ih => exact List.forall_mem_cons.mpr ⟨⟨_, .negation he⟩, ih⟩
  | logical op hl hr ihl ihr =>
    exact List.forall_mem_cons.mpr ⟨⟨_, .logical op hl hr⟩, List.forall_mem_append.mpr ⟨ihl, ihr⟩⟩
  | compare op hl hr hop ihl ihr =>
    exact List.forall_mem_cons.mpr ⟨⟨_, .compare op hl hr hop⟩, List.forall_mem_append.mpr ⟨ihl, ihr⟩⟩

/-! ### Soundness -/

/-- A scalar of boolean kind is a truth value. -/
theorem Scalar.exists_boolean {s : Scalar} (h : s.kind = .boolean) : ∃ b, s = .boolean b := by
  cases s with
  | boolean b => exact ⟨b, rfl⟩
  | number n => cases h
  | string t => cases h

/-- Two scalars of one kind can be compared, truth values for equality only. -/
theorem Scalar.exists_compare {op : Comparison} {s t : Scalar} (hkind : s.kind = t.kind)
    (hop : op.isOrdering = true → s.kind = .number ∨ s.kind = .string) :
    ∃ b, s.compare op t = .ok b := by
  cases s with
  | boolean a =>
    obtain ⟨b, rfl⟩ := exists_boolean hkind.symm
    have hequality : ¬op.isOrdering = true := by
      intro hordering
      cases hop hordering with
      | inl h => cases h
      | inr h => cases h
    exact ⟨_, if_neg hequality⟩
  | number m =>
    cases t with
    | number n => exact ⟨_, rfl⟩
    | boolean b => cases hkind
    | string t => cases hkind
  | string s =>
    cases t with
    | string t => exact ⟨_, rfl⟩
    | boolean b => cases hkind
    | number n => cases hkind

/-- The scalar that a variable of some kind holds. -/
theorem Variables.exists_scalar {vars : Variables} {name : String} {kind : Kind}
    (h : vars.kind? name = some kind) : ∃ s, vars.scalar? name = .ok s ∧ s.kind = kind := by
  obtain ⟨v, hget, hkind⟩ := Option.bind_eq_some_iff.mp h
  cases v with
  | scalar s =>
    refine ⟨s, ?_, Option.some.inj hkind⟩
    rw [scalar?, hget]
  | null => cases hkind
  | list items => cases hkind
  | object fields => cases hkind
  | foreign type place => cases hkind

/-- **An expression that has a kind has a value**, which is of that kind. -/
theorem HasKind.exists_value {vars : Variables} {e : Expr} {kind : Kind}
    (h : HasKind vars.kind? e kind) : ∃ s, e.value vars = .ok s ∧ s.kind = kind := by
  induction h with
  | literal s => exact ⟨s, rfl, rfl⟩
  | reference hname => exact Variables.exists_scalar hname
  | negation _ ih =>
    obtain ⟨s, hvalue, hkind⟩ := ih
    obtain ⟨b, rfl⟩ := Scalar.exists_boolean hkind
    refine ⟨.boolean !b, ?_, rfl⟩
    rw [Expr.value_negation, hvalue]
    rfl
  | logical op _ _ ihl ihr =>
    obtain ⟨s, hleft, hkind⟩ := ihl
    obtain ⟨l, rfl⟩ := Scalar.exists_boolean hkind
    obtain ⟨t, hright, hkind⟩ := ihr
    obtain ⟨r, rfl⟩ := Scalar.exists_boolean hkind
    refine ⟨.boolean (if l = op.decisive then l else r), ?_, rfl⟩
    rw [Expr.value_logical, hleft, hright]
    show (if l = op.decisive then _ else _) = _
    split <;> rfl
  | compare op _ _ hop ihl ihr =>
    obtain ⟨s, hleft, hkind⟩ := ihl
    obtain ⟨t, hright, hkind'⟩ := ihr
    obtain ⟨b, hcompare⟩ := Scalar.exists_compare (hkind.trans hkind'.symm) (hkind ▸ hop)
    refine ⟨.boolean b, ?_, rfl⟩
    rw [Expr.value_compare, hleft, hright]
    show (s.compare op t).map Scalar.boolean = _
    rw [hcompare]
    rfl

/-- Within a limit on depth, an expression that has a kind goes too deep or has a value of that kind. -/
theorem HasKind.valueWithin {vars : Variables} {e : Expr} {kind : Kind}
    (h : HasKind vars.kind? e kind) (limit : Nat) :
    e.valueWithin vars limit = .error .tooDeep ∨
      ∃ s, e.valueWithin vars limit = .ok s ∧ s.kind = kind := by
  obtain ⟨s, hvalue, hkind⟩ := h.exists_value
  rw [Expr.valueWithin_eq_within, hvalue]
  by_cases hreach : e.reach vars ≤ limit
  · rw [Bounded.within_of_le _ hreach]
    exact .inr ⟨s, rfl, hkind⟩
  · rw [Bounded.within_of_lt _ (Nat.not_le.mp hreach)]
    exact .inl rfl

/-- A text of boolean kind has a truth value, that of its expression. -/
theorem HasKind.exists_truth {vars : Variables} {text : String} {e : Expr} (hwritten : Written text e)
    (h : HasKind vars.kind? e .boolean) :
    ∃ b, Condition.truth text vars = .ok b ∧ Yields vars e (.ok (.boolean b)) := by
  obtain ⟨s, hvalue, hkind⟩ := h.exists_value
  obtain ⟨b, rfl⟩ := Scalar.exists_boolean hkind
  refine ⟨b, ?_, yields_iff_value.mpr hvalue⟩
  rw [Condition.truth_of_parse (parse_eq_ok_iff.mpr hwritten), hvalue]
  rfl

/-- **A condition of boolean kind never fails.**  Where the variables have the given kinds and the
limit on depth is not reached, nothing is reported of such a condition, and it holds just if its value
is true; so if something is reported of a condition that is written in the grammar, it is not of
boolean kind.  Everything in an expression that has a kind has a kind, and wherever valuing comes to
it, the value is of that kind. -/
theorem decision_of_hasKind {kinds : String → Option Kind} {text : String} {e : Expr}
    {vars : Variables} {depth : Nat} (hwritten : Written text e)
    (hvars : ∀ name, vars.kind? name = kinds name)
    (hshallow : (Condition.decision depth text vars).failure ≠ some .tooDeep) :
    let decision := Condition.decision depth text vars
    (HasKind kinds e .boolean →
      decision.event? text = none ∧ Yields vars e (.ok (.boolean decision.holds))) ∧
    (decision.event? text ≠ none → ¬HasKind kinds e .boolean) ∧
    (∀ kind, HasKind kinds e kind → ∀ part ∈ e.parts,
      (∃ kind, HasKind kinds part kind) ∧
      ∀ kind, HasKind kinds part kind →
        ∀ limit, part.valueWithin vars limit = .error .tooDeep ∨
          ∃ s, part.valueWithin vars limit = .ok s ∧ s.kind = kind) := by
  intro decision
  obtain rfl : vars.kind? = kinds := funext hvars
  have hdecided (hkind : HasKind vars.kind? e .boolean) :
      decision.event? text = none ∧ Yields vars e (.ok (.boolean decision.holds)) := by
    obtain ⟨b, htruth, hyields⟩ := hkind.exists_truth hwritten
    have hcases : _ ∨ _ ∨ _ := decision_cases depth text vars
    obtain ⟨b', htruth', hdecision⟩ | ⟨cause, htruth', -⟩ | ⟨-, hdeep⟩ := hcases
    · obtain rfl : b = b' := Except.ok.inj (htruth.symm.trans htruth')
      have hb : decision = ⟨b, none⟩ := hdecision
      rw [hb]
      exact ⟨rfl, hyields⟩
    · cases htruth.symm.trans htruth'
    · rw [hdeep] at hshallow
      exact absurd rfl hshallow
  refine ⟨hdecided, fun hevent hkind => hevent (hdecided hkind).1, ?_⟩
  intro kind hkind part hpart
  exact ⟨hkind.parts part hpart, fun kind hkind => hkind.valueWithin⟩

/-- With a number and a string, one condition is of boolean kind and another one, which compares the
two, is not. -/
theorem decision_of_hasKind_age :
    let vars : Variables := .ofList [("age", .integer 20), ("name", .string "Ann"), ("tags", .list [])]
    let adult : Expr := .compare .ge (.reference "age") (.literal (.number (.integer 18)))
    let named : Expr := .compare .lt (.reference "age") (.reference "name")
    Written "age >= 18" adult ∧ HasKind vars.kind? adult .boolean ∧
      Yields vars adult (.ok (.boolean true)) ∧
      Written "age < name" named ∧ ¬HasKind vars.kind? named .boolean := by
  intro vars adult named
  have hadult : Written "age >= 18" adult :=
    parse_eq_ok_iff.mp (eq_ok_of_toOption (by decide +kernel))
  have hnamed : Written "age < name" named :=
    parse_eq_ok_iff.mp (eq_ok_of_toOption (by decide +kernel))
  have hkind : HasKind vars.kind? adult .boolean :=
    .compare .ge (.reference (by decide +kernel)) (.literal (.number (.integer 18)))
      fun _ => .inl rfl
  have hholds : Condition.decision Depth.standard "age >= 18" vars = ⟨true, none⟩ := by
    decide +kernel
  have hfails : (Condition.decision Depth.standard "age < name" vars).failure =
      some (.because (.valueless (.kindMismatch .number .string .lt))) := by
    decide +kernel
  have hshallow : (Condition.decision Depth.standard "age >= 18" vars).failure ≠ some .tooDeep := by
    rw [hholds]
    exact nofun
  have hshallow' : (Condition.decision Depth.standard "age < name" vars).failure ≠ some .tooDeep := by
    rw [hfails]
    exact nofun
  obtain ⟨hdecided, -, -⟩ := decision_of_hasKind hadult (fun name => rfl) hshallow
  obtain ⟨-, hillKinded, -⟩ := decision_of_hasKind hnamed (fun name => rfl) hshallow'
  have hyields := (hdecided hkind).2
  rw [hholds] at hyields
  refine ⟨hadult, hkind, hyields, hnamed, hillKinded ?_⟩
  rw [Decision.event?, hfails]
  exact nofun

end DecisionFlow
