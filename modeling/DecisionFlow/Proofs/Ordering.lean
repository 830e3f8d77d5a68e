import DecisionFlow.Proofs.ExactOrder
import DecisionFlow.Proofs.Mirroring

/-!
# The laws of comparisons

The six comparisons are those of a linear order, of exact values or of code points, and so they keep its
laws, for conditions that compare two expressions as well.

* `Comparison.Coherent` — the laws of an order, for the comparisons of operands;
  `Comparison.Coherent.of_relates` says that comparisons by a place in a linear order have them;
* `Expr.Compares` — a comparison of two expressions holds;
* `comparison_laws` — its laws.
-/

namespace DecisionFlow

/-! ### Coherent comparisons -/

namespace Comparison

/-- The laws of an order, for comparisons of operands. -/
structure Coherent {α : Type} (operand : α → Prop) (holds : Comparison → α → α → Prop) : Prop where
  /-- One thing is less than another, equal to it or greater, and only one of these. -/
  trichotomy : ∀ a b, operand a → operand b → ∃! op, op ∈ [lt, eq, gt] ∧ holds op a b
  /-- "Less or equal" is what it says. -/
  le_iff : ∀ a b, operand a → operand b → (holds le a b ↔ holds lt a b ∨ holds eq a b)
  /-- "Greater or equal" is what it says. -/
  ge_iff : ∀ a b, operand a → operand b → (holds ge a b ↔ holds gt a b ∨ holds eq a b)
  /-- "Not equal" is what it says. -/
  ne_iff : ∀ a b, operand a → operand b → (holds ne a b ↔ ¬ holds eq a b)
  /-- "Less", "less or equal" and "equal" are transitive. -/
  trans : ∀ op ∈ [lt, le, eq], ∀ a b c, operand a → operand b → operand c →
    holds op a b → holds op b c → holds op a c

/-- In a linear order one of three comparisons holds. -/
theorem existsUnique_relates {κ : Type} [LinearOrder κ] (v w : κ) :
    ∃! op, op ∈ [lt, eq, gt] ∧ op.Relates v w := by
  have hthree {op : Comparison} (hop : op ∈ [lt, eq, gt]) : op = lt ∨ op = eq ∨ op = gt := by
    simpa using hop
  rcases lt_trichotomy v w with hlt | heq | hgt
  · refine ⟨lt, ⟨by decide, hlt⟩, ?_⟩
    rintro op ⟨hop, hrelates⟩
    rcases hthree hop with rfl | rfl | rfl
    · rfl
    · exact absurd hrelates hlt.ne
    · exact absurd hrelates hlt.asymm
  · refine ⟨eq, ⟨by decide, heq⟩, ?_⟩
    rintro op ⟨hop, hrelates⟩
    rcases hthree hop with rfl | rfl | rfl
    · exact absurd heq (ne_of_lt hrelates)
    · rfl
    · exact absurd heq (ne_of_gt hrelates)
  · refine ⟨gt, ⟨by decide, hgt⟩, ?_⟩
    rintro op ⟨hop, hrelates⟩
    rcases hthree hop with rfl | rfl | rfl
    · exact absurd hrelates hgt.asymm
    · exact absurd hrelates hgt.ne'
    · rfl

/-- **Comparisons by a place in a linear order are coherent.** -/
theorem Coherent.of_relates {α κ : Type} [LinearOrder κ] {operand : α → Prop} {place : α → κ → Prop}
    {holds : Comparison → α → α → Prop} (hplace : ∀ a, operand a → ∃ v, place a v)
    (h : ∀ op a b v w, place a v → place b w → (holds op a b ↔ op.Relates v w)) :
    Coherent operand holds where
  trichotomy := by
    intro a b ha hb
    obtain ⟨v, hv⟩ := hplace a ha
    obtain ⟨w, hw⟩ := hplace b hb
    simpa only [h _ a b v w hv hw] using existsUnique_relates v w
  le_iff := by
    intro a b ha hb
    obtain ⟨v, hv⟩ := hplace a ha
    obtain ⟨w, hw⟩ := hplace b hb
    rw [h le a b v w hv hw, h lt a b v w hv hw, h eq a b v w hv hw]
    exact le_iff_lt_or_eq
  ge_iff := by
    intro a b ha hb
    obtain ⟨v, hv⟩ := hplace a ha
    obtain ⟨w, hw⟩ := hplace b hb
    rw [h ge a b v w hv hw, h gt a b v w hv hw, h eq a b v w hv hw]
    exact le_iff_lt_or_eq.trans (or_congr Iff.rfl eq_comm)
  ne_iff := by
    intro a b ha hb
    obtain ⟨v, hv⟩ := hplace a ha
    obtain ⟨w, hw⟩ := hplace b hb
    rw [h ne a b v w hv hw, h eq a b v w hv hw]
    exact Iff.rfl
  trans := by
    intro op hop a b c ha hb hc
    obtain ⟨v, hv⟩ := hplace a ha
    obtain ⟨w, hw⟩ := hplace b hb
    obtain ⟨u, hu⟩ := hplace c hc
    rw [h op a b v w hv hw, h op b c w u hw hu, h op a c v u hv hu]
    have hthree : op = lt ∨ op = le ∨ op = eq := by simpa using hop
    rcases hthree with rfl | rfl | rfl
    · exact lt_trans
    · exact le_trans
    · exact Eq.trans

end Comparison

/-! ### The laws -/

namespace Expr

variable (vars : Variables) (limit : Nat)

/-- A comparison of two expressions has the value true, to the given depth. -/
def Compares (op : Comparison) (l r : Expr) : Prop :=
  (compare op l r).valueWithin vars limit = .ok (.boolean true)

variable {vars limit}

/-- A comparison whose sides have values holds if they compare so. -/
theorem compares_iff {l r : Expr} {a b : Scalar} {op : Comparison} {p : Prop} [Decidable p]
    (hl : l.valueWithin vars limit = .ok a) (hr : r.valueWithin vars limit = .ok b)
    (h : a.compare op b = .ok (decide p)) : Compares vars (limit + 1) op l r ↔ p := by
  unfold Compares
  rw [valueWithin_compare hl hr, h]
  show Except.ok (Scalar.boolean (decide p)) = .ok (.boolean true) ↔ p
  rw [Except.ok.injEq, Scalar.boolean.injEq, decide_eq_true_iff]

/-- Things that cannot be compared never compare. -/
theorem not_compares {l r : Expr} {a b : Scalar} {op : Comparison} {e : EvalError}
    (hl : l.valueWithin vars limit = .ok a) (hr : r.valueWithin vars limit = .ok b)
    (h : a.compare op b = .error e) : ¬ Compares vars (limit + 1) op l r := by
  unfold Compares
  rw [valueWithin_compare hl hr, h]
  exact nofun

end Expr

/-- **Comparisons are a coherent order by exact value.**  A condition that compares two expressions holds if
the comparison has the value true.  Between numbers, integers and doubles alike, it has this value exactly if
their exact values stand in the relation that it asks for, and between strings exactly if their code points
do, in the order of lists; so the expressions that have a number other than not-a-number keep the laws of an
order, and so do those that have a string.  Beside not-a-number only "not equal" holds.  A truth value and a
number never compare.  And if two texts parse, the comparison of the one with the other holds exactly if that
of the other with the one by the operator turned round holds. -/
theorem comparison_laws (vars : Variables) (limit : Nat) :
    let hasNumber (e : Expr) (x : Number) : Prop := e.valueWithin vars limit = .ok (.number x)
    let hasString (e : Expr) (s : String) : Prop := e.valueWithin vars limit = .ok (.string s)
    let compares := Expr.Compares vars (limit + 1)
    (∀ op l r text, Expr.parseWithin (limit + 1) text = .ok (.compare op l r) →
      ((Condition.decision (limit + 1) text vars).holds = true ↔ compares op l r)) ∧
    (∀ (op : Comparison) l r x y v w, hasNumber l x → hasNumber r y →
      x.exactValue? = some v → y.exactValue? = some w →
      (compares op l r ↔ op.Relates v w)) ∧
    (∀ (op : Comparison) l r s t, hasString l s → hasString r t →
      (compares op l r ↔ op.Relates (Text.codePoints s) (Text.codePoints t))) ∧
    Comparison.Coherent (fun e => ∃ x, hasNumber e x ∧ x ≠ .double .nan) compares ∧
    Comparison.Coherent (fun e => ∃ s, hasString e s) compares ∧
    (∀ op l r x y, hasNumber l x → hasNumber r y → x = .double .nan ∨ y = .double .nan →
      (compares op l r ↔ op = .ne)) ∧
    (∀ op l r b x, l.valueWithin vars limit = .ok (.boolean b) → hasNumber r x →
      ¬ compares op l r ∧ ¬ compares op r l) ∧
    ∀ (op : Comparison) depth s t l r, Expr.parse s = .ok l → Expr.parse t = .ok r →
      (Condition.decision depth (op.between s t) vars).holds =
        (Condition.decision depth (op.mirrored.between t s) vars).holds := by
  intro hasNumber hasString compares
  have hnumbers (op : Comparison) (l r : Expr) (v w : ExtendedRational)
      (hl : ∃ x, hasNumber l x ∧ x.exactValue? = some v)
      (hr : ∃ y, hasNumber r y ∧ y.exactValue? = some w) :
      compares op l r ↔ op.Relates v w := by
    obtain ⟨x, hx, hv⟩ := hl
    obtain ⟨y, hy, hw⟩ := hr
    exact Expr.compares_iff hx hy (Scalar.compare_number hv hw op)
  have hstrings (op : Comparison) (l r : Expr) (points others : List ℕ)
      (hl : ∃ s, hasString l s ∧ Text.codePoints s = points)
      (hr : ∃ t, hasString r t ∧ Text.codePoints t = others) :
      compares op l r ↔ op.Relates points others := by
    obtain ⟨s, hs, rfl⟩ := hl
    obtain ⟨t, ht, rfl⟩ := hr
    exact Expr.compares_iff hs ht (Scalar.compare_string s t op)
  refine ⟨fun op l r text hparse => Condition.holds_iff_of_parseWithin hparse vars,
    fun op l r x y v w hx hy hv hw => hnumbers op l r v w ⟨x, hx, hv⟩ ⟨y, hy, hw⟩,
    fun op l r s t hs ht => hstrings op l r _ _ ⟨s, hs, rfl⟩ ⟨t, ht, rfl⟩,
    .of_relates ?_ hnumbers, .of_relates ?_ hstrings,
    fun op l r x y hx hy hnan => Expr.compares_iff hx hy (Scalar.compare_nan hnan op), ?_, ?_⟩
  · rintro e ⟨x, hx, hnan⟩
    obtain ⟨v, hv⟩ := Number.exists_exactValue? hnan
    exact ⟨v, x, hx, hv⟩
  · rintro e ⟨s, hs⟩
    exact ⟨_, s, hs, rfl⟩
  · intro op l r b x hl hr
    exact ⟨Expr.not_compares hl hr rfl, Expr.not_compares hr hl rfl⟩
  · intro op depth s t l r hs ht
    refine Bool.eq_iff_iff.mpr ⟨Condition.holds_between_mirrored hs ht, fun h => ?_⟩
    have hagain := Condition.holds_between_mirrored ht hs h
    rwa [Comparison.mirrored_mirrored] at hagain

/-- The least integer that is no double is greater than the double next to it; beside not-a-number only "not
equal" holds; upper case comes first; a truth value does not equal one; and a comparison whose left side has
no value is turned round. -/
theorem comparison_laws_beyond_doubles :
    let vars : Variables := .ofList [("near", .double (.ofInt 9007199254740992)), ("nan", .double .nan)]
    let decision (text : String) : Decision := Condition.decision Depth.standard text vars
    let next : Expr := .literal (.number (.integer 9007199254740993))
    Number.exactValue? (.double (.ofInt 9007199254740992)) = some ((9007199254740992 : ℚ) : WithTop ℚ) ∧
    (decision "9007199254740993 > near").holds = true ∧
    (decision "nan != nan").holds = true ∧
    (decision "'Z' <= 'a'").holds = true ∧
    (∃! op, op ∈ [Comparison.lt, .eq, .gt] ∧ Expr.Compares vars Depth.standard op next (.reference "near")) ∧
    ¬ Expr.Compares vars Depth.standard .eq (.literal (.boolean true)) (.literal (.number (.integer 1))) ∧
    (decision (Comparison.lt.between "missing" "2")).holds =
      (decision (Comparison.gt.between "2" "missing")).holds := by
  intro vars decision next
  have hexact : Number.exactValue? (.double (.ofInt 9007199254740992)) =
      some ((9007199254740992 : ℚ) : WithTop ℚ) := by decide +kernel
  have hnear : (Expr.reference "near").valueWithin vars 969 =
      .ok (.number (.double (.ofInt 9007199254740992))) := eq_ok_of_toOption (by decide +kernel)
  have hnan : (Expr.reference "nan").valueWithin vars 969 = .ok (.number (.double .nan)) :=
    eq_ok_of_toOption (by decide +kernel)
  obtain ⟨htext, hnumbers, hstrings, hcoherent, -, hnot, hkinds, hmirrored⟩ := comparison_laws vars 969
  have hgreater := (htext .gt next (.reference "near") "9007199254740993 > near"
    (eq_ok_of_toOption (by decide +kernel))).mpr
    ((hnumbers .gt _ _ _ _ _ _ rfl hnear rfl hexact).mpr (by decide +kernel))
  have hunequal := (htext .ne (.reference "nan") (.reference "nan") "nan != nan"
    (eq_ok_of_toOption (by decide +kernel))).mpr ((hnot .ne _ _ _ _ hnan hnan (.inl rfl)).mpr rfl)
  have hupper := (htext .le (.literal (.string "Z")) (.literal (.string "a")) "'Z' <= 'a'"
    (eq_ok_of_toOption (by decide +kernel))).mpr
    ((hstrings .le _ _ _ _ rfl rfl).mpr (by decide +kernel))
  have hone := hcoherent.trichotomy next (.reference "near") ⟨_, rfl, nofun⟩
    ⟨_, hnear, by decide +kernel⟩
  have hkind := (hkinds .eq (.literal (.boolean true)) (.literal (.number (.integer 1))) true _ rfl rfl).1
  have hturned := hmirrored .lt Depth.standard "missing" "2" (.reference "missing")
    (.literal (.number (.integer 2))) (eq_ok_of_toOption (by decide +kernel))
    (eq_ok_of_toOption (by decide +kernel))
  exact ⟨hexact, hgreater, hunequal, hupper, hone, hkind, hturned⟩

end DecisionFlow
