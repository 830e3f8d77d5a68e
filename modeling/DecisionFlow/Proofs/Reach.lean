import DecisionFlow.Condition

/-!
# What bounded computations take

Parsing and valuing draw on a supply of depth.  This module says how much of it they take, and that
this is all that the supply matters for: a computation whose reach is within the supply gives what
the unbounded one gives, and any other one reports that it went too deep.

* `Bounded.within` — a result, clipped by the depth that it takes; `within_bind` is the one fact
  about it, for a computation and another one after it;
* `ParseState.reach` — the most that is open at one place while tokens are read;
* `Expr.reach` — the levels of an expression that valuing enters, under given variables;
* `Condition.reach` — both together, for a text;
* `truthWithin_eq` — the bound decides whether there is an answer, never which.
-/

namespace DecisionFlow

namespace Bounded

variable {ε δ α β : Type}

/-- The result of a computation that takes some depth, if that is within the limit. -/
def within (limit reach : Nat) (r : Except ε α) : Except (Bounded ε) α :=
  if reach ≤ limit then r.mapError because else .error tooDeep

/-- What is taken after a result: nothing after an error. -/
def after (r : Except ε α) (reach : α → Nat) : Nat :=
  match r with
  | .ok a => reach a
  | .error _ => 0

@[simp] theorem after_zero (r : Except ε α) : after r (fun _ => 0) = 0 := by
  cases r <;> rfl

theorem after_bind (r : Except ε α) (f : α → Except ε β) (reach : β → Nat) :
    after (r.bind f) reach = after r fun a => after (f a) reach := by
  cases r <;> rfl

theorem after_mapError (r : Except ε α) (f : ε → δ) (reach : α → Nat) :
    after (r.mapError f) reach = after r reach := by
  cases r <;> rfl

theorem mapError_because (limit : Nat) (r : Except ε α) : r.mapError because = within limit 0 r :=
  (if_pos (Nat.zero_le limit)).symm

theorem ok_eq_within (limit : Nat) (a : α) :
    (.ok a : Except (Bounded ε) α) = within limit 0 (.ok a) :=
  mapError_because limit (.ok a)

theorem within_of_le {limit reach : Nat} (r : Except ε α) (h : reach ≤ limit) :
    within limit reach r = r.mapError because := if_pos h

theorem within_of_lt {limit reach : Nat} (r : Except ε α) (h : limit < reach) :
    within limit reach r = .error tooDeep := if_neg (Nat.not_le.mpr h)

theorem within_eq_tooDeep_iff {limit reach : Nat} {r : Except ε α} :
    within limit reach r = .error tooDeep ↔ limit < reach := by
  by_cases h : reach ≤ limit
  · rw [within_of_le r h]
    refine ⟨fun hdeep => ?_, fun hlt => absurd h (Nat.not_le.mpr hlt)⟩
    cases r with
    | ok a => cases hdeep
    | error e => cases hdeep
  · simp [within_of_lt r (Nat.not_le.mp h), Nat.not_le.mp h]

/-- An error that has nothing to do with depth is there without a limit. -/
theorem eq_error_of_within {limit reach : Nat} {r : Except ε α} {e : ε}
    (h : within limit reach r = .error (because e)) : r = .error e := by
  unfold within at h
  split at h
  · cases r with
    | ok a => cases h
    | error found =>
      cases h
      rfl
  · cases h

theorem mapError_because_eq_ok_iff {r : Except ε α} {a : α} :
    r.mapError because = .ok a ↔ r = .ok a := by
  cases r with
  | ok b => exact ⟨fun h => congrArg _ (Except.ok.inj h), fun h => congrArg _ (Except.ok.inj h)⟩
  | error e => exact ⟨nofun, nofun⟩

theorem within_succ (limit reach : Nat) (r : Except ε α) :
    within (limit + 1) (reach + 1) r = within limit reach r := by
  simp only [within, Nat.add_le_add_iff_right]

theorem within_mapError (limit reach : Nat) (r : Except ε α) (f : ε → δ) :
    (within limit reach r).mapError (Bounded.map f) = within limit reach (r.mapError f) := by
  unfold within
  split
  · cases r <;> rfl
  · rfl

theorem within_ite {p : Prop} [Decidable p] (limit m n : Nat) (r s : Except ε α) :
    (if p then within limit m r else within limit n s) =
      within limit (if p then m else n) (if p then r else s) := by
  split <;> rfl

/-- **A computation and another one after it** take the greater of what they take, and give what they
give without a limit. -/
theorem within_bind (limit m : Nat) (n : α → Nat) (r : Except ε α) (f : α → Except ε β) :
    (within limit m r).bind (fun a => within limit (n a) (f a)) =
      within limit (max m (after r n)) (r.bind f) := by
  by_cases hm : m ≤ limit
  · rw [within_of_le r hm]
    cases r with
    | error e =>
      have hmax : max m (after (.error e : Except ε α) n) ≤ limit := by
        simpa only [after, Nat.max_le, Nat.zero_le, and_true] using hm
      rw [within_of_le _ hmax]
      rfl
    | ok a =>
      show within limit (n a) (f a) = within limit (max m (n a)) (f a)
      by_cases hn : n a ≤ limit
      · rw [within_of_le _ hn, within_of_le _ (Nat.max_le.mpr ⟨hm, hn⟩)]
      · rw [within_of_lt _ (Nat.not_le.mp hn), within_of_lt _ (by omega)]
  · rw [within_of_lt r (Nat.not_le.mp hm), within_of_lt _ (by omega)]
    rfl

end Bounded

open Bounded (within after after_zero after_bind mapError_because ok_eq_within within_bind)

/-! ### Parsing -/

/-- The most that the negations and parentheses open at one place cost while the tokens are read, up
to the first token that cannot stand where it stands. -/
def ParseState.reach (state : ParseState) : List Token → Nat
  | [] => 0
  | token :: rest => after (state.step token) fun next => max next.nesting (next.reach rest)

theorem ParseState.stepsWithin_eq (depth : Nat) (state : ParseState) (tokens : List Token) :
    state.stepsWithin depth tokens = within depth (state.reach tokens) (state.steps tokens) := by
  induction tokens generalizing state with
  | nil => exact mapError_because depth (.ok state)
  | cons token rest ih =>
    simp only [ParseState.stepsWithin, ParseState.reach, ParseState.steps]
    cases state.step token with
    | error e => exact mapError_because depth (.error e)
    | ok next =>
      show (if next.nesting ≤ depth then next.stepsWithin depth rest else .error .tooDeep) =
        within depth (max next.nesting (next.reach rest)) (next.steps rest)
      rw [ih next]
      by_cases hnesting : next.nesting ≤ depth
      · simp only [within, hnesting, Nat.max_le, true_and, if_true]
      · simp only [within, hnesting, Nat.max_le, false_and, if_false]

/-- A list of tokens is parsed as at any depth, or else it is too deep. -/
theorem Expr.ofTokensWithin_eq (depth : Nat) (tokens : List Token) :
    Expr.ofTokensWithin depth tokens =
      within depth (ParseState.start.reach tokens) (Expr.ofTokens tokens) := by
  unfold Expr.ofTokensWithin Expr.ofTokens
  by_cases hempty : tokens = []
  · subst hempty
    exact mapError_because depth (.error SyntaxError.empty)
  · rw [if_neg hempty, if_neg hempty, ParseState.stepsWithin_eq]
    by_cases hreach : ParseState.start.reach tokens ≤ depth
    · simp only [within, if_pos hreach]
      cases ParseState.start.steps tokens <;> rfl
    · simp only [within, if_neg hreach]

/-! ### Valuing -/

namespace Expr

/-- The number of levels of an expression that valuing enters.  An operand that is not looked at is
not entered, however deep it is. -/
def reach (vars : Variables) : Expr → Nat
  | literal _ => 1
  | reference _ => 1
  | negation operand => operand.reach vars + 1
  | compare _ left right =>
    max (left.reach vars) (after (left.value vars) fun _ => right.reach vars) + 1
  | logical op left right =>
    max (left.reach vars) (after ((left.value vars).bind (Scalar.boolean? (.connective op)))
      fun l => if l = op.decisive then 0 else right.reach vars) + 1

/-- **The value to a limited depth is the value**, unless valuing goes deeper. -/
theorem valueWithin_eq_within (vars : Variables) (e : Expr) (limit : Nat) :
    e.valueWithin vars limit = within limit (e.reach vars) (e.value vars) := by
  induction e generalizing limit with
  | literal s =>
    cases limit with
    | zero => rfl
    | succ limit => rfl
  | reference name =>
    cases limit with
    | zero => rfl
    | succ limit =>
      rw [reach, Bounded.within_succ]
      exact mapError_because limit (vars.scalar? name)
  | negation operand ih =>
    cases limit with
    | zero => rfl
    | succ limit =>
      rw [reach, Bounded.within_succ]
      show (operand.valueWithin vars limit).bind (fun s =>
        (lift (s.boolean? .negation)).bind fun b => .ok (Scalar.boolean !b)) = _
      simp only [ih limit, lift, mapError_because limit, ok_eq_within limit, within_bind, after_zero,
        Nat.max_zero]
      rfl
  | compare op left right ihl ihr =>
    cases limit with
    | zero => rfl
    | succ limit =>
      rw [reach, Bounded.within_succ]
      show (left.valueWithin vars limit).bind (fun l => (right.valueWithin vars limit).bind fun r =>
        (lift (l.compare op r)).bind fun b => .ok (Scalar.boolean b)) = _
      simp only [ihl limit, ihr limit, lift, mapError_because limit, ok_eq_within limit, within_bind,
        after_zero, Nat.max_zero]
      rfl
  | logical op left right ihl ihr =>
    cases limit with
    | zero => rfl
    | succ limit =>
      rw [reach, Bounded.within_succ]
      show (left.valueWithin vars limit).bind (fun s =>
        (lift (s.boolean? (.connective op))).bind fun l =>
          if l = op.decisive then .ok (Scalar.boolean l)
          else (right.valueWithin vars limit).bind fun t =>
            (lift (t.boolean? (.connective op))).bind fun r => .ok (Scalar.boolean r)) = _
      simp only [ihl limit, ihr limit, lift, mapError_because limit, ok_eq_within limit,
        Bounded.within_ite, within_bind, after_zero, after_bind, Nat.max_zero, Nat.zero_max]
      rfl

end Expr

/-! ### Texts -/

namespace Condition

/-- How deep the truth value of a text takes the parser and the valuing of its expression. -/
def reach (text : String) (vars : Variables) : Nat :=
  after (tokenize text) fun tokens =>
    max (ParseState.start.reach tokens) (after (Expr.ofTokens tokens) fun e => e.reach vars)

/-- **The bound decides whether there is an answer, never which.** -/
theorem truthWithin_eq (depth : Nat) (text : String) (vars : Variables) :
    truthWithin depth text vars = within depth (reach text vars) (truth text vars) := by
  unfold truthWithin truth reach Expr.parseWithin Expr.parse
  cases tokenize text with
  | error e => exact mapError_because depth (.error _)
  | ok tokens =>
    simp only [bind, Expr.ofTokensWithin_eq, Expr.valueWithin_eq_within, Expr.lift,
      mapError_because depth, Bounded.within_mapError, within_bind, Bounded.after_mapError, after_zero,
      Nat.max_zero]
    rfl

end Condition

end DecisionFlow
