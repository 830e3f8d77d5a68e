import DecisionFlow.Proofs.Acceptance
import DecisionFlow.Proofs.Decompilation
import DecisionFlow.Proofs.Resumption

/-!
# How the runs of compiled actions end

What compiles has, within the depth that compiling takes, all the depth that running takes: a chain of
nodes asks for no more of it than its members do.  So nothing keeps the run of a compiled action from
coming to its end, but for a loop whose count is too long to be reported.

* `Action.runningDepth` — the depth that a run of an action takes;
* `Compiles.chainDepth_le` — no more than compiling takes;
* `Action.meetsLongCount` — whether a run comes to a loop whose count is too long;
* `Halts` — something that happens to runs leaves the variables, and fails for such a count only;
* `Action.halts_run` — every well-formed action does, given its depth;
* `execute_compiled` — so how a run ends can be told beforehand.
-/

namespace DecisionFlow

/-! ### The depth of a run -/

namespace Action

/-- The depth that a run of an action takes.  The rest of a sequence, if that is a sequence, adds
nothing to it. -/
def runningDepth : Action → Nat
  | condition _ whenTrue whenFalse =>
    Depth.delegation + max whenTrue.runningDepth whenFalse.runningDepth
  | loop _ body => Depth.delegation + body.runningDepth
  | sequence first next =>
    max (Depth.delegation + first.runningDepth)
      (if next.isSequence then next.runningDepth else Depth.delegation + next.runningDepth)
  | absent | sms _ | email _ _ | assign _ _ | increase _ _ | fail _ | skip => 0

/-- The depth that the members of a chain take, each handed over. -/
def chainDepth (a : Action) : Nat :=
  if a.isSequence then a.runningDepth else Depth.delegation + a.runningDepth

theorem runningDepth_sequence (first next : Action) :
    (sequence first next).runningDepth =
      max (Depth.delegation + first.runningDepth) next.chainDepth := rfl

theorem runningDepth_le_chainDepth (a : Action) : a.runningDepth ≤ a.chainDepth := by
  unfold chainDepth
  split
  · exact Nat.le_refl _
  · exact Nat.le_add_left _ _

/-- What may be left out takes no depth where it is. -/
theorem runningDepth_le {a : Action} {depth : Nat} (h : a.isPresent = true → a.chainDepth ≤ depth) :
    a.runningDepth ≤ depth := by
  cases hpresent : a.isPresent with
  | true => exact Nat.le_trans a.runningDepth_le_chainDepth (h hpresent)
  | false =>
    rw [eq_absent_of_isPresent hpresent]
    exact Nat.zero_le depth

/-- **A chain takes the depth of its members**, however many there are. -/
theorem chainDepth_andNext_le {first rest : Action} {depth : Nat} (hsequence : first.isSequence = false)
    (hfirst : Depth.delegation + first.runningDepth ≤ depth)
    (hrest : rest.isPresent = true → rest.chainDepth ≤ depth) :
    (first.andNext rest).chainDepth ≤ depth := by
  cases hpresent : rest.isPresent with
  | true =>
    rw [andNext_of_isPresent first hpresent]
    exact Nat.max_le.mpr ⟨hfirst, hrest hpresent⟩
  | false =>
    rw [eq_absent_of_isPresent hpresent]
    show first.chainDepth ≤ depth
    rw [chainDepth, hsequence]
    exact hfirst

end Action

/-- **Compiling takes more depth than running.** -/
theorem Compiles.chainDepth_le {depth : Nat} {tree : Tree} {a : Action} (h : Compiles depth tree a)
    (hpresent : a.isPresent = true) : a.chainDepth ≤ depth := by
  -- A leaf is handed over, and a compiled link costs that and handing over what is behind it.
  have hleaf {depth : Nat} (hchain : Depth.compiledChain ≤ depth) : Depth.delegation + 0 ≤ depth :=
    Nat.le_trans (by decide) hchain
  have hlink {inside depth : Nat} (hinside : inside ≤ depth) :
      Depth.delegation + (Depth.delegation + inside) ≤ depth + Depth.compiledLink := by
    simp only [Depth.delegation, Depth.compiledLink]
    omega
  induction h with
  | absent => cases hpresent
  | unknown => cases hpresent
  | sms hchain _ _ ih => exact Action.chainDepth_andNext_le rfl (hleaf hchain) ih
  | email hchain _ _ ih => exact Action.chainDepth_andNext_le rfl (hleaf hchain) ih
  | condition _ _ _ _ iht ihf ihn =>
    have hbranches := Nat.max_le.mpr ⟨Action.runningDepth_le iht, Action.runningDepth_le ihf⟩
    exact Action.chainDepth_andNext_le rfl (hlink hbranches) ihn
  | loop _ _ _ ihb ihn =>
    exact Action.chainDepth_andNext_le rfl (hlink (Action.runningDepth_le ihb)) ihn

/-! ### Runs that come to a long count -/

/-- Whether a run on these variables, with so much depth, comes to a loop whose count is too long to be
reported. -/
def Action.meetsLongCount (vars : Variables) : Action → Nat → Bool
  | condition expression whenTrue whenFalse, room =>
    if (Condition.decision room expression vars).holds then
      whenTrue.meetsLongCount vars (room - Depth.delegation)
    else whenFalse.meetsLongCount vars (room - Depth.delegation)
  | loop count body, room =>
    Numeral.isTooLong count ||
      (decide (0 < count.toNat) && body.meetsLongCount vars (room - Depth.delegation))
  | sequence first next, room =>
    first.meetsLongCount vars (room - Depth.delegation) ||
      next.meetsLongCount vars (if next.isSequence then room else room - Depth.delegation)
  | absent, _ | sms _, _ | email _ _, _ | assign _ _, _ | increase _ _, _ | fail _, _ | skip, _ => false

theorem Action.meetsLongCount_condition (vars : Variables) (expression : String)
    (whenTrue whenFalse : Action) (room : Nat) :
    (condition expression whenTrue whenFalse).meetsLongCount vars room =
      (branch whenTrue whenFalse (Condition.decision room expression vars).holds).meetsLongCount vars
        (room - Depth.delegation) := by
  rw [meetsLongCount]
  cases (Condition.decision room expression vars).holds <;> rfl

/-- Where every count can be written, no run comes to one that cannot. -/
theorem Action.meetsLongCount_of_countsWritable {a : Action} (h : a.CountsWritable)
    (vars : Variables) (room : Nat) : a.meetsLongCount vars room = false := by
  induction a generalizing room with
  | condition expression whenTrue whenFalse iht ihf =>
    unfold meetsLongCount
    split
    · exact iht h.1 _
    · exact ihf h.2 _
  | loop count body ih =>
    unfold meetsLongCount
    rw [h.1, ih h.2, Bool.and_false]
    rfl
  | sequence first next ihf ihn =>
    unfold meetsLongCount
    rw [ihf h.1, ihn h.2]
    rfl
  | _ => rfl

/-! ### What halts -/

/-- What happens to a run that begins with these variables leaves them as they are, and it fails only
if it comes to a count that is too long, which it then does for that reason. -/
structure Halts (vars : Variables) (happen : Run → Run) (long : Bool) : Prop
    extends Resumes happen where
  vars_eq : (happen (.start vars)).vars = vars
  failure_eq : (happen (.start vars)).failure = if long then some .countTooLong else none

namespace Halts

variable {vars : Variables} {happen later : Run → Run} {long longLater : Bool}

theorem nothing (vars : Variables) : Halts vars (fun r => r) false where
  toResumes := .nothing
  vars_eq := rfl
  failure_eq := rfl

theorem report (vars : Variables) (event : Event) : Halts vars (Run.report event) false where
  toResumes := (Resumes.compositional .plain).report event
  vars_eq := rfl
  failure_eq := rfl

theorem decided (vars : Variables) (expression : String) (decision : Decision) :
    Halts vars (Run.decided expression decision) false where
  toResumes := (Resumes.compositional .plain).decided expression decision
  vars_eq := by
    unfold Run.decided
    cases decision.event? expression <;> rfl
  failure_eq := by
    unfold Run.decided
    cases decision.event? expression <;> rfl

theorem fail (vars : Variables) : Halts vars (Run.fail .countTooLong) true where
  toResumes := (Resumes.compositional .plain).fail .countTooLong
  vars_eq := rfl
  failure_eq := rfl

/-- One thing and then another. -/
theorem andThen (h : Halts vars happen long) (hlater : Halts vars later longLater) :
    Halts vars (fun r => later (happen r)) (long || longLater) := by
  have hafter : (later (happen (.start vars))).vars = vars ∧
      (later (happen (.start vars))).failure =
        if long || longLater then some .countTooLong else none := by
    have hfailure := h.failure_eq
    cases long with
    | true =>
      rw [hlater.absorbs _ (by rw [hfailure]; exact Option.some_ne_none _)]
      exact ⟨h.vars_eq, hfailure⟩
    | false =>
      rw [hlater.adds _ hfailure, h.vars_eq]
      exact ⟨hlater.vars_eq, hlater.failure_eq⟩
  exact ⟨h.toResumes.andThen hlater.toResumes, hafter.1, hafter.2⟩

theorem andReport (h : Halts vars happen long) (event : Event) :
    Halts vars (fun r => (happen r).report event) long := by
  have hreported := h.andThen (report vars event)
  rw [Bool.or_false] at hreported
  exact hreported

/-- What is repeated comes to a long count in the first round, if it does and there is one. -/
theorem repeated (total : Int) (h : Halts vars happen long) (remaining : Nat) :
    Halts vars (Run.repeated total happen remaining) (decide (0 < remaining) && long) := by
  induction remaining with
  | zero => exact nothing vars
  | succ remaining ih =>
    have hround := ((report vars (.iteration (total - remaining) total)).andThen h).andThen ih
    have hlong : (false || long || (decide (0 < remaining) && long)) =
        (decide (0 < remaining + 1) && long) := by
      cases long <;> simp
    rw [hlong] at hround
    rw [Run.repeated_succ]
    exact ⟨.proceed hround.adds, hround.vars_eq, hround.failure_eq⟩

/-- Handing over is doing, where the depth is enough for it. -/
theorem delegate {perform : Nat → Run → Run} {room : Nat} (hroom : Depth.delegation ≤ room)
    (h : Halts vars (perform (room - Depth.delegation)) long) (a : Action) :
    Halts vars (Executor.plain.delegate a perform room) long := by
  have htake : Depth.take? Depth.delegation room = some (room - Depth.delegation) :=
    Depth.take?_eq_some.mpr (Nat.sub_add_cancel hroom).symm
  have hdelegate : Executor.plain.delegate a perform room = perform (room - Depth.delegation) := by
    funext r
    rw [Executor.delegate_eq rfl, htake]
    rfl
  rw [hdelegate]
  exact h

/-- What is left out comes to no count at all. -/
theorem delegateIfPresent {a : Action} {room : Nat} (hroom : Depth.delegation ≤ room)
    (h : a.isPresent = true → Halts vars (a.run .plain (room - Depth.delegation))
      (a.meetsLongCount vars (room - Depth.delegation))) :
    Halts vars (Executor.plain.delegateIfPresent a (a.run .plain) room)
      (a.meetsLongCount vars (room - Depth.delegation)) := by
  unfold Executor.delegateIfPresent
  cases hpresent : a.isPresent with
  | true => exact delegate hroom (h hpresent) a
  | false =>
    rw [Action.eq_absent_of_isPresent hpresent]
    exact nothing vars

end Halts

/-- **A well-formed action halts** within the depth that it takes. -/
theorem Action.halts_run {a : Action} (h : a.WellFormed) (vars : Variables) {room : Nat}
    (hroom : a.runningDepth ≤ room) :
    Halts vars (a.run .plain room) (a.meetsLongCount vars room) := by
  induction a generalizing room with
  | sms phoneNumber => exact .report vars (.smsSent phoneNumber)
  | email sender receiver => exact .report vars (.emailSent sender receiver)
  | condition expression whenTrue whenFalse iht ihf =>
    obtain ⟨-, htrue, hfalse⟩ := h
    simp only [runningDepth] at hroom
    have hbranch (holds : Bool) :
        Halts vars (Executor.plain.delegateIfPresent (branch whenTrue whenFalse holds)
          ((branch whenTrue whenFalse holds).run .plain) room)
          ((branch whenTrue whenFalse holds).meetsLongCount vars (room - Depth.delegation)) := by
      refine .delegateIfPresent (by omega) fun hpresent => ?_
      cases holds with
      | true => exact iht (htrue hpresent) (by omega)
      | false => exact ihf (hfalse hpresent) (by omega)
    -- The decision depends on the variables, with which the run begins.
    have hchosen (decision : Decision) :=
      (Halts.decided vars expression decision).andThen (hbranch decision.holds)
    refine ⟨resumes_run .plain _ room, ?_, ?_⟩
    · rw [run_condition]
      exact (hchosen _).vars_eq
    · rw [run_condition, meetsLongCount_condition]
      exact (hchosen _).failure_eq
  | loop count body ih =>
    obtain ⟨-, hbody⟩ := h
    simp only [runningDepth] at hroom
    rw [funext fun r => run_loop .plain room r count body, meetsLongCount]
    cases Numeral.isTooLong count with
    | true => exact .fail vars
    | false =>
      have hstarted := Halts.report vars (.loopStarted count)
      cases hpresent : body.isPresent with
      | true =>
        have hinside := ih (hbody hpresent) (Nat.le_sub_of_add_le' hroom)
        have hrounds := (hinside.delegate (by omega) body).repeated count count.toNat
        exact (hstarted.andThen hrounds).andReport (.loopCompleted count)
      | false =>
        have hskipped := hstarted.andReport .loopSkipped
        rw [eq_absent_of_isPresent hpresent, meetsLongCount, Bool.and_false]
        exact hskipped
  | sequence first next ihf ihn =>
    obtain ⟨hfirst, -, hnext⟩ := h
    rw [runningDepth_sequence] at hroom
    rw [funext fun r => run_sequence .plain room r first next, meetsLongCount]
    obtain ⟨hroomFirst, hroomNext⟩ := Nat.max_le.mp hroom
    have hfirst := (ihf hfirst (Nat.le_sub_of_add_le' hroomFirst)).delegate (by omega) first
    unfold chainDepth at hroomNext
    cases hsequence : next.isSequence with
    | true =>
      rw [hsequence] at hroomNext
      exact hfirst.andThen (ihn hnext hroomNext)
    | false =>
      rw [hsequence] at hroomNext
      exact hfirst.andThen
        ((ihn hnext (Nat.le_sub_of_add_le' hroomNext)).delegate (by omega) next)
  | absent | assign _ _ | increase _ _ | fail _ | skip => exact h.elim

/-- What a tree compiles to halts, wherever there is as much depth as compiling took. -/
theorem Compiles.halts_run {depth : Nat} {tree : Tree} {a : Action} (h : Compiles depth tree a)
    (hpresent : a.isPresent = true) (vars : Variables) {room : Nat} (hroom : depth ≤ room) :
    Halts vars (a.run .plain room) (a.meetsLongCount vars room) :=
  Action.halts_run (h.decompile_eq.1 hpresent) vars
    (Nat.le_trans (Action.runningDepth_le h.chainDepth_le) hroom)

/-- **How the run of a compiled action ends.**  It leaves the variables as they are.  It fails exactly
if it comes to a loop whose count is too long to be reported, and then for that reason; so it does not
fail if all counts can be written. -/
theorem execute_compiled {depth room : Nat} {value : Value} {a : Action}
    (hcompiled : (compileValue depth value).result = .ok a) (hpresent : a.isPresent = true)
    (hroom : depth ≤ room) (vars : Variables) :
    (a.execute room .plain vars).vars = vars ∧
    (a.execute room .plain vars).failure =
      (if a.meetsLongCount vars room then some .countTooLong else none) ∧
    (a.CountsWritable → (a.execute room .plain vars).failure = none) := by
  obtain ⟨tree, -, hresult⟩ := compileValue_eq_ok hcompiled
  have hhalts := (compiles_of_ok hresult).halts_run hpresent vars hroom
  refine ⟨hhalts.vars_eq, hhalts.failure_eq, fun hcounts => ?_⟩
  have hfailure := hhalts.failure_eq
  rw [Action.meetsLongCount_of_countsWritable hcounts] at hfailure
  exact hfailure

/-- A loop with a long count behind a condition: whether the run fails depends on the variables. -/
theorem execute_compiled_long :
    let count : Int := (10 ^ 4300 : Nat)
    let endless : Value := .object [("type", .string "loop"),
      ("params", .object [("count", .integer count)])]
    let value : Value := .object [("type", .string "condition"),
      ("params", .object [("expression", .string "age >= 18")]), ("trueAction", endless)]
    let a : Action := .condition "age >= 18" (.loop count .absent) .absent
    let vars (age : Int) : Variables := .ofList [("age", .integer age)]
    (compileValue Depth.standard value).result = .ok a ∧
      (a.execute Depth.standard .plain (vars 20)).failure = some .countTooLong ∧
      (a.execute Depth.standard .plain (vars 10)).failure = none := by
  intro count endless value a vars
  have hcompiled : (compileValue Depth.standard value).result = .ok a :=
    eq_ok_of_toOption (by decide +kernel)
  have hends (age : Int) := execute_compiled hcompiled rfl (Nat.le_refl Depth.standard) (vars age)
  have hadult : a.meetsLongCount (vars 20) Depth.standard = true := by decide +kernel
  have hminor : a.meetsLongCount (vars 10) Depth.standard = false := by decide +kernel
  refine ⟨hcompiled, (hends 20).2.1.trans ?_, (hends 10).2.1.trans ?_⟩
  · rw [hadult]
    rfl
  · rw [hminor]
    rfl

/-- Not everything that compiles can be run. -/
theorem exists_compiled_execute_fails :
    ¬∀ (value : Value) (a : Action) (vars : Variables),
      (compileValue Depth.standard value).result = .ok a → a.isPresent = true →
        (a.execute Depth.standard .plain vars).failure = none := by
  intro hall
  let count : Int := (10 ^ 4300 : Nat)
  have hcompiled : (compileValue Depth.standard (.object [("type", .string "loop"),
      ("params", .object [("count", .integer count)])])).result = .ok (.loop count .absent) :=
    eq_ok_of_toOption (by decide +kernel)
  have hlong : Numeral.isTooLong count = true := by decide +kernel
  have hnone := hall _ _ .empty hcompiled rfl
  rw [Action.execute, Action.run_loop, hlong] at hnone
  exact nomatch hnone

end DecisionFlow
