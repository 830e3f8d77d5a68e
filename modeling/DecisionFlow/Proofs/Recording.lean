import DecisionFlow.Proofs.Resumption

/-!
# Recording what is handed over

An executor that records every action and then runs it changes nothing of a run but the record.  What
the record holds is said by what happens without it.

* `Executor.recorder` — the executor in question;
* `Erases` — with the record taken away, what happens is what happens without it;
* `Run.untold` — a run without its trail, on which nothing else depends;
* `Action.handsOver` — the actions that an action hands over; `Action.run_cases` says that an action
  that hands over others does nothing else but report;
* `callsFor` — the calls that come of handing over several actions; `calls_handOver` says that these
  are recorded;
* `Action.Whole` — an action whose sequences have both their members;
* `Call.Ends` — a call that a failure ends; `callsFor_ends` says that no call comes after it;
* `execute_recorder` — all this for a run from the beginning.
-/

namespace DecisionFlow

/-- The executor that records every action that is handed to it, and then runs it. -/
def Executor.recorder : Executor := .recording [] none

theorem Executor.holdsBack_recorder (a : Action) : recorder.holdsBack a = false := by
  unfold recorder holdsBack
  cases a.kind? <;> rfl

/-! ### Without the record -/

/-- A run without its record. -/
def Run.unrecorded (r : Run) : Run := { r with calls := #[] }

/-- Of what happens with a record, all but the record is what happens without it. -/
def Erases (recorded plain : Run → Run) : Prop :=
  ∀ r : Run, (recorded r).unrecorded = plain r.unrecorded

namespace Erases

variable {recorded plain : Run → Run}

theorem proceed (h : Erases recorded plain) : Erases (Run.proceed recorded) (Run.proceed plain) := by
  intro r
  by_cases hfailure : r.failure = none
  · have hsame : r.unrecorded.failure = none := hfailure
    rw [Run.proceed_of_none recorded hfailure, Run.proceed_of_none plain hsame]
    exact h r
  · have hsame : r.unrecorded.failure ≠ none := hfailure
    rw [Run.proceed_of_failure recorded hfailure, Run.proceed_of_failure plain hsame]

theorem note (a : Action) : Erases (Executor.recorder.note a) fun r => r := by
  intro r
  show (if h : a.isPresent = true then r.record none a h else r).unrecorded = r.unrecorded
  split
  · unfold Run.record Run.proceed
    cases r.failure <;> rfl
  · rfl

theorem compositional : Compositional Erases .recorder .plain where
  nothing _ := rfl
  andThen {f f' g g'} h hlater r := by rw [hlater (f r), h r]
  of_vars h r := h r.vars r
  proceed h := proceed h
  report _ := proceed fun _ => rfl
  assign _ _ := proceed fun _ => rfl
  fail _ := proceed fun _ => rfl
  note a := note a
  holdsBack a := Executor.holdsBack_recorder a

end Erases

/-- **Recording is transparent.** -/
theorem Action.unrecorded_execute (a : Action) (depth : Nat) (vars : Variables) :
    (a.execute depth .recorder vars).unrecorded = a.execute depth .plain vars :=
  Erases.compositional.run a depth (.start vars)

/-! ### Without the trail -/

/-- A run without its trail. -/
def Run.untold (r : Run) : Run := { r with trail := #[] }

/-- Runs that differ in their trails only. -/
theorem Run.eq_of_untold {r s : Run} (h : r.untold = s.untold) :
    r.vars = s.vars ∧ r.failure = s.failure ∧ r.calls = s.calls :=
  ⟨(congrArg Run.vars h : r.untold.vars = s.untold.vars),
    (congrArg Run.failure h : r.untold.failure = s.untold.failure),
    (congrArg Run.calls h : r.untold.calls = s.untold.calls)⟩

theorem Run.untold_report (event : Event) (r : Run) : (r.report event).untold = r.untold := by
  unfold report proceed
  cases r.failure <;> rfl

theorem Run.untold_decided (expression : String) (decision : Decision) (r : Run) :
    (r.decided expression decision).untold = r.untold := by
  unfold decided
  rw [untold_report]
  cases decision.event? expression with
  | none => rfl
  | some event => exact untold_report event r

/-- What happens does not depend on the trail. -/
theorem Resumes.untold_congr {happen : Run → Run} (h : Resumes happen) {r s : Run}
    (hrs : r.untold = s.untold) : (happen r).untold = (happen s).untold := by
  have hvars : r.vars = s.vars := (congrArg Run.vars hrs : r.untold.vars = s.untold.vars)
  have hcalls : r.calls = s.calls := (congrArg Run.calls hrs : r.untold.calls = s.untold.calls)
  have hfailure : r.failure = s.failure :=
    (congrArg Run.failure hrs : r.untold.failure = s.untold.failure)
  by_cases hr : r.failure = none
  · rw [h.adds r hr, h.adds s (hfailure ▸ hr), hvars]
    simp [Run.followedBy, Run.untold, hcalls]
  · rw [h.absorbs r hr, h.absorbs s (hfailure ▸ hr), hrs]

/-- The rounds of a loop hand over its body again and again. -/
theorem Resumes.untold_repeated (executor : Executor) (depth : Nat) (body : Action) (total : Int)
    (remaining : Nat) (r : Run) :
    (Run.repeated total (executor.delegate body (body.run executor) depth) remaining r).untold =
      (executor.handOver depth (List.replicate remaining body) r).untold := by
  have hhand := Resumes.handOver executor depth
  induction remaining generalizing r with
  | zero => rfl
  | succ remaining ih =>
    cases hfailure : r.failure with
    | some cause =>
      rw [(hhand _).absorbs r (by rw [hfailure]; exact nofun), Run.repeated, hfailure]
    | none =>
      have hbody := (hhand [body]).untold_congr
        (Run.untold_report (.iteration (total - remaining) total) r)
      rw [Run.repeated, hfailure]
      exact (ih _).trans ((hhand (List.replicate remaining body)).untold_congr hbody)

/-! ### What is handed over -/

namespace Run

theorem calls_proceed {happen : Run → Run} (h : ∀ r, (happen r).calls = r.calls) (r : Run) :
    (proceed happen r).calls = r.calls := by
  unfold proceed
  cases r.failure with
  | none => exact h r
  | some _ => rfl

theorem calls_report (event : Event) (r : Run) : (r.report event).calls = r.calls :=
  calls_proceed (fun _ => by rfl) r

theorem calls_assign (name : String) (value : Value) (r : Run) :
    (r.assign name value).calls = r.calls :=
  calls_proceed (fun _ => by rfl) r

theorem calls_fail (cause : RunFailure) (r : Run) : (r.fail cause).calls = r.calls :=
  calls_proceed (fun _ => by rfl) r

theorem calls_increase (name : String) (amount : Number) (r : Run) :
    (r.increase name amount).calls = r.calls := by
  refine calls_proceed (fun r => ?_) r
  cases sum (r.vars.get? name) amount with
  | ok total => exact calls_assign name (.number total) r
  | error cause => exact calls_fail cause r

end Run

namespace Action

/-- The actions that an action hands over, one after the other: a condition the branch that it chooses,
if that is there; a loop its body, once for each round; a sequence the members of its chain. -/
def handsOver (depth : Nat) (vars : Variables) : Action → List Action
  | condition expression whenTrue whenFalse =>
    let chosen := branch whenTrue whenFalse (Condition.decision depth expression vars).holds
    if chosen.isPresent then [chosen] else []
  | loop count body =>
    if Numeral.isTooLong count then []
    else if body.isPresent then List.replicate count.toNat body else []
  | sequence first next => first :: next.chain
  | _ => []

theorem handsOver_condition (depth : Nat) (vars : Variables) (expression : String)
    (whenTrue whenFalse : Action) :
    (condition expression whenTrue whenFalse).handsOver depth vars =
      if (branch whenTrue whenFalse (Condition.decision depth expression vars).holds).isPresent then
        [branch whenTrue whenFalse (Condition.decision depth expression vars).holds]
      else [] := by
  rw [handsOver]

theorem handsOver_loop (depth : Nat) (vars : Variables) (count : Int) (body : Action) :
    (loop count body).handsOver depth vars =
      if Numeral.isTooLong count then []
      else if body.isPresent then List.replicate count.toNat body else [] := by
  rw [handsOver]

variable (executor : Executor) (a : Action) (depth : Nat) (r : Run)

/-- **An action either hands over other actions**, and does nothing else but report, or it does what it
does by itself, and then calls nothing. -/
theorem run_cases :
    (a.run executor depth r).untold = (executor.handOver depth (a.handsOver depth r.vars) r).untold ∨
      (a.handsOver depth r.vars = [] ∧ (a.run executor depth r).calls = r.calls) := by
  cases a with
  | absent => exact .inr ⟨rfl, r.calls_fail .nothingToRun⟩
  | sms phoneNumber => exact .inr ⟨rfl, r.calls_report (.smsSent phoneNumber)⟩
  | email sender receiver => exact .inr ⟨rfl, r.calls_report (.emailSent sender receiver)⟩
  | condition expression whenTrue whenFalse =>
    left
    have hdecided := r.untold_decided expression (Condition.decision depth expression r.vars)
    rw [run_condition, handsOver_condition, Executor.delegateIfPresent]
    split
    · exact (Resumes.handOver executor depth [_]).untold_congr hdecided
    · exact hdecided
  | loop count body =>
    have hstarted := r.untold_report (.loopStarted count)
    rw [run_loop, handsOver_loop]
    split
    · exact .inr ⟨rfl, r.calls_fail .countTooLong⟩
    · left
      split
      · have hrounds := Resumes.untold_repeated executor depth body count count.toNat
          (r.report (.loopStarted count))
        exact (Run.untold_report _ _).trans (hrounds.trans
          ((Resumes.handOver executor depth _).untold_congr hstarted))
      · exact (Run.untold_report _ _).trans hstarted
  | sequence first next =>
    exact .inl (congrArg Run.untold (run_sequence_eq_handOver executor depth r first next))
  | assign name value => exact .inr ⟨rfl, r.calls_assign name value⟩
  | increase name amount => exact .inr ⟨rfl, r.calls_increase name amount⟩
  | fail message => exact .inr ⟨rfl, r.calls_fail (.raised message)⟩
  | skip => exact .inr ⟨rfl, rfl⟩

/-- What an action calls is called for the actions that it hands over. -/
theorem calls_run :
    (a.run executor depth r).calls =
      (executor.handOver depth (a.handsOver depth r.vars) r).calls := by
  rcases a.run_cases executor depth r with h | ⟨hnothing, hcalls⟩
  · exact (congrArg Run.calls h :
      (a.run executor depth r).untold.calls = (executor.handOver depth _ r).untold.calls)
  · rw [hnothing, hcalls]
    rfl

/-- An action that hands over others fails as they do. -/
theorem failure_run (h : a.handsOver depth r.vars ≠ []) :
    (a.run executor depth r).failure =
      (executor.handOver depth (a.handsOver depth r.vars) r).failure := by
  rcases a.run_cases executor depth r with hrun | ⟨hnothing, -⟩
  · exact (congrArg Run.failure hrun :
      (a.run executor depth r).untold.failure = (executor.handOver depth _ r).untold.failure)
  · exact absurd hnothing h

end Action

/-! ### What is recorded -/

/-- The call of an action with the given variables, if the action is there. -/
def Action.call (a : Action) (vars : Variables) : List Call :=
  if h : a.isPresent = true then [⟨a, vars, h⟩] else []

/-- The calls that come of handing over actions one after the other: each action with the variables as
they are then, after it what comes of the actions that it hands over, and, unless it fails, the rest
with the variables that it leaves. -/
def callsFor : Nat → List Action → Variables → List Call
  | _, [], _ => []
  | depth, a :: rest, vars =>
    match _htake : Depth.take? Depth.delegation depth with
    | none => a.call vars
    | some inside =>
      let done := a.execute inside .plain vars
      a.call vars ++ (callsFor inside (a.handsOver inside vars) vars ++
        if done.failure = none then callsFor depth rest done.vars else [])
termination_by depth actions => (depth, actions.length)
decreasing_by
  · have hdepth := Depth.take?_eq_some.mp _htake
    have hprice : 0 < Depth.delegation := by decide
    exact Prod.Lex.left _ _ (by omega)
  · exact Prod.Lex.right _ (Nat.lt_succ_self _)

theorem Executor.note_recorder (a : Action) (vars : Variables) :
    recorder.note a (.start vars) = { Run.start vars with calls := (a.call vars).toArray } := by
  show (if h : a.isPresent = true then Run.record none a h (.start vars) else .start vars) = _
  unfold Action.call
  split <;> rfl

theorem callsFor_nil (depth : Nat) (vars : Variables) : callsFor depth [] vars = [] := by
  rw [callsFor]

theorem callsFor_cons_of_none {depth : Nat} (htake : Depth.take? Depth.delegation depth = none)
    (a : Action) (rest : List Action) (vars : Variables) :
    callsFor depth (a :: rest) vars = a.call vars := by
  rw [callsFor]
  split
  · rfl
  · simp_all

theorem callsFor_cons_of_some {depth inside : Nat}
    (htake : Depth.take? Depth.delegation depth = some inside)
    (a : Action) (rest : List Action) (vars : Variables) :
    callsFor depth (a :: rest) vars =
      a.call vars ++ (callsFor inside (a.handsOver inside vars) vars ++
        if (a.execute inside .plain vars).failure = none then
          callsFor depth rest (a.execute inside .plain vars).vars
        else []) := by
  rw [callsFor]
  split
  · simp_all
  · simp_all

/-- **What is recorded** of actions that are handed over one after the other. -/
theorem calls_handOver (depth : Nat) (actions : List Action) (vars : Variables) :
    (Executor.recorder.handOver depth actions (.start vars)).calls.toList =
      callsFor depth actions vars := by
  induction depth, actions, vars using callsFor.induct with
  | case1 depth vars =>
    rw [callsFor_nil]
    rfl
  | case2 depth a rest vars htake =>
    have hrest := Resumes.handOver .recorder depth rest
    rw [Executor.handOver_cons, Executor.delegate_eq (Executor.holdsBack_recorder a), htake,
      Executor.note_recorder, callsFor_cons_of_none htake, hrest.absorbs _ (Option.some_ne_none RunFailure.tooDeep)]
    rfl
  | case3 depth a rest vars inside htake done ihinside ihrest =>
    have hrest := Resumes.handOver .recorder depth rest
    generalize hrecorded : a.run .recorder inside (.start vars) = recorded
    have hdone : recorded.unrecorded = done := hrecorded ▸ a.unrecorded_execute inside vars
    have hvars : recorded.vars = done.vars :=
      (congrArg Run.vars hdone : recorded.unrecorded.vars = done.vars)
    have hfailure : recorded.failure = done.failure :=
      (congrArg Run.failure hdone : recorded.unrecorded.failure = done.failure)
    have hcalls : recorded.calls.toList = callsFor inside (a.handsOver inside vars) vars := by
      rw [← ihinside, ← hrecorded]
      exact congrArg Array.toList (a.calls_run .recorder inside (.start vars))
    -- What is there before the rest: the call of the action, and then what comes of it.
    generalize hnoted : { Run.start vars with calls := (a.call vars).toArray } = noted
    have hbefore : Executor.recorder.delegate a (a.run .recorder) depth (.start vars) =
        noted.followedBy recorded := by
      rw [Executor.delegate_eq (Executor.holdsBack_recorder a), htake, Executor.note_recorder,
        hnoted, ← hrecorded]
      subst hnoted
      exact (a.resumes_run .recorder inside).adds _ rfl
    rw [Executor.handOver_cons, hbefore, callsFor_cons_of_some htake]
    have hlist : (noted.followedBy recorded).calls.toList =
        a.call vars ++ callsFor inside (a.handsOver inside vars) vars := by
      rw [← hcalls, ← hnoted]
      exact Array.toList_append
    have hfails : (noted.followedBy recorded).failure = done.failure := hfailure
    by_cases hnone : done.failure = none
    · rw [hrest.adds _ (hfails.trans hnone), if_pos hnone, ← ihrest, ← hvars, ← List.append_assoc,
        ← hlist]
      exact Array.toList_append
    · rw [hrest.absorbs _ (hfails ▸ hnone), if_neg hnone, List.append_nil, hlist]

/-- So this is recorded of an action: what comes of the actions that it hands over. -/
theorem Action.calls_execute (a : Action) (depth : Nat) (vars : Variables) :
    (a.execute depth .recorder vars).calls.toList = callsFor depth (a.handsOver depth vars) vars := by
  rw [← calls_handOver]
  exact congrArg Array.toList (a.calls_run .recorder depth (.start vars))

/-! ### How a record ends -/

/-- A call that a failure ends: for want of depth, or because the action, which hands over nothing,
fails by itself. -/
def Call.Ends (cause : RunFailure) (call : Call) : Prop :=
  cause = .tooDeep ∨
    ∃ depth, call.action.handsOver depth call.vars = [] ∧
      (call.action.execute depth .plain call.vars).failure = some cause

namespace Action

/-- Every sequence inside an action has both its members. -/
def Whole : Action → Prop
  | condition _ whenTrue whenFalse => whenTrue.Whole ∧ whenFalse.Whole
  | loop _ body => body.Whole
  | sequence first next =>
    (first.isPresent = true ∧ first.Whole) ∧ (next.isPresent = true ∧ next.Whole)
  | _ => True

theorem Whole.chain {a : Action} (h : a.isPresent = true ∧ a.Whole) :
    ∀ member ∈ a.chain, member.isPresent = true ∧ member.Whole := by
  induction a with
  | sequence first next _ ih =>
    obtain ⟨-, hfirst, hnext⟩ := h
    exact List.forall_mem_cons.mpr ⟨hfirst, ih hnext⟩
  | _ => exact List.forall_mem_singleton.mpr h

/-- What a whole action hands over is there, and is whole. -/
theorem Whole.handsOver {a : Action} (h : a.Whole) (depth : Nat) (vars : Variables) :
    ∀ member ∈ a.handsOver depth vars, member.isPresent = true ∧ member.Whole := by
  cases a with
  | condition expression whenTrue whenFalse =>
    rw [handsOver_condition]
    generalize (Condition.decision depth expression vars).holds = holds
    have hbranch : (branch whenTrue whenFalse holds).Whole := by
      cases holds with
      | true => exact h.1
      | false => exact h.2
    split
    · exact List.forall_mem_singleton.mpr ⟨‹_›, hbranch⟩
    · exact fun _ hmem => nomatch hmem
  | loop count body =>
    rw [handsOver_loop]
    split
    · exact fun _ hmem => nomatch hmem
    split
    · intro member hmem
      obtain rfl := List.eq_of_mem_replicate hmem
      exact ⟨‹_›, h⟩
    · exact fun _ hmem => nomatch hmem
  | sequence first next => exact List.forall_mem_cons.mpr ⟨h.1, Whole.chain h.2⟩
  | _ => exact fun _ hmem => nomatch hmem

theorem call_of_isPresent {a : Action} (h : a.isPresent = true) (vars : Variables) :
    a.call vars = [⟨a, vars, h⟩] := dif_pos h

end Action

/-- With the first of several actions the rest is handed over what it leaves. -/
theorem Executor.handOver_plain_of_some {depth inside : Nat}
    (htake : Depth.take? Depth.delegation depth = some inside) (a : Action) (rest : List Action)
    (vars : Variables) :
    plain.handOver depth (a :: rest) (.start vars) =
      plain.handOver depth rest (a.execute inside .plain vars) := by
  rw [handOver_cons, delegate_eq rfl, htake]
  rfl

theorem Executor.failure_handOver_of_none {depth : Nat}
    (htake : Depth.take? Depth.delegation depth = none) (a : Action) (rest : List Action)
    (vars : Variables) :
    (plain.handOver depth (a :: rest) (.start vars)).failure = some .tooDeep := by
  have hrest := Resumes.handOver .plain depth rest
  rw [handOver_cons, delegate_eq rfl, htake, hrest.absorbs _ (Option.some_ne_none RunFailure.tooDeep)]
  rfl

/-- **A failure ends the record**: no call comes after the one that it ends. -/
theorem callsFor_ends (depth : Nat) (actions : List Action) (vars : Variables)
    (hwhole : ∀ a ∈ actions, a.isPresent = true ∧ a.Whole) {cause : RunFailure}
    (hcause : (Executor.plain.handOver depth actions (.start vars)).failure = some cause) :
    ∃ before call, callsFor depth actions vars = before ++ [call] ∧ call.Ends cause := by
  induction depth, actions, vars using callsFor.induct with
  | case1 depth vars => exact nomatch hcause
  | case2 depth a rest vars htake =>
    obtain ⟨⟨hpresent, -⟩, -⟩ := List.forall_mem_cons.mp hwhole
    rw [Executor.failure_handOver_of_none htake] at hcause
    rw [callsFor_cons_of_none htake, Action.call_of_isPresent hpresent]
    exact ⟨[], _, rfl, .inl (Option.some.inj hcause).symm⟩
  | case3 depth a rest vars inside htake done ihinside ihrest =>
    obtain ⟨⟨hpresent, ha⟩, hwholes⟩ := List.forall_mem_cons.mp hwhole
    have hrest := Resumes.handOver .plain depth rest
    have hhand : Executor.plain.handOver depth (a :: rest) (.start vars) =
        Executor.plain.handOver depth rest done := Executor.handOver_plain_of_some htake a rest vars
    rw [callsFor_cons_of_some htake, Action.call_of_isPresent hpresent]
    rw [hhand] at hcause
    by_cases hnone : done.failure = none
    · -- The action does not fail, so the rest does.
      rw [hrest.adds done hnone] at hcause
      obtain ⟨before, call, hcalls, hends⟩ := ihrest hwholes hcause
      rw [if_pos hnone, hcalls]
      exact ⟨[⟨a, vars, hpresent⟩] ++ (callsFor inside (a.handsOver inside vars) vars ++ before), call,
        by simp only [List.append_assoc], hends⟩
    · rw [hrest.absorbs done hnone] at hcause
      rw [if_neg hnone, List.append_nil]
      by_cases hnothing : a.handsOver inside vars = []
      · rw [hnothing, callsFor_nil]
        exact ⟨[], _, rfl, .inr ⟨inside, hnothing, hcause⟩⟩
      · -- What is handed over inside it fails, and nothing is called after that.
        have hinside : (Executor.plain.handOver inside (a.handsOver inside vars)
            (.start vars)).failure = some cause :=
          (a.failure_run .plain inside (.start vars) hnothing).symm.trans hcause
        obtain ⟨before, call, hcalls, hends⟩ := ihinside (ha.handsOver inside vars) hinside
        rw [hcalls]
        exact ⟨_ :: before, call, rfl, hends⟩

/-- **Recording.** An executor that records every action and then runs it changes neither what is
reported, nor the variables, nor how the run fails.  It records the actions that are handed over, in
order, each with the variables before it; if a whole action fails by one of them, then with that one
the record ends. -/
theorem execute_recorder (a : Action) (depth : Nat) (vars : Variables) :
    (a.execute depth .recorder vars).trail = (a.execute depth .plain vars).trail ∧
    (a.execute depth .recorder vars).vars = (a.execute depth .plain vars).vars ∧
    (a.execute depth .recorder vars).failure = (a.execute depth .plain vars).failure ∧
    (a.execute depth .recorder vars).calls.toList = callsFor depth (a.handsOver depth vars) vars ∧
    (a.Whole → ∀ cause, (a.execute depth .recorder vars).failure = some cause →
      a.handsOver depth vars = [] ∨
        ∃ before call, (a.execute depth .recorder vars).calls.toList = before ++ [call] ∧
          call.Ends cause) := by
  have htransparent := a.unrecorded_execute depth vars
  generalize hplain : a.execute depth .plain vars = plain at htransparent
  generalize hrecorded : a.execute depth .recorder vars = recorded at htransparent
  have hfailure : recorded.failure = plain.failure :=
    (congrArg Run.failure htransparent : recorded.unrecorded.failure = plain.failure)
  have hcalls : recorded.calls.toList = callsFor depth (a.handsOver depth vars) vars := by
    rw [← hrecorded]
    exact a.calls_execute depth vars
  refine ⟨(congrArg Run.trail htransparent : recorded.unrecorded.trail = plain.trail),
    (congrArg Run.vars htransparent : recorded.unrecorded.vars = plain.vars), hfailure, hcalls,
    fun hwhole cause hcause => ?_⟩
  by_cases hhands : a.handsOver depth vars = []
  · exact .inl hhands
  · rw [hfailure, ← hplain] at hcause
    rw [hcalls]
    exact .inr (callsFor_ends depth _ vars (hwhole.handsOver depth vars)
      ((a.failure_run .plain depth (.start vars) hhands).symm.trans hcause))

/-- Rounds of a loop that fail once a variable has grown. -/
theorem execute_recorder_failing :
    let grow : Action := .increase "n" (.integer 1)
    let check : Action := .condition "n > 1" (.fail "stop") .absent
    let step : Action := .sequence grow check
    let body : Action := .sequence step (.sms "1")
    let a : Action := .loop 3 body
    let entries (n : Int) : List (String × Value) := [("n", .integer n)]
    let vars : Variables := .ofList (entries 0)
    a.Whole ∧ (a.execute Depth.standard .recorder vars).failure = some (.raised "stop") ∧
    (a.execute Depth.standard .recorder vars).vars.toList = entries 2 ∧
    (a.execute Depth.standard .recorder vars).vars = (a.execute Depth.standard .plain vars).vars ∧
    (a.execute Depth.standard .recorder vars).calls.toList =
      callsFor Depth.standard (a.handsOver Depth.standard vars) vars ∧
    (a.execute Depth.standard .recorder vars).calls.toList.map
      (fun call => (call.action, call.vars.toList)) =
      [(body, entries 0), (step, entries 0), (grow, entries 0), (check, entries 1),
        (.sms "1", entries 1), (body, entries 1), (step, entries 1), (grow, entries 1),
        (check, entries 2), (.fail "stop", entries 2)] ∧
    ∃ before call, (a.execute Depth.standard .recorder vars).calls.toList = before ++ [call] ∧
      call.Ends (.raised "stop") := by
  intro grow check step body a entries vars
  have hwhole : a.Whole := ⟨⟨rfl, ⟨rfl, trivial⟩, rfl, trivial, trivial⟩, rfl, trivial⟩
  have hfailure : (a.execute Depth.standard .recorder vars).failure = some (.raised "stop") :=
    eq_of_beq (by decide +kernel)
  have hhands : a.handsOver Depth.standard vars ≠ [] :=
    List.isEmpty_eq_false_iff.mp (by decide +kernel)
  obtain ⟨-, hvars, -, hcalls, hends⟩ := execute_recorder a Depth.standard vars
  exact ⟨hwhole, hfailure, by decide +kernel, hvars, hcalls, by decide +kernel,
    (hends hwhole _ hfailure).resolve_left hhands⟩

end DecisionFlow
