import DecisionFlow.Proofs.Recording

/-!
# What a failing action cuts off

In the quiet form of an action nothing is done where the action fails by its own will.  Until it does so,
both run alike: nothing is lost of what happens before, and what happens after it happens in the quiet
form only.  All other failures, of a sum that there is not or for want of depth, are failures of both.

* `Action.quiet`, `Run.quieted` — the quiet form, and a run as it would be of the quiet form;
* `Run.OutlastedBy` — a run that raises an error, and another one that goes on where it ends;
* `Outlasts` — the relation between what happens to runs; `Action.outlasts_run` says that it holds
  between the quiet form of an action and the action;
* `callsFor_of_none`, `callsFor_of_raised` — the first action that raises an error is the last call;
* `execute_quiet` — all this for a run from the beginning.
-/

namespace DecisionFlow

/-! ### The quiet form -/

namespace Action

/-- An action that does nothing where the given one fails by its own will. -/
def quiet : Action → Action
  | condition expression whenTrue whenFalse => condition expression whenTrue.quiet whenFalse.quiet
  | loop count body => loop count body.quiet
  | sequence first next => sequence first.quiet next.quiet
  | fail _ => skip
  | a => a

theorem isPresent_quiet (a : Action) : a.quiet.isPresent = a.isPresent := by
  cases a <;> rfl

theorem isSequence_quiet (a : Action) : a.quiet.isSequence = a.isSequence := by
  cases a <;> rfl

theorem quiet_branch (whenTrue whenFalse : Action) (holds : Bool) :
    branch whenTrue.quiet whenFalse.quiet holds = (branch whenTrue whenFalse holds).quiet := by
  cases holds <;> rfl

end Action

/-- The same call of the quiet form. -/
def Call.quieted (call : Call) : Call :=
  ⟨call.action.quiet, call.vars, call.action.isPresent_quiet.trans call.isPresent⟩

theorem Action.call_quiet (a : Action) (vars : Variables) :
    a.quiet.call vars = (a.call vars).map Call.quieted := by
  cases a <;> rfl

namespace Run

/-- The same run with the calls of quiet forms. -/
def quieted (r : Run) : Run := { r with calls := r.calls.map Call.quieted }

theorem quieted_of_calls {r : Run} (h : r.calls = #[]) : r.quieted = r := by
  unfold quieted
  rw [h, Array.map_empty, ← h]

theorem quieted_followedBy (r s : Run) :
    (r.followedBy s).quieted = r.quieted.followedBy s.quieted := by
  simp [quieted, followedBy]

/-- An action has failed by its own will. -/
def Raises (r : Run) : Prop := ∃ message, r.failure = some (.raised message)

/-- A run and another one, which is the same but for quiet forms, unless the first raises an error: then
the other one goes on where the first ends. -/
structure OutlastedBy (r s : Run) : Prop where
  same : ¬r.Raises → s = r.quieted
  goesOn : r.Raises → ∃ later, s = r.quieted.followedBy later

namespace OutlastedBy

/-- An error may be raised by both. -/
theorem of_eq {r s : Run} (h : s = r.quieted) : r.OutlastedBy s where
  same _ := h
  goesOn _ := ⟨⟨s.vars, #[], #[], s.failure⟩, by simp [h, followedBy, quieted]⟩

/-- What is there before makes no difference. -/
theorem after {r s : Run} (h : r.OutlastedBy s) (before : Run) :
    (before.followedBy r).OutlastedBy (before.quieted.followedBy s) where
  same hraises := by
    have hnot : ¬r.Raises := hraises
    rw [h.same hnot, quieted_followedBy]
  goesOn hraises := by
    obtain ⟨later, hlater⟩ := h.goesOn hraises
    exact ⟨later, by rw [hlater, quieted_followedBy, followedBy_assoc]⟩

end OutlastedBy

end Run

/-! ### Outlasting -/

/-- What comes to its end has begun with a run that has not failed. -/
theorem Resumes.failure_eq_none {happen : Run → Run} (h : Resumes happen) {r : Run}
    (hnone : (happen r).failure = none) : r.failure = none := by
  by_cases hr : r.failure = none
  · exact hr
  · rw [← h.absorbs r hr, hnone]

/-- What happens after a run only adds to it. -/
theorem Resumes.goesOn {happen : Run → Run} (h : Resumes happen) (r later : Run) :
    ∃ further, happen (r.followedBy later) = r.followedBy further := by
  by_cases hnone : later.failure = none
  · exact ⟨later.followedBy (happen (.start later.vars)),
      (h.adds (r.followedBy later) hnone).trans (Run.followedBy_assoc _ _ _)⟩
  · exact ⟨later, h.absorbs (r.followedBy later) hnone⟩

/-- What happens to a run, and what happens beside it that goes on where the first raises an error. -/
structure Outlasts (loud quiet : Run → Run) : Prop where
  resumesLoud : Resumes loud
  resumesQuiet : Resumes quiet
  outlasted : ∀ vars, (loud (.start vars)).OutlastedBy (quiet (.start vars))

namespace Outlasts

variable {loud loud' quiet quiet' : Run → Run}

/-- What is the same without any calls. -/
theorem of_resumes (h : Resumes loud) (hcalls : ∀ vars, (loud (.start vars)).calls = #[]) :
    Outlasts loud loud where
  resumesLoud := h
  resumesQuiet := h
  outlasted vars := .of_eq (Run.quieted_of_calls (hcalls vars)).symm

/-- **One thing and then another.**  If the first raises an error, only the quiet side goes on. -/
theorem andThen (h : Outlasts loud quiet) (hlater : Outlasts loud' quiet') :
    Outlasts (fun r => loud' (loud r)) fun r => quiet' (quiet r) where
  resumesLoud := h.resumesLoud.andThen hlater.resumesLoud
  resumesQuiet := h.resumesQuiet.andThen hlater.resumesQuiet
  outlasted vars := by
    have hfirst := h.outlasted vars
    generalize loud (.start vars) = r at hfirst
    generalize quiet (.start vars) = s at hfirst
    by_cases hraises : r.Raises
    · obtain ⟨message, hmessage⟩ := hraises
      obtain ⟨later, rfl⟩ := hfirst.goesOn ⟨message, hmessage⟩
      rw [hlater.resumesLoud.absorbs r (by simp [hmessage])]
      exact ⟨fun hnot => absurd ⟨message, hmessage⟩ hnot,
        fun _ => hlater.resumesQuiet.goesOn r.quieted later⟩
    · obtain rfl := hfirst.same hraises
      by_cases hnone : r.failure = none
      · rw [hlater.resumesLoud.adds r hnone, hlater.resumesQuiet.adds r.quieted hnone]
        exact (hlater.outlasted r.vars).after r
      · rw [hlater.resumesLoud.absorbs r hnone, hlater.resumesQuiet.absorbs r.quieted hnone]
        exact .of_eq rfl

theorem compositional : Compositional Outlasts .plain .plain where
  nothing := of_resumes .nothing fun _ => rfl
  andThen h hlater := h.andThen hlater
  of_vars h :=
    { resumesLoud := .of_vars fun vars => (h vars).resumesLoud
      resumesQuiet := .of_vars fun vars => (h vars).resumesQuiet
      outlasted := fun vars => (h vars).outlasted vars }
  proceed h := by
    rw [h.resumesLoud.proceed_eq, h.resumesQuiet.proceed_eq]
    exact h
  report event := of_resumes ((Resumes.compositional .plain).report event) fun _ => rfl
  assign name value := of_resumes ((Resumes.compositional .plain).assign name value) fun _ => rfl
  fail cause := of_resumes ((Resumes.compositional .plain).fail cause) fun _ => rfl
  note a := of_resumes (.note .plain a) fun _ => rfl
  holdsBack _ := rfl

/-- **An error that is raised** is raised on one side only. -/
theorem raised (message : String) : Outlasts (Run.fail (.raised message)) fun r => r where
  resumesLoud := (Resumes.compositional .plain).fail (.raised message)
  resumesQuiet := .nothing
  outlasted vars :=
    ⟨fun hnot => absurd ⟨message, rfl⟩ hnot, fun _ => ⟨.start vars, by
      simp [Run.fail, Run.proceed, Run.start, Run.quieted, Run.followedBy]⟩⟩

theorem note (a : Action) : Outlasts (Executor.recorder.note a) (Executor.recorder.note a.quiet) where
  resumesLoud := .note .recorder a
  resumesQuiet := .note .recorder a.quiet
  outlasted vars := .of_eq (by
    rw [Executor.note_recorder, Executor.note_recorder, Action.call_quiet]
    simp [Run.quieted])

/-- **What is handed over** is recorded on both sides. -/
theorem delegate (a : Action) {perform perform' : Nat → Run → Run}
    (hperform : ∀ depth, Outlasts (perform depth) (perform' depth)) (depth : Nat) :
    Outlasts (Executor.recorder.delegate a perform depth)
      (Executor.recorder.delegate a.quiet perform' depth) := by
  rw [funext (Executor.delegate_eq (Executor.holdsBack_recorder a) perform depth),
    funext (Executor.delegate_eq (Executor.holdsBack_recorder a.quiet) perform' depth)]
  cases Depth.take? Depth.delegation depth with
  | some inside => exact (note a).andThen (hperform inside)
  | none => exact (note a).andThen (compositional.fail .tooDeep)

theorem delegateIfPresent (a : Action) {perform perform' : Nat → Run → Run}
    (hperform : ∀ depth, Outlasts (perform depth) (perform' depth)) (depth : Nat) :
    Outlasts (Executor.recorder.delegateIfPresent a perform depth)
      (Executor.recorder.delegateIfPresent a.quiet perform' depth) := by
  unfold Executor.delegateIfPresent
  rw [Action.isPresent_quiet]
  cases a.isPresent with
  | true => exact delegate a hperform depth
  | false => exact compositional.nothing

end Outlasts

/-- **The quiet form outlasts the action**, whatever is handed over on the way. -/
theorem Action.outlasts_run (a : Action) (depth : Nat) :
    Outlasts (a.run .recorder depth) (a.quiet.run .recorder depth) := by
  have h := Outlasts.compositional
  induction a generalizing depth with
  | absent => exact h.fail .nothingToRun
  | sms phoneNumber => exact h.report (.smsSent phoneNumber)
  | email sender receiver => exact h.report (.emailSent sender receiver)
  | condition expression whenTrue whenFalse iht ihf =>
    have hbranch (holds : Bool) (depth : Nat) :
        Outlasts ((branch whenTrue whenFalse holds).run .recorder depth)
          ((branch whenTrue whenFalse holds).quiet.run .recorder depth) := by
      cases holds with
      | true => exact iht depth
      | false => exact ihf depth
    have hchosen (decision : Decision) :=
      h.andThen (h.decided expression decision)
        (Outlasts.delegateIfPresent (branch whenTrue whenFalse decision.holds)
          (hbranch decision.holds) depth)
    rw [quiet, funext fun r => run_condition .recorder depth r expression whenTrue whenFalse,
      funext fun r => run_condition .recorder depth r expression whenTrue.quiet whenFalse.quiet]
    simp only [quiet_branch]
    exact h.of_vars fun vars => hchosen (Condition.decision depth expression vars)
  | loop count body ih =>
    have hstarted := h.report (.loopStarted count)
    have hrounds := h.repeated count (Outlasts.delegate body ih depth) count.toNat
    rw [quiet, funext fun r => run_loop .recorder depth r count body,
      funext fun r => run_loop .recorder depth r count body.quiet, isPresent_quiet]
    cases Numeral.isTooLong count with
    | true => exact h.fail .countTooLong
    | false =>
      cases body.isPresent with
      | true => exact h.andThen hstarted (h.andThen hrounds (h.report (.loopCompleted count)))
      | false => exact h.andThen hstarted (h.report .loopSkipped)
  | sequence first next ihf ihn =>
    have hfirst := Outlasts.delegate first ihf depth
    rw [quiet, funext fun r => run_sequence .recorder depth r first next,
      funext fun r => run_sequence .recorder depth r first.quiet next.quiet, isSequence_quiet]
    cases next.isSequence with
    | true => exact h.andThen hfirst (ihn depth)
    | false => exact h.andThen hfirst (Outlasts.delegate next ihn depth)
  | assign name value => exact h.assign name value
  | increase name amount => exact h.increase name amount
  | fail message => exact .raised message
  | skip => exact h.nothing

/-! ### The moment of an error -/

/-- The call of an action that fails by its own will. -/
def Call.Raises (call : Call) : Prop := call.action.kind? = some .fail

/-- A sum that there is not is no error that is raised. -/
theorem Run.sum_ne_raised (held : Option Value) (amount : Number) (message : String) :
    sum held amount ≠ .error (.raised message) := by
  unfold sum
  intro h
  split at h
  · rename_i cause hsummand
    injection h with hcause
    rw [hcause] at hsummand
    unfold summand at hsummand
    split at hsummand <;> simp at hsummand
  · split at h <;> simp at h

theorem Run.failure_increase_ne_raised (name : String) (amount : Number) (vars : Variables)
    (message : String) : ((start vars).increase name amount).failure ≠ some (.raised message) := by
  intro hraised
  rw [increase_eq, proceed_of_none _ rfl] at hraised
  generalize hsum : sum ((start vars).vars.get? name) amount = total at hraised
  cases total with
  | ok total => cases hraised
  | error cause =>
    obtain rfl : cause = .raised message := Option.some.inj hraised
    exact sum_ne_raised _ amount message hsum

namespace Action

variable {depth : Nat}

/-- What hands over other actions comes to the same as these, but for the trail. -/
theorem untold_execute {a : Action} {vars : Variables} (h : a.handsOver depth vars ≠ []) :
    (a.execute depth .plain vars).untold =
      (Executor.plain.handOver depth (a.handsOver depth vars) (.start vars)).untold := by
  rcases a.run_cases .plain depth (.start vars) with hrun | ⟨hnothing, -⟩
  · exact hrun
  · exact absurd hnothing h

/-- If the run does not fail, what hands over nothing calls nothing, and what hands over other actions
does so with success. -/
theorem failure_handOver (a : Action) {vars : Variables}
    (h : (a.execute depth .plain vars).failure = none) :
    (Executor.plain.handOver depth (a.handsOver depth vars) (.start vars)).failure = none := by
  by_cases hnothing : a.handsOver depth vars = []
  · rw [hnothing]
    rfl
  · rw [← h]
    exact (a.failure_run .plain depth (.start vars) hnothing).symm

/-- An action raises an error by itself only if it does nothing else. -/
theorem eq_fail_of_raised {a : Action} {vars : Variables} {message : String}
    (hnothing : a.handsOver depth vars = [])
    (hraised : (a.execute depth .plain vars).failure = some (.raised message)) :
    a = fail message := by
  cases a with
  | condition expression whenTrue whenFalse =>
    rw [handsOver_condition, ite_eq_right_iff] at hnothing
    have habsent := mt hnothing (List.cons_ne_nil _ _)
    have hdecided := congrArg Run.failure
      ((Run.start vars).untold_decided expression (Condition.decision depth expression vars))
    have hstart : (Run.start vars).vars = vars := rfl
    rw [execute, run_condition, hstart, Executor.delegateIfPresent, if_neg habsent] at hraised
    cases hdecided.symm.trans hraised
  | loop count body =>
    rw [handsOver_loop] at hnothing
    rw [execute, run_loop] at hraised
    split at hraised
    · cases hraised
    · rw [if_neg ‹_›] at hnothing
      split at hraised
      · rw [if_pos ‹_›, List.replicate_eq_nil_iff] at hnothing
        rw [hnothing] at hraised
        cases hraised
      · cases hraised
  | sequence first next => cases hnothing
  | increase name amount => exact absurd hraised (Run.failure_increase_ne_raised name amount vars message)
  | fail text =>
    have htext : some (RunFailure.raised text) = some (.raised message) := hraised
    injection htext with hcause
    injection hcause with hmessage
    rw [hmessage]
  | _ => cases hraised

/-- Only the call of an action that fails by its own will is one that raises an error. -/
theorem not_raises_of_mem_call {a : Action} (h : a.kind? ≠ some .fail) (vars : Variables) :
    ∀ call ∈ a.call vars, ¬call.Raises := by
  intro call hmem hraises
  unfold Action.call at hmem
  split at hmem
  · rw [List.mem_singleton.mp hmem] at hraises
    exact h hraises
  · simp at hmem

theorem kind?_ne_fail_of_none {a : Action} {vars : Variables}
    (h : (a.execute depth .plain vars).failure = none) : a.kind? ≠ some .fail := by
  cases a with
  | fail message => cases h
  | _ => simp [kind?]

theorem kind?_ne_fail_of_handsOver {a : Action} {vars : Variables}
    (h : a.handsOver depth vars ≠ []) : a.kind? ≠ some .fail := by
  cases a with
  | fail message => exact absurd rfl h
  | _ => simp [kind?]

end Action

/-- **Without a failure** no action is called that raises an error. -/
theorem callsFor_of_none (depth : Nat) (actions : List Action) (vars : Variables)
    (h : (Executor.plain.handOver depth actions (.start vars)).failure = none) :
    ∀ call ∈ callsFor depth actions vars, ¬call.Raises := by
  induction depth, actions, vars using callsFor.induct with
  | case1 depth vars => simp [callsFor_nil]
  | case2 depth a rest vars htake =>
    rw [Executor.failure_handOver_of_none htake] at h
    cases h
  | case3 depth a rest vars inside htake done ihinside ihrest =>
    have hrest := Resumes.handOver .plain depth rest
    have hhand : Executor.plain.handOver depth (a :: rest) (.start vars) =
        Executor.plain.handOver depth rest done := Executor.handOver_plain_of_some htake a rest vars
    rw [hhand] at h
    have hnone : done.failure = none := hrest.failure_eq_none h
    rw [hrest.adds done hnone] at h
    rw [callsFor_cons_of_some htake, if_pos hnone]
    have hcall := Action.not_raises_of_mem_call (Action.kind?_ne_fail_of_none hnone) vars
    exact List.forall_mem_append.mpr
      ⟨hcall, List.forall_mem_append.mpr ⟨ihinside (a.failure_handOver hnone), ihrest h⟩⟩

/-- **The first action that raises an error** is the last one that is called, with the variables that are
left. -/
theorem callsFor_of_raised (depth : Nat) (actions : List Action) (vars : Variables) {message : String}
    (h : (Executor.plain.handOver depth actions (.start vars)).failure = some (.raised message)) :
    ∃ before, callsFor depth actions vars =
        before ++ [⟨.fail message, (Executor.plain.handOver depth actions (.start vars)).vars, rfl⟩] ∧
      ∀ call ∈ before, ¬call.Raises := by
  induction depth, actions, vars using callsFor.induct with
  | case1 depth vars => cases h
  | case2 depth a rest vars htake =>
    rw [Executor.failure_handOver_of_none htake] at h
    cases h
  | case3 depth a rest vars inside htake done ihinside ihrest =>
    have hrest := Resumes.handOver .plain depth rest
    have hhand : Executor.plain.handOver depth (a :: rest) (.start vars) =
        Executor.plain.handOver depth rest done := Executor.handOver_plain_of_some htake a rest vars
    rw [hhand] at h ⊢
    rw [callsFor_cons_of_some htake]
    by_cases hnone : done.failure = none
    · -- The error is raised later.
      rw [hrest.adds done hnone] at h ⊢
      obtain ⟨before, hcalls, hbefore⟩ := ihrest h
      have hcall := Action.not_raises_of_mem_call (Action.kind?_ne_fail_of_none hnone) vars
      have hinside := callsFor_of_none inside _ vars (a.failure_handOver hnone)
      rw [if_pos hnone, hcalls, ← List.append_assoc, ← List.append_assoc]
      exact ⟨_, rfl, List.forall_mem_append.mpr ⟨List.forall_mem_append.mpr ⟨hcall, hinside⟩, hbefore⟩⟩
    · rw [hrest.absorbs done hnone] at h ⊢
      rw [if_neg hnone, List.append_nil]
      by_cases hnothing : a.handsOver inside vars = []
      · obtain rfl := Action.eq_fail_of_raised hnothing h
        exact ⟨[], by rw [hnothing, callsFor_nil]; rfl, by simp⟩
      · -- The error is raised by one of the actions that are handed over.
        obtain ⟨hvars, hfailure, -⟩ := Run.eq_of_untold (Action.untold_execute hnothing)
        have hcall := Action.not_raises_of_mem_call (Action.kind?_ne_fail_of_handsOver hnothing) vars
        obtain ⟨before, hcalls, hbefore⟩ := ihinside (hfailure.symm.trans h)
        rw [hcalls, ← hvars, ← List.append_assoc]
        exact ⟨_, rfl, List.forall_mem_append.mpr ⟨hcall, hbefore⟩⟩

/-- An action that raises an error is one that does nothing else, or it calls one at last. -/
theorem Action.calls_execute_of_raised (a : Action) (depth : Nat) (vars : Variables)
    {message : String} (h : (a.execute depth .recorder vars).failure = some (.raised message)) :
    (a = .fail message ∧ (a.execute depth .recorder vars).vars = vars ∧
      (a.execute depth .recorder vars).calls = #[]) ∨
    ∃ before, (a.execute depth .recorder vars).calls.toList =
        before ++ [⟨.fail message, (a.execute depth .recorder vars).vars, rfl⟩] ∧
      ∀ call ∈ before, ¬call.Raises := by
  have hrecord := a.calls_execute depth vars
  have hplain := a.unrecorded_execute depth vars
  have hvars : (a.execute depth .recorder vars).vars = (a.execute depth .plain vars).vars :=
    (congrArg Run.vars hplain : (a.execute depth .recorder vars).unrecorded.vars = _)
  have hfailure : (a.execute depth .plain vars).failure = some (.raised message) := by
    rw [← hplain]
    exact h
  by_cases hnothing : a.handsOver depth vars = []
  · obtain rfl := eq_fail_of_raised hnothing hfailure
    exact .inl ⟨rfl, rfl, rfl⟩
  · obtain ⟨hleft, hsame, -⟩ := Run.eq_of_untold (untold_execute hnothing)
    obtain ⟨before, hcalls, hbefore⟩ := callsFor_of_raised depth _ vars (hsame.symm.trans hfailure)
    rw [hrecord, hvars, hleft]
    exact .inr ⟨before, hcalls, hbefore⟩

/-- **A failing run is cut off, and nothing else.**  If an action does not fail by its own will, the
quiet form does the same in every respect.  If it does, what it reports and what it calls is the
beginning of what the quiet form reports and calls.  The error is that of the first action to raise one.
This is the last action that is called, unless it is the whole, and in the quiet form it is called with
the variables that the action leaves.  Without the record all this is the same. -/
theorem execute_quiet (a : Action) (depth : Nat) (vars : Variables) :
    let loud := a.execute depth .recorder vars
    let quiet := a.quiet.execute depth .recorder vars
    (a.execute depth .plain vars = loud.unrecorded ∧
      a.quiet.execute depth .plain vars = quiet.unrecorded) ∧
    (¬loud.Raises → quiet = loud.quieted) ∧
    ∀ message, loud.failure = some (.raised message) →
      loud.trail.toList <+: quiet.trail.toList ∧
      loud.quieted.calls.toList <+: quiet.calls.toList ∧
      ((a = .fail message ∧ loud.vars = vars ∧ loud.calls = #[]) ∨
        ∃ before after, loud.calls.toList = before ++ [⟨.fail message, loud.vars, rfl⟩] ∧
          quiet.calls.toList = before.map Call.quieted ++ ⟨.skip, loud.vars, rfl⟩ :: after ∧
          ∀ call ∈ before, ¬call.Raises) := by
  intro loud quiet
  have houtlasted : loud.OutlastedBy quiet := (a.outlasts_run depth).outlasted vars
  refine ⟨⟨(a.unrecorded_execute depth vars).symm, (a.quiet.unrecorded_execute depth vars).symm⟩,
    houtlasted.same, fun message hmessage => ?_⟩
  obtain ⟨later, hlater⟩ := houtlasted.goesOn ⟨message, hmessage⟩
  have htrail : quiet.trail.toList = loud.trail.toList ++ later.trail.toList := by
    rw [hlater]
    exact Array.toList_append
  have hcalls : quiet.calls.toList = loud.quieted.calls.toList ++ later.calls.toList := by
    rw [hlater]
    exact Array.toList_append
  refine ⟨⟨_, htrail.symm⟩, ⟨_, hcalls.symm⟩, ?_⟩
  apply (a.calls_execute_of_raised depth vars hmessage).imp_right
  rintro ⟨before, hbefore, hsilent⟩
  refine ⟨before, later.calls.toList, hbefore, ?_, hsilent⟩
  -- The last call is, of the quiet form, one of an action that does nothing.
  have hlast : loud.calls.toList = before ++ [⟨.fail message, loud.vars, rfl⟩] := hbefore
  rw [hcalls, Run.quieted, Array.toList_map, hlast, List.map_append, List.append_assoc]
  rfl

/-- An error in the second round of a loop, which is reached because a variable has grown. -/
theorem execute_quiet_failing :
    let grow : Action := .increase "n" (.integer 1)
    let check : Action := .condition "n > 1" (.fail "stop") .absent
    let body : Action := .sequence grow check
    let a : Action := .sequence (.loop 3 body) (.sequence (.sms "1") (.fail "late"))
    let vars : Variables := .ofList [("n", .integer 0)]
    let loud : Run := a.execute Depth.standard .recorder vars
    let quiet : Run := a.quiet.execute Depth.standard .recorder vars
    loud.failure = some (.raised "stop") ∧ quiet.failure = none ∧
    loud.vars.toList = [("n", .integer 2)] ∧ quiet.vars.toList = [("n", .integer 3)] ∧
    loud.trail.toList <+: quiet.trail.toList ∧
    loud.trail.toList = [.loopStarted 3, .iteration 1 3, .conditionDecided "n > 1" false,
      .iteration 2 3, .conditionDecided "n > 1" true] ∧
    quiet.trail.toList = loud.trail.toList ++ [.iteration 3 3, .conditionDecided "n > 1" true,
      .loopCompleted 3, .smsSent "1"] ∧
    ∃ before after, loud.calls.toList = before ++ [⟨.fail "stop", loud.vars, rfl⟩] ∧
      quiet.calls.toList = before.map Call.quieted ++ ⟨.skip, loud.vars, rfl⟩ :: after ∧
      ∀ call ∈ before, ¬call.Raises := by
  intro grow check body a vars loud quiet
  have hraised : loud.failure = some (.raised "stop") := eq_of_beq (by decide +kernel)
  have hinside : a ≠ .fail "stop" := nofun
  obtain ⟨-, -, hcut⟩ := execute_quiet a Depth.standard vars
  have hloud : a.execute Depth.standard .recorder vars = loud := rfl
  have hquiet : a.quiet.execute Depth.standard .recorder vars = quiet := rfl
  rw [hloud, hquiet] at hcut
  obtain ⟨htrail, -, hcalls⟩ := hcut "stop" hraised
  exact ⟨hraised, eq_of_beq (by decide +kernel), by decide +kernel, by decide +kernel, htrail,
    by decide +kernel, by decide +kernel, hcalls.resolve_left fun hwhole => hinside hwhole.1⟩

end DecisionFlow
