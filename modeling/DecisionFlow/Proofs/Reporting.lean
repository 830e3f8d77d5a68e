import DecisionFlow.Proofs.Resumption

/-!
# What actions report

Which events an action may report can be told from the action alone, without a run: its own, and those
of the actions inside it, whatever the variables and whatever the executor holds back.

* `Action.MayReport` — the events that an action may report;
* `Run.Reports` — a property of all events so far, and how it is kept by what happens to a run;
* `Action.reports_run` — an action adds to a run only what it may report, by induction on actions.
-/

namespace DecisionFlow

/-- `a.MayReport event`: the action, or an action inside it, may report the event. -/
inductive Action.MayReport : Action → Event → Prop where
  | sms (phoneNumber : String) : Action.MayReport (.sms phoneNumber) (.smsSent phoneNumber)
  | email (sender receiver : String) :
      Action.MayReport (.email sender receiver) (.emailSent sender receiver)
  | conditionFailed {expression : String} {whenTrue whenFalse : Action} {depth : Nat}
      {vars : Variables} {cause : Bounded ConditionError} :
      (Condition.decision depth expression vars).failure = some cause →
      Action.MayReport (.condition expression whenTrue whenFalse) (.conditionFailed expression cause)
  | conditionDecided {expression : String} {whenTrue whenFalse : Action} (holds : Bool) :
      Action.MayReport (.condition expression whenTrue whenFalse) (.conditionDecided expression holds)
  | whenTrue {expression : String} {whenTrue whenFalse : Action} {event : Event} :
      whenTrue.MayReport event → Action.MayReport (.condition expression whenTrue whenFalse) event
  | whenFalse {expression : String} {whenTrue whenFalse : Action} {event : Event} :
      whenFalse.MayReport event → Action.MayReport (.condition expression whenTrue whenFalse) event
  /-- The count is looked at before anything is reported of a loop. -/
  | loopStarted {count : Int} {body : Action} :
      Numeral.isTooLong count = false → Action.MayReport (.loop count body) (.loopStarted count)
  | loopSkipped {count : Int} {body : Action} : Action.MayReport (.loop count body) .loopSkipped
  | iteration {count number : Int} {body : Action} :
      Numeral.isTooLong count = false → 0 < number → number ≤ count →
      Action.MayReport (.loop count body) (.iteration number count)
  | loopCompleted {count : Int} {body : Action} :
      Numeral.isTooLong count = false → Action.MayReport (.loop count body) (.loopCompleted count)
  | body {count : Int} {body : Action} {event : Event} :
      body.MayReport event → Action.MayReport (.loop count body) event
  | first {first next : Action} {event : Event} :
      first.MayReport event → Action.MayReport (.sequence first next) event
  | next {first next : Action} {event : Event} :
      next.MayReport event → Action.MayReport (.sequence first next) event

/-- All events so far have a property. -/
def Run.Reports (P : Event → Prop) (r : Run) : Prop := ∀ event ∈ r.trail, P event

namespace Run.Reports

variable {P : Event → Prop}

theorem start (vars : Variables) : (Run.start vars).Reports P :=
  fun _ hevent => absurd hevent (Array.not_mem_empty _)

variable {r : Run} (h : r.Reports P)
include h

theorem proceed {happen : Run → Run} (hhappen : (happen r).Reports P) :
    (Run.proceed happen r).Reports P := by
  by_cases hr : r.failure = none
  · rw [Run.proceed_of_none happen hr]
    exact hhappen
  · rw [Run.proceed_of_failure happen hr]
    exact h

theorem report {event : Event} (hevent : P event) : (r.report event).Reports P := by
  refine h.proceed fun other hother => ?_
  rcases Array.mem_push.mp hother with hother | rfl
  · exact h other hother
  · exact hevent

theorem assign (name : String) (value : Value) : (r.assign name value).Reports P := h.proceed h

theorem fail (cause : RunFailure) : (r.fail cause).Reports P := h.proceed h

theorem increase (name : String) (amount : Number) : (r.increase name amount).Reports P := by
  rw [Run.increase_eq]
  refine h.proceed ?_
  cases Run.sum (r.vars.get? name) amount with
  | ok total => exact h.assign name (.number total)
  | error cause => exact h.fail cause

theorem note (executor : Executor) (a : Action) : (executor.note a r).Reports P := by
  cases executor with
  | plain => exact h
  | recording blocked shownWithin =>
    unfold Executor.note
    by_cases hpresent : a.isPresent = true
    · simp only [hpresent, dite_true]
      refine h.proceed ?_
      cases shownWithin.bind r.vars.unshowable? <;> exact h
    · simp only [hpresent]
      exact h

theorem decided {expression : String} {decision : Decision}
    (hfailed : ∀ cause, decision.failure = some cause → P (.conditionFailed expression cause))
    (hdecided : P (.conditionDecided expression decision.holds)) :
    (r.decided expression decision).Reports P := by
  unfold Run.decided Decision.event?
  cases hfailure : decision.failure with
  | none => exact h.report hdecided
  | some cause => exact (h.report (hfailed cause hfailure)).report hdecided

/-- **The rounds of a loop**, by induction on how many remain. -/
theorem repeated {total : Int} {body : Run → Run}
    (hiteration : ∀ number : Int, 0 < number → number ≤ total → P (.iteration number total))
    (hbody : ∀ r : Run, r.Reports P → (body r).Reports P) {remaining : Nat}
    (hremaining : remaining ≤ total.toNat) : (Run.repeated total body remaining r).Reports P := by
  induction remaining generalizing r with
  | zero => exact h
  | succ remaining ih =>
    have hevent : P (.iteration (total - remaining) total) :=
      hiteration (total - remaining) (by omega) (by omega)
    have hround := hbody _ (h.report hevent)
    rw [Run.repeated_succ]
    exact h.proceed (ih hround (Nat.le_of_succ_le hremaining))

theorem delegate (executor : Executor) (a : Action) {perform : Nat → Run → Run}
    (hperform : ∀ depth, ∀ r : Run, r.Reports P → (perform depth r).Reports P) (depth : Nat) :
    (executor.delegate a perform depth r).Reports P := by
  have hnote := h.note executor a
  unfold Executor.delegate
  cases executor.holdsBack a with
  | true => exact hnote
  | false =>
    cases Depth.take? Depth.delegation depth with
    | none => exact hnote.fail .tooDeep
    | some inside => exact hperform inside _ hnote

theorem delegateIfPresent (executor : Executor) (a : Action) {perform : Nat → Run → Run}
    (hperform : ∀ depth, ∀ r : Run, r.Reports P → (perform depth r).Reports P) (depth : Nat) :
    (executor.delegateIfPresent a perform depth r).Reports P := by
  unfold Executor.delegateIfPresent
  cases a.isPresent with
  | true => exact h.delegate executor a hperform depth
  | false => exact h

end Run.Reports

namespace Action

variable {P : Event → Prop}

/-- **An action reports only what it may report.** -/
theorem reports_run (executor : Executor) (a : Action) (ha : ∀ event, a.MayReport event → P event)
    (depth : Nat) (r : Run) (h : r.Reports P) : (a.run executor depth r).Reports P := by
  induction a generalizing depth r with
  | absent => exact h.fail .nothingToRun
  | sms phoneNumber => exact h.report (ha _ (.sms phoneNumber))
  | email sender receiver => exact h.report (ha _ (.email sender receiver))
  | condition expression whenTrue whenFalse iht ihf =>
    have hdecided : (r.decided expression (Condition.decision depth expression r.vars)).Reports P :=
      h.decided (fun cause hcause => ha _ (.conditionFailed hcause)) (ha _ (.conditionDecided _))
    rw [run_condition]
    cases (Condition.decision depth expression r.vars).holds with
    | true =>
      exact hdecided.delegateIfPresent executor whenTrue
        (iht fun event hevent => ha event (.whenTrue hevent)) depth
    | false =>
      exact hdecided.delegateIfPresent executor whenFalse
        (ihf fun event hevent => ha event (.whenFalse hevent)) depth
  | loop count body ih =>
    rw [run_loop]
    cases hcount : Numeral.isTooLong count with
    | true => exact h.fail .countTooLong
    | false =>
      have hstarted := h.report (ha _ (.loopStarted hcount))
      have hbody := ih fun event hevent => ha event (.body hevent)
      cases body.isPresent with
      | true =>
        have hrounds := hstarted.repeated
          (fun number hpos hle => ha _ (.iteration hcount hpos hle))
          (fun r hr => hr.delegate executor body hbody depth) (Nat.le_refl count.toNat)
        exact hrounds.report (ha _ (.loopCompleted hcount))
      | false => exact hstarted.report (ha _ .loopSkipped)
  | sequence first next ihf ihn =>
    have hfirst := h.delegate executor first (ihf fun event hevent => ha event (.first hevent)) depth
    have hnext := ihn fun event hevent => ha event (.next hevent)
    rw [run_sequence]
    cases next.isSequence with
    | true => exact hnext depth _ hfirst
    | false => exact hfirst.delegate executor next hnext depth
  | assign name value => exact h.assign name value
  | increase name amount => exact h.increase name amount
  | fail message => exact h.fail (.raised message)
  | skip => exact h

/-- What an action reports from the beginning is what it may report. -/
theorem mayReport_of_mem_trail {executor : Executor} {a : Action} {depth : Nat} {vars : Variables}
    {event : Event} (h : event ∈ (a.execute depth executor vars).trail) : a.MayReport event :=
  reports_run executor a (fun _ hevent => hevent) depth _ (.start vars) event h

end Action

end DecisionFlow
