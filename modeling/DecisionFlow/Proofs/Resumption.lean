import DecisionFlow.Action.Run

/-!
# What actions do to runs

An action is made of elementary things that happen to a run, one after the other, and of the actions
that it hands over.  So what holds of the elementary things, and of one thing and another after it,
holds of every action.  The first use of this is that actions resume: what an action does to a run, it
does after what is there already, for which only the variables matter.

* `Action.run_condition`, `Action.run_loop`, `Action.run_sequence` — what an action hands over, and when;
* `Compositional` — what a relation between things that happen has to respect, `Compositional.run` what
  it then says about actions;
* `Run.followedBy` — a run, and what another one adds to it;
* `Resumes` — something that happens to runs after what is there; `Action.resumes_run` says that
  every action does, with every executor;
* `Executor.handOver` — several actions handed over, as those of a chain are.
-/

namespace DecisionFlow

/-! ### What an action hands over -/

/-- A condition has been decided: what went wrong is reported, if anything did, and the decision. -/
def Run.decided (expression : String) (decision : Decision) (r : Run) : Run :=
  (r.report? (decision.event? expression)).report (.conditionDecided expression decision.holds)

theorem Run.proceed_of_none (happen : Run → Run) {r : Run} (h : r.failure = none) :
    proceed happen r = happen r := by
  rw [proceed, h]

theorem Run.proceed_of_failure (happen : Run → Run) {r : Run} (h : r.failure ≠ none) :
    proceed happen r = r := by
  unfold proceed
  split
  · exact absurd ‹_› h
  · rfl

/-- The first of several rounds, and then the others. -/
theorem Run.repeated_succ (total : Int) (body : Run → Run) (remaining : Nat) :
    repeated total body (remaining + 1) = proceed fun r =>
      repeated total body remaining (body (r.report (.iteration (total - remaining) total))) := by
  funext r
  rw [repeated, proceed]
  cases r.failure <;> rfl

/-- A sum has been computed: it is assigned, or there is none and the run fails. -/
def Run.totalled (name : String) : Except RunFailure Number → Run → Run
  | .ok total => assign name (.number total)
  | .error cause => fail cause

theorem Run.increase_eq (name : String) (amount : Number) :
    increase name amount = proceed fun r => totalled name (sum (r.vars.get? name) amount) r := by
  unfold increase
  congr 1
  funext r
  cases sum (r.vars.get? name) amount <;> rfl

/-- What comes of handing over an action that is not held back. -/
theorem Executor.delegate_eq {executor : Executor} {a : Action} (hback : executor.holdsBack a = false)
    (perform : Nat → Run → Run) (depth : Nat) (r : Run) :
    executor.delegate a perform depth r =
      match Depth.take? Depth.delegation depth with
      | some inside => perform inside (executor.note a r)
      | none => (executor.note a r).fail .tooDeep := by
  rw [delegate, hback]
  rfl

/-- Actions are handed over one after the other. -/
def Executor.handOver (executor : Executor) (depth : Nat) (actions : List Action) (r : Run) : Run :=
  actions.foldl (fun r a => executor.delegate a (a.run executor) depth r) r

theorem Executor.handOver_cons (executor : Executor) (depth : Nat) (a : Action) (rest : List Action)
    (r : Run) :
    executor.handOver depth (a :: rest) r =
      executor.handOver depth rest (executor.delegate a (a.run executor) depth r) := rfl

namespace Action

/-- The branch of a condition that is taken. -/
def branch (whenTrue whenFalse : Action) (holds : Bool) : Action :=
  if holds then whenTrue else whenFalse

variable (executor : Executor) (depth : Nat) (r : Run)

/-- A condition hands over the branch that it chooses. -/
theorem run_condition (expression : String) (whenTrue whenFalse : Action) :
    (condition expression whenTrue whenFalse).run executor depth r =
      executor.delegateIfPresent
        (branch whenTrue whenFalse (Condition.decision depth expression r.vars).holds)
        ((branch whenTrue whenFalse (Condition.decision depth expression r.vars).holds).run executor)
        depth (r.decided expression (Condition.decision depth expression r.vars)) := by
  rw [run]
  unfold branch
  split <;> rfl

/-- A loop hands over its body once for each round. -/
theorem run_loop (count : Int) (body : Action) :
    (loop count body).run executor depth r =
      if Numeral.isTooLong count then r.fail .countTooLong
      else if body.isPresent then
        (Run.repeated count (executor.delegate body (body.run executor) depth) count.toNat
          (r.report (.loopStarted count))).report (.loopCompleted count)
      else (r.report (.loopStarted count)).report .loopSkipped := by
  rw [run]

/-- A sequence hands over its first member, and goes on with the rest. -/
theorem run_sequence (first next : Action) :
    (sequence first next).run executor depth r =
      if next.isSequence then
        next.run executor depth (executor.delegate first (first.run executor) depth r)
      else
        executor.delegate next (next.run executor) depth
          (executor.delegate first (first.run executor) depth r) := by
  rw [run]

/-- **A sequence hands over the members of its chain**, and does nothing else. -/
theorem run_sequence_eq_handOver (first next : Action) :
    (sequence first next).run executor depth r = executor.handOver depth (first :: next.chain) r := by
  induction next generalizing first r with
  | sequence second rest _ ih =>
    have hsequence : (sequence second rest).isSequence = true := rfl
    rw [run_sequence, if_pos hsequence, ih]
    rfl
  | _ => exact run_sequence executor depth r first _

end Action

/-! ### Relations that actions respect -/

/-- A relation between what happens with one executor and what happens with another, which holds of the
elementary things, and of one thing and another after it. -/
structure Compositional (R : (Run → Run) → (Run → Run) → Prop) (executor executor' : Executor) :
    Prop where
  nothing : R (fun r => r) fun r => r
  andThen : ∀ {f f' g g' : Run → Run}, R f f' → R g g' → R (fun r => g (f r)) fun r => g' (f' r)
  /-- What happens may depend on the variables. -/
  of_vars : ∀ {f f' : Variables → Run → Run}, (∀ vars, R (f vars) (f' vars)) →
    R (fun r => f r.vars r) fun r => f' r.vars r
  /-- What happens may be spared a run that has failed. -/
  proceed : ∀ {f f' : Run → Run}, R f f' → R (Run.proceed f) (Run.proceed f')
  report : ∀ event, R (Run.report event) (Run.report event)
  assign : ∀ name value, R (Run.assign name value) (Run.assign name value)
  fail : ∀ cause, R (Run.fail cause) (Run.fail cause)
  note : ∀ a, R (executor.note a) (executor'.note a)
  /-- The executors hold back the same actions. -/
  holdsBack : ∀ a, executor.holdsBack a = executor'.holdsBack a

namespace Compositional

variable {R : (Run → Run) → (Run → Run) → Prop} {executor executor' : Executor}
variable (h : Compositional R executor executor')
include h

theorem decided (expression : String) (decision : Decision) :
    R (Run.decided expression decision) (Run.decided expression decision) := by
  have hdecided := h.report (.conditionDecided expression decision.holds)
  unfold Run.decided
  cases decision.event? expression with
  | none => exact hdecided
  | some event => exact h.andThen (h.report event) hdecided

theorem increase (name : String) (amount : Number) :
    R (Run.increase name amount) (Run.increase name amount) := by
  have hsum (held : Option Value) :
      R (Run.totalled name (Run.sum held amount)) (Run.totalled name (Run.sum held amount)) := by
    cases Run.sum held amount with
    | ok total => exact h.assign name (.number total)
    | error cause => exact h.fail cause
  rw [Run.increase_eq]
  exact h.proceed (h.of_vars fun vars => hsum (vars.get? name))

theorem repeated (total : Int) {f f' : Run → Run} (hbody : R f f') (remaining : Nat) :
    R (Run.repeated total f remaining) (Run.repeated total f' remaining) := by
  induction remaining with
  | zero => exact h.nothing
  | succ remaining ih =>
    have hround := h.andThen (h.andThen (h.report (.iteration (total - remaining) total)) hbody) ih
    rw [Run.repeated_succ, Run.repeated_succ]
    exact h.proceed hround

theorem delegate (a : Action) {perform perform' : Nat → Run → Run}
    (hperform : ∀ depth, R (perform depth) (perform' depth)) (depth : Nat) :
    R (executor.delegate a perform depth) (executor'.delegate a perform' depth) := by
  have hnote := h.note a
  unfold Executor.delegate
  rw [h.holdsBack a]
  cases executor'.holdsBack a with
  | true => exact hnote
  | false =>
    cases Depth.take? Depth.delegation depth with
    | none => exact h.andThen hnote (h.fail .tooDeep)
    | some inside => exact h.andThen hnote (hperform inside)

theorem delegateIfPresent (a : Action) {perform perform' : Nat → Run → Run}
    (hperform : ∀ depth, R (perform depth) (perform' depth)) (depth : Nat) :
    R (executor.delegateIfPresent a perform depth) (executor'.delegateIfPresent a perform' depth) := by
  unfold Executor.delegateIfPresent
  cases a.isPresent with
  | true => exact h.delegate a hperform depth
  | false => exact h.nothing

/-- **What holds of the elementary things holds of every action.** -/
theorem run (a : Action) (depth : Nat) : R (a.run executor depth) (a.run executor' depth) := by
  induction a generalizing depth with
  | absent => exact h.fail .nothingToRun
  | sms phoneNumber => exact h.report (.smsSent phoneNumber)
  | email sender receiver => exact h.report (.emailSent sender receiver)
  | condition expression whenTrue whenFalse iht ihf =>
    have hbranch (holds : Bool) (depth : Nat) :
        R ((Action.branch whenTrue whenFalse holds).run executor depth)
          ((Action.branch whenTrue whenFalse holds).run executor' depth) := by
      cases holds with
      | true => exact iht depth
      | false => exact ihf depth
    have hchosen (decision : Decision) :=
      h.andThen (h.decided expression decision)
        (h.delegateIfPresent (Action.branch whenTrue whenFalse decision.holds)
          (hbranch decision.holds) depth)
    rw [funext fun r => Action.run_condition executor depth r expression whenTrue whenFalse,
      funext fun r => Action.run_condition executor' depth r expression whenTrue whenFalse]
    exact h.of_vars fun vars => hchosen (Condition.decision depth expression vars)
  | loop count body ih =>
    have hstarted := h.report (.loopStarted count)
    have hrounds := h.repeated count (h.delegate body ih depth) count.toNat
    rw [funext fun r => Action.run_loop executor depth r count body,
      funext fun r => Action.run_loop executor' depth r count body]
    cases Numeral.isTooLong count with
    | true => exact h.fail .countTooLong
    | false =>
      cases body.isPresent with
      | true => exact h.andThen hstarted (h.andThen hrounds (h.report (.loopCompleted count)))
      | false => exact h.andThen hstarted (h.report .loopSkipped)
  | sequence first next ihf ihn =>
    have hfirst := h.delegate first ihf depth
    rw [funext fun r => Action.run_sequence executor depth r first next,
      funext fun r => Action.run_sequence executor' depth r first next]
    cases next.isSequence with
    | true => exact h.andThen hfirst (ihn depth)
    | false => exact h.andThen hfirst (h.delegate next ihn depth)
  | assign name value => exact h.assign name value
  | increase name amount => exact h.increase name amount
  | fail message => exact h.fail (.raised message)
  | skip => exact h.nothing

theorem handOver (depth : Nat) (actions : List Action) :
    R (executor.handOver depth actions) (executor'.handOver depth actions) := by
  induction actions with
  | nil => exact h.nothing
  | cons a rest ih =>
    have hall := h.andThen (h.delegate a (h.run a) depth) ih
    exact hall

end Compositional

/-! ### Going on from a run so far -/

namespace Run

/-- A run, and then another one that began with its variables. -/
def followedBy (r s : Run) : Run := ⟨s.vars, r.trail ++ s.trail, r.calls ++ s.calls, s.failure⟩

theorem followedBy_start {r : Run} (h : r.failure = none) : r.followedBy (start r.vars) = r := by
  obtain ⟨vars, trail, calls, failure⟩ := r
  obtain rfl : failure = none := h
  simp [followedBy, start]

theorem followedBy_assoc (r s t : Run) :
    (r.followedBy s).followedBy t = r.followedBy (s.followedBy t) := by
  simp [followedBy, Array.append_assoc]

end Run

/-- What happens to a run happens after what is there, and only if the run has not failed. -/
structure Resumes (happen : Run → Run) : Prop where
  /-- A run that has failed stays as it is. -/
  absorbs : ∀ r : Run, r.failure ≠ none → happen r = r
  /-- To any other run is added what happens from the beginning, with its variables. -/
  adds : ∀ r : Run, r.failure = none → happen r = r.followedBy (happen (.start r.vars))

namespace Resumes

variable {happen later : Run → Run}

theorem nothing : Resumes fun r => r where
  absorbs _ _ := rfl
  adds _ h := (Run.followedBy_start h).symm

/-- **One thing and then another.** -/
theorem andThen (h : Resumes happen) (hlater : Resumes later) :
    Resumes fun r => later (happen r) where
  absorbs r hr := by rw [h.absorbs r hr, hlater.absorbs r hr]
  adds r hr := by
    rw [h.adds r hr]
    generalize happen (.start r.vars) = s
    by_cases hs : s.failure = none
    · rw [hlater.adds s hs, hlater.adds (r.followedBy s) hs, Run.followedBy_assoc]
      rfl
    · rw [hlater.absorbs s hs, hlater.absorbs (r.followedBy s) hs]

/-- What is spared a run that has failed resumes if it adds to all others. -/
theorem proceed (h : ∀ r : Run, r.failure = none → happen r = r.followedBy (happen (.start r.vars))) :
    Resumes (Run.proceed happen) where
  absorbs r hr := Run.proceed_of_failure happen hr
  adds r hr := by
    have hstart : (Run.start r.vars).failure = none := rfl
    rw [Run.proceed_of_none happen hr, Run.proceed_of_none happen hstart]
    exact h r hr

theorem record (shownWithin : Option Nat) (a : Action) (h : a.isPresent = true) :
    Resumes (Run.record shownWithin a h) := by
  refine proceed fun r hr => ?_
  have hvars : (Run.start r.vars).vars = r.vars := rfl
  rw [hvars]
  cases shownWithin.bind r.vars.unshowable? <;> simp [Run.followedBy, Run.start, hr]

theorem note (executor : Executor) (a : Action) : Resumes (executor.note a) := by
  cases executor with
  | plain => exact nothing
  | recording blocked shownWithin =>
    unfold Executor.note
    by_cases hpresent : a.isPresent = true
    · simp only [hpresent, dite_true]
      exact record shownWithin a hpresent
    · simp only [hpresent]
      exact nothing

theorem compositional (executor : Executor) :
    Compositional (fun happen _ => Resumes happen) executor executor where
  nothing := nothing
  andThen h hlater := h.andThen hlater
  of_vars h := ⟨fun r hr => (h r.vars).absorbs r hr, fun r hr => (h r.vars).adds r hr⟩
  proceed h := proceed h.adds
  report event := proceed fun r hr => by simp [Run.followedBy, Run.start, hr]
  assign name value := proceed fun r hr => by simp [Run.followedBy, Run.start, hr]
  fail cause := proceed fun r _ => by simp [Run.followedBy, Run.start]
  note a := note executor a
  holdsBack _ := rfl

theorem handOver (executor : Executor) (depth : Nat) (actions : List Action) :
    Resumes (executor.handOver depth actions) :=
  (compositional executor).handOver depth actions

theorem of_vars {happen : Variables → Run → Run} (h : ∀ vars, Resumes (happen vars)) :
    Resumes fun r => happen r.vars r where
  absorbs r hr := (h r.vars).absorbs r hr
  adds r hr := (h r.vars).adds r hr

theorem repeated (total : Int) (h : Resumes happen) (remaining : Nat) :
    Resumes (Run.repeated total happen remaining) :=
  @Compositional.repeated _ _ _ (compositional .plain) total happen happen h remaining

theorem delegate (executor : Executor) (a : Action) {perform : Nat → Run → Run}
    (h : ∀ depth, Resumes (perform depth)) (depth : Nat) :
    Resumes (executor.delegate a perform depth) :=
  @Compositional.delegate _ _ _ (compositional executor) a perform perform h depth

/-- What resumes is spared a run that has failed. -/
theorem proceed_eq (h : Resumes happen) : Run.proceed happen = happen := by
  funext r
  by_cases hr : r.failure = none
  · exact Run.proceed_of_none happen hr
  · rw [Run.proceed_of_failure happen hr, h.absorbs r hr]

end Resumes

/-- **Every action resumes**, whatever executor the actions inside it are handed to. -/
theorem Action.resumes_run (executor : Executor) (a : Action) (depth : Nat) :
    Resumes (a.run executor depth) :=
  (Resumes.compositional executor).run a depth

end DecisionFlow
