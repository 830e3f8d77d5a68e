import DecisionFlow.Proofs.Reach
import DecisionFlow.Proofs.Resumption

/-!
# Sequences of sequences

Actions are put together to sequences two by two.  How that is done does not matter for a run, only
which actions are put together and in which order.  What is nested more deeply has less depth left, so
this holds as long as a run goes too deep at no place where the actions one by one do not.

* `Action.members` — the actions that a sequence is put together from;
* `Run.inTurn` — actions one after the other, up to the first that fails;
* `Run.DeeperThan` — a run goes too deep where another one does not;
* `Matches` — with little depth happens what happens with much, unless it goes deeper:
  `Action.matches_run` says this of every action, `Action.matches_members` of a sequence and its members;
* `execute_of_members` — a sequence is run as its members are, however it is put together.
-/

namespace DecisionFlow

/-- The actions that a sequence is put together from, in order.  None of them is a sequence. -/
def Action.members : Action → List Action
  | sequence first next => first.members ++ next.members
  | a => [a]

/-- Actions one after the other, each on the variables that it finds, up to the first that fails. -/
def Run.inTurn (depth : Nat) : List Action → Variables → Run
  | [], vars => .start vars
  | a :: rest, vars =>
    let done := a.execute depth .plain vars
    if done.failure = none then done.followedBy (inTurn depth rest done.vars) else done

/-- Actions one after the other, on a run so far. -/
def Run.through (depth : Nat) (actions : List Action) (r : Run) : Run :=
  actions.foldl (fun r a => a.run .plain depth r) r

theorem Resumes.through (depth : Nat) (actions : List Action) :
    Resumes (Run.through depth actions) := by
  induction actions with
  | nil => exact .nothing
  | cons a rest ih => exact (a.resumes_run .plain depth).andThen ih

/-- Without an executor that intervenes, handing over is running with the depth that is left. -/
theorem Executor.delegate_plain (a : Action) (perform : Nat → Run → Run) (inside : Nat) :
    plain.delegate a perform (inside + Depth.delegation) = perform inside := by
  have hback : plain.holdsBack a = false := rfl
  have htake : Depth.take? Depth.delegation (inside + Depth.delegation) = some inside :=
    Depth.take?_eq_some.mpr rfl
  funext r
  rw [delegate_eq hback, htake]
  rfl

theorem Run.through_append (depth : Nat) (actions more : List Action) (r : Run) :
    through depth (actions ++ more) r = through depth more (through depth actions r) :=
  List.foldl_append

theorem Action.members_of_not_sequence {a : Action} (h : a.isSequence = false) : a.members = [a] := by
  cases a with
  | sequence first next => cases h
  | _ => rfl

theorem Run.through_singleton (depth : Nat) (a : Action) : through depth [a] = a.run .plain depth := rfl

/-- From the beginning, going on to the next action is stopping at the first failure. -/
theorem Run.through_start (depth : Nat) (actions : List Action) (vars : Variables) :
    through depth actions (.start vars) = inTurn depth actions vars := by
  induction actions generalizing vars with
  | nil => rfl
  | cons a rest ih =>
    have hrest := Resumes.through depth rest
    show through depth rest (a.execute depth .plain vars) = _
    rw [inTurn]
    split
    · rename_i hdone
      rw [hrest.adds _ hdone, ih]
    · rename_i hfailed
      exact hrest.absorbs _ hfailed

/-! ### Going too deep -/

/-- A run goes deeper than another: it ends for want of depth, or it finds a condition too deep where
the other reports something else. -/
def Run.DeeperThan (r other : Run) : Prop :=
  r.failure = some .tooDeep ∨
    ∃ (i : Nat) (expression : String) (event : Event),
      r.trail[i]? = some (.conditionFailed expression .tooDeep) ∧
      other.trail[i]? = some event ∧ event ≠ .conditionFailed expression .tooDeep

/-- A run that reports what another one reports, and does not end for want of depth, goes no deeper. -/
theorem Run.not_deeperThan_of_trail_eq {r other : Run} (hfailure : r.failure ≠ some .tooDeep)
    (htrail : r.trail = other.trail) : ¬r.DeeperThan other := by
  intro hdeeper
  rcases hdeeper with hdeep | ⟨i, expression, event, hr, hother, hne⟩
  · exact hfailure hdeep
  · rw [← htrail, hr] at hother
    exact hne (Option.some.inj hother).symm

/-- What has been reported stays where it is. -/
theorem Resumes.getElem?_trail {happen : Run → Run} (h : Resumes happen) {r : Run} {i : Nat}
    {event : Event} (hevent : r.trail[i]? = some event) : (happen r).trail[i]? = some event := by
  by_cases hr : r.failure = none
  · obtain ⟨hi, -⟩ := Array.getElem?_eq_some_iff.mp hevent
    rw [h.adds r hr]
    show (r.trail ++ _)[i]? = some event
    rw [Array.getElem?_append_left hi, hevent]
  · rw [h.absorbs r hr, hevent]

/-- Whatever happens later, a run that went deeper than another has done so. -/
theorem Run.DeeperThan.andThen {r other : Run} (h : r.DeeperThan other) {later later' : Run → Run}
    (hlater : Resumes later) (hlater' : Resumes later') : (later r).DeeperThan (later' other) := by
  rcases h with hdeep | ⟨i, expression, event, hr, hother, hne⟩
  · left
    rw [hlater.absorbs r (by simp [hdeep]), hdeep]
  · right
    exact ⟨i, expression, event, hlater.getElem?_trail hr, hlater'.getElem?_trail hother, hne⟩

/-- With more depth a condition is decided in the same way, unless it was too deep and no longer is. -/
theorem Condition.decision_of_le {scarce ample : Nat} (h : scarce ≤ ample) (expression : String)
    (vars : Variables) :
    decision scarce expression vars = decision ample expression vars ∨
      (decision scarce expression vars).failure = some .tooDeep ∧
        (decision ample expression vars).failure ≠ some .tooDeep := by
  simp only [decision, truthWithin_eq]
  by_cases hscarce : reach expression vars ≤ scarce
  · left
    rw [Bounded.within_of_le _ hscarce, Bounded.within_of_le _ (Nat.le_trans hscarce h)]
  · by_cases hample : reach expression vars ≤ ample
    · right
      rw [Bounded.within_of_lt _ (Nat.not_le.mp hscarce), Bounded.within_of_le _ hample]
      cases truth expression vars with
      | ok holds => exact ⟨rfl, nofun⟩
      | error cause => exact ⟨rfl, nofun⟩
    · left
      rw [Bounded.within_of_lt _ (Nat.not_le.mp hscarce), Bounded.within_of_lt _ (Nat.not_le.mp hample)]

/-- What is reported first when a condition is decided. -/
theorem Run.getElem?_trail_decided (expression : String) (decision : Decision) {r : Run}
    (hr : r.failure = none) :
    (r.decided expression decision).trail[r.trail.size]? =
      some ((decision.event? expression).getD (.conditionDecided expression decision.holds)) := by
  cases hevent : decision.event? expression with
  | none => simp [decided, hevent, report?, report, proceed, hr]
  | some event =>
    simp only [decided, hevent, report?, report, proceed, hr, Option.getD_some]
    rw [Array.getElem?_push_lt (by simp), Array.getElem_push_eq]

/-- A condition that is too deep for one run and not for another makes it go deeper. -/
theorem Run.deeperThan_decided (expression : String) {deep decision : Decision}
    (hdeep : deep.failure = some .tooDeep) (hdecision : decision.failure ≠ some .tooDeep) {r : Run}
    (hr : r.failure = none) :
    (r.decided expression deep).DeeperThan (r.decided expression decision) := by
  have hreported := getElem?_trail_decided expression deep hr
  have hother := getElem?_trail_decided expression decision hr
  simp only [Decision.event?, hdeep, Option.map_some, Option.getD_some] at hreported
  refine .inr ⟨r.trail.size, expression, _, hreported, hother, ?_⟩
  cases hfailure : decision.failure with
  | none => simp [Decision.event?, hfailure]
  | some cause =>
    simp only [Decision.event?, hfailure, Option.map_some, Option.getD_some, ne_eq,
      Event.conditionFailed.injEq, true_and]
    intro heq
    exact hdecision (hfailure.trans (congrArg some heq))

/-! ### Little depth and much -/

/-- With little depth happens what happens with much, unless it goes deeper. -/
structure Matches (scarce ample : Run → Run) : Prop where
  resumes : Resumes scarce
  resumes_ample : Resumes ample
  eq_or_deeper : ∀ r : Run, r.failure = none →
    scarce r = ample r ∨ (scarce r).DeeperThan (ample r)

namespace Matches

variable {scarce ample later later' : Run → Run}

theorem refl {happen : Run → Run} (h : Resumes happen) : Matches happen happen :=
  ⟨h, h, fun _ _ => .inl rfl⟩

/-- What ends for want of depth matches anything. -/
theorem tooDeep (h : Resumes ample) : Matches (Run.fail .tooDeep) ample where
  resumes := (Resumes.compositional .plain).fail .tooDeep
  resumes_ample := h
  eq_or_deeper r hr := .inr (.inl (by simp [Run.fail, Run.proceed, hr]))

/-- **One thing and then another.** -/
theorem andThen (h : Matches scarce ample) (hlater : Matches later later') :
    Matches (fun r => later (scarce r)) fun r => later' (ample r) where
  resumes := h.resumes.andThen hlater.resumes
  resumes_ample := h.resumes_ample.andThen hlater.resumes_ample
  eq_or_deeper r hr := by
    rcases h.eq_or_deeper r hr with hsame | hdeeper
    · rw [hsame]
      by_cases hafter : (ample r).failure = none
      · exact hlater.eq_or_deeper (ample r) hafter
      · left
        rw [hlater.resumes.absorbs _ hafter, hlater.resumes_ample.absorbs _ hafter]
    · exact .inr (hdeeper.andThen hlater.resumes hlater.resumes_ample)

theorem of_vars {few many : Variables → Run → Run} (h : ∀ vars, Matches (few vars) (many vars)) :
    Matches (fun r => few r.vars r) fun r => many r.vars r where
  resumes := .of_vars fun vars => (h vars).resumes
  resumes_ample := .of_vars fun vars => (h vars).resumes_ample
  eq_or_deeper r hr := (h r.vars).eq_or_deeper r hr

theorem compositional : Compositional Matches .plain .plain where
  nothing := refl .nothing
  andThen h hlater := h.andThen hlater
  of_vars h := of_vars h
  proceed h := by
    rw [h.resumes.proceed_eq, h.resumes_ample.proceed_eq]
    exact h
  report event := refl ((Resumes.compositional .plain).report event)
  assign name value := refl ((Resumes.compositional .plain).assign name value)
  fail cause := refl ((Resumes.compositional .plain).fail cause)
  note a := refl (.note .plain a)
  holdsBack _ := rfl

variable {a : Action} {perform : Nat → Run → Run} {depth more : Nat}

/-- What is handed over matches what it matches with the depth that is left for it. -/
theorem delegate (h : Resumes ample)
    (hperform : ∀ inside, depth = inside + Depth.delegation → Matches (perform inside) ample) :
    Matches (Executor.plain.delegate a perform depth) ample := by
  have hback : Executor.plain.holdsBack a = false := rfl
  rw [funext fun r => Executor.delegate_eq hback perform depth r]
  cases htake : Depth.take? Depth.delegation depth with
  | none => exact tooDeep h
  | some inside => exact hperform inside (Depth.take?_eq_some.mp htake)

/-- So with more depth the same is handed over. -/
theorem delegate_of_le (hle : depth ≤ more)
    (hperform : ∀ inside inside', inside ≤ inside' → Matches (perform inside) (perform inside')) :
    Matches (Executor.plain.delegate a perform depth) (Executor.plain.delegate a perform more) := by
  have hresumes (inside : Nat) : Resumes (perform inside) :=
    (hperform inside inside (Nat.le_refl inside)).resumes
  refine delegate (.delegate .plain a hresumes more) fun inside hdepth => ?_
  obtain ⟨inside', rfl⟩ : ∃ inside', more = inside' + Depth.delegation :=
    ⟨more - Depth.delegation, by omega⟩
  rw [Executor.delegate_plain]
  exact hperform inside inside' (by omega)

theorem delegateIfPresent_of_le (hle : depth ≤ more)
    (hperform : ∀ inside inside', inside ≤ inside' → Matches (perform inside) (perform inside')) :
    Matches (Executor.plain.delegateIfPresent a perform depth)
      (Executor.plain.delegateIfPresent a perform more) := by
  unfold Executor.delegateIfPresent
  cases a.isPresent with
  | true => exact delegate_of_le hle hperform
  | false => exact refl .nothing

/-- A condition and the branch that it chooses, which need not be the same if the condition is too deep
with little depth. -/
theorem condition (hle : depth ≤ more) (expression : String) {few many : Bool → Run → Run}
    (h : ∀ holds, Matches (few holds) (many holds)) :
    Matches
      (fun r => few (Condition.decision depth expression r.vars).holds
        (r.decided expression (Condition.decision depth expression r.vars)))
      (fun r => many (Condition.decision more expression r.vars).holds
        (r.decided expression (Condition.decision more expression r.vars))) := by
  have hdecided (decision : Decision) : Resumes (Run.decided expression decision) :=
    (Resumes.compositional .plain).decided expression decision
  have hchosen (decision : Decision) := (refl (hdecided decision)).andThen (h decision.holds)
  have hall (vars : Variables) :
      Matches
        (fun r => few (Condition.decision depth expression vars).holds
          (r.decided expression (Condition.decision depth expression vars)))
        (fun r => many (Condition.decision more expression vars).holds
          (r.decided expression (Condition.decision more expression vars))) := by
    rcases Condition.decision_of_le hle expression vars with hsame | ⟨hdeep, hother⟩
    · rw [hsame]
      exact hchosen _
    · refine ⟨(hchosen _).resumes, (hchosen _).resumes_ample, fun r hr => .inr ?_⟩
      exact (Run.deeperThan_decided expression hdeep hother hr).andThen (h _).resumes
        (h _).resumes_ample
  exact of_vars hall

end Matches

/-- **More depth changes a run only where it went too deep.** -/
theorem Action.matches_run (a : Action) {depth more : Nat} (hle : depth ≤ more) :
    Matches (a.run .plain depth) (a.run .plain more) := by
  have h := Matches.compositional
  induction a generalizing depth more with
  | condition expression whenTrue whenFalse iht ihf =>
    have hbranch (holds : Bool) :
        Matches
          (Executor.plain.delegateIfPresent (branch whenTrue whenFalse holds)
            ((branch whenTrue whenFalse holds).run .plain) depth)
          (Executor.plain.delegateIfPresent (branch whenTrue whenFalse holds)
            ((branch whenTrue whenFalse holds).run .plain) more) := by
      refine .delegateIfPresent_of_le hle fun inside inside' hinside => ?_
      cases holds with
      | true => exact iht hinside
      | false => exact ihf hinside
    rw [funext fun r => run_condition .plain depth r expression whenTrue whenFalse,
      funext fun r => run_condition .plain more r expression whenTrue whenFalse]
    exact .condition hle expression hbranch
  | loop count body ih =>
    have hbody := Matches.delegate_of_le (a := body) hle fun _ _ hinside => ih hinside
    have hrounds := h.repeated count hbody count.toNat
    have hstarted := h.report (.loopStarted count)
    rw [funext fun r => run_loop .plain depth r count body,
      funext fun r => run_loop .plain more r count body]
    cases Numeral.isTooLong count with
    | true => exact h.fail .countTooLong
    | false =>
      cases body.isPresent with
      | true => exact h.andThen hstarted (h.andThen hrounds (h.report (.loopCompleted count)))
      | false => exact h.andThen hstarted (h.report .loopSkipped)
  | sequence first next ihf ihn =>
    have hfirst := Matches.delegate_of_le (a := first) hle fun _ _ hinside => ihf hinside
    rw [funext fun r => run_sequence .plain depth r first next,
      funext fun r => run_sequence .plain more r first next]
    cases next.isSequence with
    | true => exact hfirst.andThen (ihn hle)
    | false => exact hfirst.andThen (.delegate_of_le hle fun _ _ hinside => ihn hinside)
  | increase name amount => exact h.increase name amount
  | absent | sms | email | assign | fail | skip => exact .refl (resumes_run .plain _ depth)

/-- **A sequence matches its members**, one after the other with all the depth that it has itself. -/
theorem Action.matches_members (a : Action) {depth more : Nat} (hle : depth ≤ more) :
    Matches (a.run .plain depth) (Run.through more a.members) := by
  induction a generalizing depth with
  | sequence first next ihf ihn =>
    have hfirst : Matches (Executor.plain.delegate first (first.run .plain) depth)
        (Run.through more first.members) :=
      .delegate (.through more first.members) fun inside hdepth => ihf (by omega)
    have hnext : Matches (Executor.plain.delegate next (next.run .plain) depth)
        (Run.through more next.members) :=
      .delegate (.through more next.members) fun inside hdepth => ihn (by omega)
    rw [funext fun r => run_sequence .plain depth r first next,
      show (sequence first next).members = first.members ++ next.members from rfl,
      funext fun r => Run.through_append more first.members next.members r]
    cases next.isSequence with
    | true => exact hfirst.andThen (ihn hle)
    | false => exact hfirst.andThen hnext
  | _ =>
    rw [members_of_not_sequence rfl, Run.through_singleton]
    exact matches_run _ hle

/-- **How actions are put together to sequences does not matter.**  Of two sequences with the same
members, each reports what the members report one after the other, leaves the same variables, and fails
as the first member that fails, unless it goes too deep where the members by themselves do not. -/
theorem execute_of_members {a b : Action} (hmembers : a.members = b.members) {depth : Nat}
    {vars : Variables}
    (ha : ¬(a.execute depth .plain vars).DeeperThan (.inTurn depth a.members vars))
    (hb : ¬(b.execute depth .plain vars).DeeperThan (.inTurn depth b.members vars)) :
    a.execute depth .plain vars = b.execute depth .plain vars ∧
    a.execute depth .plain vars = .inTurn depth a.members vars := by
  have hone (c : Action)
      (hc : ¬(c.execute depth .plain vars).DeeperThan (.inTurn depth c.members vars)) :
      c.execute depth .plain vars = .inTurn depth c.members vars := by
    rw [← Run.through_start] at hc ⊢
    exact ((c.matches_members (Nat.le_refl depth)).eq_or_deeper (.start vars) rfl).resolve_right hc
  have hsame : a.execute depth .plain vars = b.execute depth .plain vars := by
    rw [hone a ha, hone b hb, hmembers]
  exact ⟨hsame, hone a ha⟩

/-- Five members, of which the fourth fails, put together in two ways.  The first one decides a condition
that is too deep wherever it stands. -/
theorem execute_of_members_failing :
    let deep : Action := .condition "((((true))))" .absent (.assign "n" (.number (.integer 1)))
    let send : Action := .sms "1"
    let twice : Action := .loop 2 (.sequence (.increase "n" (.integer 1)) send)
    let check : Action := .condition "n > 2" (.fail "stop") .absent
    let a : Action := .sequence (.sequence deep (.sequence send twice)) (.sequence check send)
    let b : Action := .sequence deep (.sequence (.sequence send (.sequence twice check)) send)
    let members : List Action := [deep, send, twice, check, send]
    let run (a : Action) : Run := a.execute 14 .plain .empty
    let inTurn : Run := .inTurn 14 members .empty
    (a.members = members ∧ b.members = members) ∧
    (¬(run a).DeeperThan inTurn ∧ ¬(run b).DeeperThan inTurn) ∧
    (run a = run b ∧ run a = inTurn) ∧
    inTurn.trail = #[.conditionFailed "((((true))))" .tooDeep,
      .conditionDecided "((((true))))" false, .smsSent "1", .loopStarted 2, .iteration 1 2, .smsSent "1",
      .iteration 2 2, .smsSent "1", .loopCompleted 2, .conditionDecided "n > 2" true] ∧
    inTurn.vars.toList = [("n", .integer 3)] ∧ inTurn.failure = some (.raised "stop") := by
  intro deep send twice check a b members run inTurn
  have ha : ¬(run a).DeeperThan inTurn :=
    Run.not_deeperThan_of_trail_eq (by decide +kernel) (by decide +kernel)
  have hb : ¬(run b).DeeperThan inTurn :=
    Run.not_deeperThan_of_trail_eq (by decide +kernel) (by decide +kernel)
  have hmembers : a.members = members ∧ b.members = members := ⟨rfl, rfl⟩
  exact ⟨hmembers, ⟨ha, hb⟩, execute_of_members (hmembers.1.trans hmembers.2.symm) ha hb,
    by decide +kernel, by decide +kernel, by decide +kernel⟩

end DecisionFlow
