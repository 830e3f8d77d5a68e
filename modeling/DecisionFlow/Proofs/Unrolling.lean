import DecisionFlow.Proofs.Recording

/-!
# Loops round by round

A loop hands over its body once for each round, on the variables that the round before leaves, until it
has done so as often as it is to, or until a round fails.  So it leaves what the body leaves that is run
as many times in sequence, and reports what the body reports, with the lines of the loop around it.

* `Action.rounds` — the runs of the body, one for each round that is begun;
* `Action.rounds_cases` — every round comes to its end, or the last one fails and with it the sequence;
* `Action.rounds_getElem?` — a round begins with the variables that the rounds before it leave;
* `Event.ofRounds` — the lines of rounds, which `Run.trail_repeated` says are reported;
* `execute_loop` — all this for a loop from the beginning.
-/

namespace DecisionFlow

/-! ### Rounds -/

namespace Action

variable (executor : Executor) (depth : Nat) (body : Action)

/-- The runs of a body that is to be handed over so many times, each on the variables that the one before
it leaves, up to the first that fails. -/
def rounds : Nat → Variables → List Run
  | 0, _ => []
  | n + 1, vars =>
    let done := executor.delegate body (body.run executor) depth (.start vars)
    done :: if done.failure = none then rounds n done.vars else []

/-- A body that is handed over so many times in sequence. -/
def inSequence (n : Nat) (vars : Variables) : Run :=
  executor.handOver depth (List.replicate n body) (.start vars)

theorem resumes_delegate : Resumes (executor.delegate body (body.run executor) depth) :=
  .delegate executor body (body.resumes_run executor) depth

theorem rounds_succ (n : Nat) (vars : Variables) {done : Run}
    (hdone : executor.delegate body (body.run executor) depth (.start vars) = done) :
    body.rounds executor depth (n + 1) vars =
      done :: if done.failure = none then body.rounds executor depth n done.vars else [] := by
  rw [rounds, hdone]

/-- After a round that comes to its end, the sequence goes on with the variables that it leaves. -/
theorem inSequence_succ_of_none {n : Nat} {vars : Variables} {done : Run}
    (hdone : executor.delegate body (body.run executor) depth (.start vars) = done)
    (hnone : done.failure = none) :
    body.inSequence executor depth (n + 1) vars =
      done.followedBy (body.inSequence executor depth n done.vars) := by
  have hrest := Resumes.handOver executor depth (List.replicate n body)
  show executor.handOver depth (body :: List.replicate n body) (.start vars) = _
  rw [Executor.handOver_cons, hdone, hrest.adds done hnone]
  rfl

/-- After a round that fails, nothing comes any more. -/
theorem inSequence_succ_of_failure {n : Nat} {vars : Variables} {done : Run}
    (hdone : executor.delegate body (body.run executor) depth (.start vars) = done)
    (hfailure : done.failure ≠ none) : body.inSequence executor depth (n + 1) vars = done := by
  have hrest := Resumes.handOver executor depth (List.replicate n body)
  show executor.handOver depth (body :: List.replicate n body) (.start vars) = _
  rw [Executor.handOver_cons, hdone, hrest.absorbs done hfailure]

/-- **Either every round comes to its end, or the last one that is begun fails**, and with it the
sequence, which leaves the variables that this round leaves. -/
theorem rounds_cases (n : Nat) (vars : Variables) :
    ((body.inSequence executor depth n vars).failure = none ∧
      (body.rounds executor depth n vars).length = n ∧
      ∀ done ∈ body.rounds executor depth n vars, done.failure = none) ∨
    ∃ before last cause, body.rounds executor depth n vars = before ++ [last] ∧
      (∀ done ∈ before, done.failure = none) ∧ last.failure = some cause ∧
      (body.inSequence executor depth n vars).failure = some cause ∧
      (body.inSequence executor depth n vars).vars = last.vars := by
  induction n generalizing vars with
  | zero => exact .inl ⟨rfl, rfl, fun _ hmem => nomatch hmem⟩
  | succ n ih =>
    generalize hdone : executor.delegate body (body.run executor) depth (.start vars) = done
    rw [rounds_succ executor depth body n vars hdone]
    cases hfailure : done.failure with
    | none =>
      rw [inSequence_succ_of_none executor depth body hdone hfailure, if_pos rfl]
      rcases ih done.vars with ⟨hnone, hlength, hall⟩ | ⟨before, last, cause, hrounds, hrest⟩
      · exact .inl ⟨hnone, congrArg (· + 1) hlength, List.forall_mem_cons.mpr ⟨hfailure, hall⟩⟩
      · obtain ⟨hbefore, hlast, hsequence⟩ := hrest
        rw [hrounds]
        exact .inr ⟨done :: before, last, cause, rfl, List.forall_mem_cons.mpr ⟨hfailure, hbefore⟩,
          hlast, hsequence⟩
    | some cause =>
      have hfails : done.failure ≠ none := by simp [hfailure]
      rw [inSequence_succ_of_failure executor depth body hdone hfails, if_neg (by simp)]
      exact .inr ⟨[], done, cause, rfl, fun _ hmem => (nomatch hmem), hfailure, hfailure, rfl⟩

/-- **A round begins with the variables that the rounds before it leave.** -/
theorem rounds_getElem? {n k : Nat} {vars : Variables} {done : Run}
    (h : (body.rounds executor depth n vars)[k]? = some done) :
    done = executor.delegate body (body.run executor) depth
      (.start (body.inSequence executor depth k vars).vars) := by
  induction n generalizing k vars with
  | zero => simp [rounds] at h
  | succ n ih =>
    generalize hfirst : executor.delegate body (body.run executor) depth (.start vars) = first at h
    rw [rounds_succ executor depth body n vars hfirst] at h
    cases k with
    | zero =>
      rw [List.getElem?_cons_zero, Option.some.injEq] at h
      rw [← h, ← hfirst]
      rfl
    | succ k =>
      rw [List.getElem?_cons_succ] at h
      split at h
      · rename_i hnone
        rw [ih h, inSequence_succ_of_none executor depth body hfirst hnone]
        rfl
      · simp at h

end Action

/-! ### The lines of rounds -/

/-- The lines of rounds of which the first has the given number: each begins with a line of its own. -/
def Event.ofRounds (total : Int) : Int → List Run → List Event
  | _, [] => []
  | number, done :: rest =>
    .iteration number total :: (done.trail.toList ++ ofRounds total (number + 1) rest)

/-- What is repeated reports its rounds. -/
theorem Run.trail_repeated (executor : Executor) (depth : Nat) (body : Action) (total : Int)
    (remaining : Nat) (vars : Variables) :
    (repeated total (executor.delegate body (body.run executor) depth) remaining
        (.start vars)).trail.toList =
      Event.ofRounds total (total - remaining + 1) (body.rounds executor depth remaining vars) := by
  have hbody := body.resumes_delegate executor depth
  induction remaining generalizing vars with
  | zero => rfl
  | succ remaining ih =>
    have hrest := hbody.repeated total remaining
    have hnumber : total - ((remaining + 1 : Nat) : Int) + 1 = total - remaining := by omega
    generalize hdone : executor.delegate body (body.run executor) depth (.start vars) = done
    generalize hbegun : (start vars).report (.iteration (total - remaining) total) = begun
    have hround : executor.delegate body (body.run executor) depth begun = begun.followedBy done := by
      rw [← hdone, ← hbegun]
      exact hbody.adds _ rfl
    have hline : begun.trail.toList = [.iteration (total - remaining) total] := by
      rw [← hbegun]
      rfl
    rw [repeated_succ, proceed_of_none _ rfl, hbegun, hround, hnumber,
      Action.rounds_succ executor depth body remaining vars hdone, Event.ofRounds]
    by_cases hnone : done.failure = none
    · have hgoes := hrest.adds (begun.followedBy done) hnone
      have hlater := ih done.vars
      rw [hgoes, if_pos hnone, ← hlater]
      simp [followedBy, hline]
    · rw [hrest.absorbs (begun.followedBy done) hnone, if_neg hnone]
      simp [followedBy, hline, Event.ofRounds]

/-- A line is reported unless the run has failed. -/
theorem Run.trail_report (event : Event) (r : Run) :
    (r.report event).trail.toList = r.trail.toList ++ if r.failure = none then [event] else [] := by
  cases hfailure : r.failure with
  | none => simp [report, proceed, hfailure]
  | some cause => simp [report, proceed, hfailure]

/-- A loop whose count is that of its rounds numbers them from one. -/
theorem Run.trail_repeated_count (executor : Executor) (depth : Nat) (body : Action) (count : Int)
    (vars : Variables) :
    (repeated count (executor.delegate body (body.run executor) depth) count.toNat
        (.start vars)).trail.toList =
      Event.ofRounds count 1 (body.rounds executor depth count.toNat vars) := by
  rw [trail_repeated]
  rcases Int.le_total 0 count with hpositive | hnegative
  · rw [Int.toNat_of_nonneg hpositive, Int.sub_self]
    rfl
  · rw [Int.toNat_of_nonpos hnegative]
    rfl

/-- A loop is what is repeated, between two lines, of which the second is spared a run that has failed. -/
theorem Action.execute_loop_eq (executor : Executor) (depth : Nat) {count : Int} {body : Action}
    (hcount : Numeral.isTooLong count = false) (hbody : body.isPresent = true) (vars : Variables) :
    (loop count body).execute depth executor vars =
      (((Run.start vars).report (.loopStarted count)).followedBy
        (Run.repeated count (executor.delegate body (body.run executor) depth) count.toNat
          (.start vars))).report (.loopCompleted count) := by
  have hresumes := (body.resumes_delegate executor depth).repeated count count.toNat
  rw [execute, run_loop, hcount, if_pos hbody, hresumes.adds _ rfl]
  rfl

/-- **A loop is its rounds.**  Its body is run in sequence, each time on the variables that the round
before leaves, until that has been done as often as the count says, or a round fails.  The loop leaves the
variables that the sequence leaves, fails as it does, and reports the lines of the rounds after a line for
its beginning, and after them a line for its end exactly if no round fails. -/
theorem execute_loop (executor : Executor) (depth : Nat) {count : Int} {body : Action}
    (hcount : Numeral.isTooLong count = false) (hbody : body.isPresent = true) (vars : Variables) :
    let run := (Action.loop count body).execute depth executor vars
    let rounds := body.rounds executor depth count.toNat vars
    let sequence := body.inSequence executor depth count.toNat vars
    (run.vars = sequence.vars ∧ run.failure = sequence.failure ∧ run.calls = sequence.calls) ∧
    run.trail.toList = .loopStarted count :: (Event.ofRounds count 1 rounds ++
      if run.failure = none then [.loopCompleted count] else []) ∧
    ((run.failure = none ∧ rounds.length = count.toNat ∧ ∀ done ∈ rounds, done.failure = none) ∨
      ∃ before last cause, rounds = before ++ [last] ∧ (∀ done ∈ before, done.failure = none) ∧
        last.failure = some cause ∧ run.failure = some cause ∧ run.vars = last.vars) ∧
    ∀ k done, rounds[k]? = some done → done = executor.delegate body (body.run executor) depth
      (.start (body.inSequence executor depth k vars).vars) := by
  intro run rounds sequence
  generalize hrepeated : Run.repeated count (executor.delegate body (body.run executor) depth)
    count.toNat (.start vars) = repeated
  generalize hbegun : ((Run.start vars).report (.loopStarted count)).followedBy repeated = begun
  have hrun : run = begun.report (.loopCompleted count) := by
    rw [← hbegun, ← hrepeated]
    exact Action.execute_loop_eq executor depth hcount hbody vars
  obtain ⟨hvars, hfailure, hcalls⟩ :=
    Run.eq_of_untold (Run.untold_report (.loopCompleted count) begun)
  have hsequence : run.vars = sequence.vars ∧ run.failure = sequence.failure ∧
      run.calls = sequence.calls := by
    have hsame := Run.eq_of_untold
      (Resumes.untold_repeated executor depth body count count.toNat (.start vars))
    rw [hrepeated] at hsame
    rw [hrun, hvars, hfailure, hcalls, ← hbegun]
    exact ⟨hsame.1, hsame.2.1, Array.empty_append.trans hsame.2.2⟩
  have htrail : run.trail.toList = .loopStarted count :: (Event.ofRounds count 1 rounds ++
      if run.failure = none then [.loopCompleted count] else []) := by
    have hrounds : repeated.trail.toList = Event.ofRounds count 1 rounds := by
      rw [← hrepeated]
      exact Run.trail_repeated_count executor depth body count vars
    have hlines : begun.trail.toList = .loopStarted count :: repeated.trail.toList := by
      rw [← hbegun]
      exact Array.toList_append
    rw [hrun, hfailure, Run.trail_report, hlines, hrounds]
    rfl
  refine ⟨hsequence, htrail, ?_, fun k done => Action.rounds_getElem? executor depth body⟩
  rw [hsequence.1, hsequence.2.1]
  exact Action.rounds_cases executor depth body count.toNat vars

/-- Rounds of which the third fails, in a loop of five. -/
theorem execute_loop_failing :
    let check : Action := .condition "n > 2" (.fail "stop") (.sms "1")
    let body : Action := .sequence (.increase "n" (.integer 1)) check
    let vars : Variables := .ofList [("n", .integer 0)]
    let run : Run := (Action.loop 5 body).execute Depth.standard .plain vars
    let rounds : List Run := body.rounds .plain Depth.standard 5 vars
    let sequence : Run := body.inSequence .plain Depth.standard 5 vars
    Numeral.isTooLong 5 = false ∧ body.isPresent = true ∧
    (run.vars = sequence.vars ∧ run.failure = sequence.failure) ∧
    run.vars.toList = [("n", .integer 3)] ∧ run.failure = some (.raised "stop") ∧
    rounds.map (fun done => done.trail.toList) = [
      [.conditionDecided "n > 2" false, .smsSent "1"], [.conditionDecided "n > 2" false, .smsSent "1"],
      [.conditionDecided "n > 2" true]] ∧
    run.trail.toList = [.loopStarted 5,
      .iteration 1 5, .conditionDecided "n > 2" false, .smsSent "1",
      .iteration 2 5, .conditionDecided "n > 2" false, .smsSent "1",
      .iteration 3 5, .conditionDecided "n > 2" true] := by
  intro check body vars run rounds sequence
  have hcount : Numeral.isTooLong 5 = false := by decide +kernel
  obtain ⟨⟨hvars, hfailure, -⟩, -⟩ :=
    execute_loop .plain Depth.standard hcount (rfl : body.isPresent = true) vars
  have htimes : Int.toNat 5 = 5 := rfl
  rw [htimes] at hvars hfailure
  exact ⟨hcount, rfl, ⟨hvars, hfailure⟩, by decide +kernel, by decide +kernel, by decide +kernel,
    by decide +kernel⟩

end DecisionFlow
