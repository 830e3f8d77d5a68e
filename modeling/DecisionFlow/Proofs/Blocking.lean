import DecisionFlow.Proofs.Completion
import DecisionFlow.Proofs.Interpreter
import DecisionFlow.Proofs.Recording

/-!
# Holding actions back

An executor may record the actions that are handed to it and hold back those of some kinds.  What then
happens is what happens without it to a pruned action, in which nothing stands in the place of whatever
is held back.  Only what is handed over can be held back, so the rest of a sequence, which the sequence
goes on with by itself, never is.

* `Executor.blocking` — the executor in question;
* `Action.pruned`, `Action.standIn` — the pruned action, and what stands in the place of an action that
  is handed over;
* `Action.chain_pruned` — a chain keeps all its links;
* `Mirrors` — what happens while actions are held back is what happens without that, up to the record;
* `Action.mirrors_run` — an action that is run with the executor mirrors the pruned action;
* `execute_blocking` — all this for a run from the beginning.
-/

namespace DecisionFlow

/-- The executor that records every action that is handed to it, and runs those that are not of the given
kinds. -/
def Executor.blocking (kinds : List ActionKind) : Executor := .recording kinds none

/-! ### Pruned actions -/

namespace Action

/-- Whether an action is of one of the given kinds. -/
def isOf (kinds : List ActionKind) (a : Action) : Bool := a.kind?.any fun kind => kinds.contains kind

/-- An action without what it hands over of the given kinds: in its place nothing is done. -/
def pruned (kinds : List ActionKind) : Action → Action
  | condition expression whenTrue whenFalse =>
    condition expression (if whenTrue.isOf kinds then skip else whenTrue.pruned kinds)
      (if whenFalse.isOf kinds then skip else whenFalse.pruned kinds)
  | loop count body => loop count (if body.isOf kinds then skip else body.pruned kinds)
  | sequence first next =>
    sequence (if first.isOf kinds then skip else first.pruned kinds)
      (if next.isOf kinds && !next.isSequence then skip else next.pruned kinds)
  | a => a

/-- What stands in the place of an action that is handed over. -/
def standIn (kinds : List ActionKind) (a : Action) : Action :=
  if a.isOf kinds then skip else a.pruned kinds

theorem isPresent_of_isOf {kinds : List ActionKind} {a : Action} (h : a.isOf kinds = true) :
    a.isPresent = true := by
  cases a with
  | absent => cases h
  | _ => rfl

variable (kinds : List ActionKind)

theorem pruned_condition (expression : String) (whenTrue whenFalse : Action) :
    (condition expression whenTrue whenFalse).pruned kinds =
      condition expression (whenTrue.standIn kinds) (whenFalse.standIn kinds) := rfl

theorem pruned_loop (count : Int) (body : Action) :
    (loop count body).pruned kinds = loop count (body.standIn kinds) := rfl

/-- The rest of a sequence, if it is a sequence, is not handed over. -/
theorem pruned_sequence (first next : Action) :
    (sequence first next).pruned kinds = sequence (first.standIn kinds)
      (if next.isSequence then next.pruned kinds else next.standIn kinds) := by
  rw [pruned]
  unfold standIn
  cases next.isSequence <;> simp

theorem pruned_sequence_of_isSequence (first : Action) {next : Action}
    (h : next.isSequence = false) :
    (sequence first next).pruned kinds = sequence (first.standIn kinds) (next.standIn kinds) := by
  rw [pruned_sequence, h]
  rfl

theorem isSequence_pruned (a : Action) : (a.pruned kinds).isSequence = a.isSequence := by
  cases a <;> rfl

theorem isSequence_standIn {a : Action} (h : a.isSequence = false) :
    (a.standIn kinds).isSequence = false := by
  unfold standIn
  split
  · rfl
  · rw [isSequence_pruned, h]

theorem isPresent_standIn (a : Action) : (a.standIn kinds).isPresent = a.isPresent := by
  unfold standIn
  split
  · rename_i hkind
    exact (isPresent_of_isOf hkind).symm
  · cases a <;> rfl

theorem standIn_branch (whenTrue whenFalse : Action) (holds : Bool) :
    branch (whenTrue.standIn kinds) (whenFalse.standIn kinds) holds =
      (branch whenTrue whenFalse holds).standIn kinds := by
  cases holds <;> rfl

/-- **A chain keeps all its links**: something stands in the place of each. -/
theorem chain_pruned (first next : Action) :
    ((sequence first next).pruned kinds).chain = (sequence first next).chain.map (standIn kinds) := by
  have hone {a : Action} (h : a.isSequence = false) : a.chain = [a] := by
    cases a with
    | sequence first next => cases h
    | _ => rfl
  induction next generalizing first with
  | sequence second rest _ ih =>
    show _ = first.standIn kinds :: (sequence second rest).chain.map (standIn kinds)
    rw [← ih second, pruned_sequence]
    rfl
  | _ =>
    rw [pruned_sequence_of_isSequence kinds first rfl]
    exact congrArg (first.standIn kinds :: ·) (hone (isSequence_standIn kinds rfl))

end Action

theorem Executor.holdsBack_blocking (kinds : List ActionKind) (a : Action) :
    (blocking kinds).holdsBack a = a.isOf kinds := by
  unfold blocking holdsBack Action.isOf
  cases a.kind? <;> rfl

/-! ### Mirroring -/

/-- What happens while actions are held back is, up to the record, what happens without that: always, if
there is depth enough, and else unless that goes too deep. -/
structure Mirrors (enough : Prop) (held plain : Run → Run) : Prop where
  /-- A run that has failed stays as it is. -/
  absorbs : ∀ r : Run, r.failure ≠ none → plain r = r
  unrecorded_eq : ∀ r : Run, enough ∨ (plain r.unrecorded).failure ≠ some .tooDeep →
    (held r).unrecorded = plain r.unrecorded

namespace Mirrors

variable {enough : Prop} {held held' plain plain' : Run → Run}

/-- **One thing and then another.**  If the first goes too deep, so do both. -/
theorem andThen (h : Mirrors enough held plain) (hlater : Mirrors enough held' plain') :
    Mirrors enough (fun r => held' (held r)) fun r => plain' (plain r) where
  absorbs r hr := by rw [h.absorbs r hr, hlater.absorbs r hr]
  unrecorded_eq r hr := by
    have hfirst : enough ∨ (plain r.unrecorded).failure ≠ some .tooDeep := by
      apply hr.imp_right
      intro hdeep hfailure
      rw [hlater.absorbs _ (hfailure ▸ Option.some_ne_none _)] at hdeep
      exact hdeep hfailure
    have hsame := h.unrecorded_eq r hfirst
    rw [← hsame] at hr ⊢
    exact hlater.unrecorded_eq (held r) hr

theorem proceed (h : ∀ r : Run, enough ∨ (plain r.unrecorded).failure ≠ some .tooDeep →
      (held r).unrecorded = plain r.unrecorded) :
    Mirrors enough (Run.proceed held) (Run.proceed plain) where
  absorbs r hr := Run.proceed_of_failure plain hr
  unrecorded_eq r hr := by
    by_cases hfailure : r.failure = none
    · have hsame : r.unrecorded.failure = none := hfailure
      rw [Run.proceed_of_none plain hsame] at hr ⊢
      rw [Run.proceed_of_none held hfailure]
      exact h r hr
    · have hsame : r.unrecorded.failure ≠ none := hfailure
      rw [Run.proceed_of_failure held hfailure, Run.proceed_of_failure plain hsame]

variable (enough) in
/-- Recording everything mirrors doing it, without any proviso. -/
theorem compositional : Compositional (Mirrors enough) .recorder .plain where
  nothing := ⟨fun _ _ => rfl, fun _ _ => rfl⟩
  andThen h hlater := h.andThen hlater
  of_vars h := ⟨fun r hr => (h r.vars).absorbs r hr, fun r hr => (h r.vars).unrecorded_eq r hr⟩
  proceed h := proceed h.unrecorded_eq
  report _ := proceed fun _ _ => rfl
  assign _ _ := proceed fun _ _ => rfl
  fail _ := proceed fun _ _ => rfl
  note a := ⟨fun _ _ => rfl, fun r _ => Erases.note a r⟩
  holdsBack a := Executor.holdsBack_recorder a

variable {kinds : List ActionKind} {a : Action}

/-- **What is held back** is recorded, and nothing else happens. -/
theorem holdBack (hkind : a.isOf kinds = true) (perform : Nat → Run → Run) (depth : Nat) :
    Mirrors enough ((Executor.blocking kinds).delegate a perform depth) fun r => r := by
  have hnote : (Executor.blocking kinds).delegate a perform depth = Executor.recorder.note a := by
    funext r
    unfold Executor.delegate
    rw [Executor.holdsBack_blocking, hkind]
    rfl
  rw [hnote]
  exact (compositional enough).note a

/-- What is held back mirrors an action that does nothing, if there is depth to hand that over. -/
theorem skip (hkind : a.isOf kinds = true) {depth : Nat} (hdepth : enough → Depth.delegation ≤ depth)
    (perform : Nat → Run → Run) :
    Mirrors enough ((Executor.blocking kinds).delegate a perform depth)
      (Executor.plain.delegate .skip (Action.skip.run .plain) depth) := by
  have hback : Mirrors enough ((Executor.blocking kinds).delegate a perform depth) fun r => r :=
    holdBack hkind perform depth
  have hskip : Executor.plain.holdsBack .skip = false := rfl
  rw [funext fun r => Executor.delegate_eq hskip (Action.skip.run .plain) depth r]
  cases htake : Depth.take? Depth.delegation depth with
  | some inside => exact hback
  | none =>
    have hfails := (compositional enough).fail .tooDeep
    refine ⟨hfails.absorbs, fun r hr => ?_⟩
    show _ = r.unrecorded.fail .tooDeep
    have hdeep : ¬Depth.delegation ≤ depth := Nat.not_le.mpr (Depth.take?_eq_none.mp htake)
    have hnot : (r.unrecorded.fail .tooDeep).failure ≠ some .tooDeep :=
      hr.resolve_left fun henough => hdeep (hdepth henough)
    -- So the run has failed before, and neither side changes it.
    have hfailed : r.unrecorded.failure ≠ none := by
      intro hnone
      apply hnot
      rw [Run.fail, Run.proceed, hnone]
    rw [hfails.absorbs r.unrecorded hfailed] at hnot ⊢
    exact hback.unrecorded_eq r (.inr hnot)

/-- What is handed over and not held back is recorded, and then mirrored. -/
theorem delegate (hkind : a.isOf kinds = false) {standIn : Action} {depth : Nat}
    {perform perform' : Nat → Run → Run}
    (hperform : ∀ inside, depth = inside + Depth.delegation →
      Mirrors enough (perform inside) (perform' inside)) :
    Mirrors enough ((Executor.blocking kinds).delegate a perform depth)
      (Executor.plain.delegate standIn perform' depth) := by
  have hback : (Executor.blocking kinds).holdsBack a = false := by
    rw [Executor.holdsBack_blocking, hkind]
  have hnote := (compositional enough).note a
  have hplain : Executor.plain.holdsBack standIn = false := rfl
  rw [funext fun r => Executor.delegate_eq hback perform depth r,
    funext fun r => Executor.delegate_eq hplain perform' depth r]
  cases htake : Depth.take? Depth.delegation depth with
  | some inside => exact hnote.andThen (hperform inside (Depth.take?_eq_some.mp htake))
  | none => exact hnote.andThen ((compositional enough).fail .tooDeep)

/-- **What is handed over** is mirrored by what stands in its place. -/
theorem standIn {depth : Nat} (hdepth : enough → Depth.delegation + a.runningDepth ≤ depth)
    (hrun : ∀ inside, (enough → a.runningDepth ≤ inside) →
      Mirrors enough (a.run (.blocking kinds) inside) ((a.pruned kinds).run .plain inside)) :
    Mirrors enough ((Executor.blocking kinds).delegate a (a.run (.blocking kinds)) depth)
      (Executor.plain.delegate (a.standIn kinds) ((a.standIn kinds).run .plain) depth) := by
  unfold Action.standIn
  cases hkind : a.isOf kinds with
  | true => exact skip hkind (fun h => Nat.le_of_add_right_le (hdepth h)) _
  | false =>
    apply delegate hkind
    intro inside hinside
    apply hrun
    intro henough
    have hroom := hdepth henough
    omega

theorem standIn_ifPresent {depth : Nat} (hdepth : enough → Depth.delegation + a.runningDepth ≤ depth)
    (hrun : ∀ inside, (enough → a.runningDepth ≤ inside) →
      Mirrors enough (a.run (.blocking kinds) inside) ((a.pruned kinds).run .plain inside)) :
    Mirrors enough ((Executor.blocking kinds).delegateIfPresent a (a.run (.blocking kinds)) depth)
      (Executor.plain.delegateIfPresent (a.standIn kinds) ((a.standIn kinds).run .plain) depth) := by
  unfold Executor.delegateIfPresent
  rw [Action.isPresent_standIn]
  cases a.isPresent with
  | true => exact standIn hdepth hrun
  | false => exact (compositional enough).nothing

end Mirrors

/-- **Holding back is pruning**: an action that is run while actions of some kinds are held back mirrors
the pruned action. -/
theorem Action.mirrors_run (kinds : List ActionKind) {enough : Prop} (a : Action) {depth : Nat}
    (hdepth : enough → a.runningDepth ≤ depth) :
    Mirrors enough (a.run (.blocking kinds) depth) ((a.pruned kinds).run .plain depth) := by
  have h := Mirrors.compositional enough
  induction a generalizing depth with
  | absent => exact h.fail .nothingToRun
  | sms phoneNumber => exact h.report (.smsSent phoneNumber)
  | email sender receiver => exact h.report (.emailSent sender receiver)
  | condition expression whenTrue whenFalse iht ihf =>
    have hbranch (holds : Bool) :
        Mirrors enough
          ((Executor.blocking kinds).delegateIfPresent (branch whenTrue whenFalse holds)
            ((branch whenTrue whenFalse holds).run (.blocking kinds)) depth)
          (Executor.plain.delegateIfPresent ((branch whenTrue whenFalse holds).standIn kinds)
            (((branch whenTrue whenFalse holds).standIn kinds).run .plain) depth) := by
      have hbound : (branch whenTrue whenFalse holds).runningDepth ≤
          max whenTrue.runningDepth whenFalse.runningDepth := by
        cases holds with
        | true => exact Nat.le_max_left _ _
        | false => exact Nat.le_max_right _ _
      apply Mirrors.standIn_ifPresent
      · exact fun henough => Nat.le_trans (Nat.add_le_add_left hbound _) (hdepth henough)
      · intro inside hinside
        cases holds with
        | true => exact iht hinside
        | false => exact ihf hinside
    have hchosen (decision : Decision) :=
      h.andThen (h.decided expression decision) (hbranch decision.holds)
    rw [pruned_condition,
      funext fun r => run_condition (.blocking kinds) depth r expression whenTrue whenFalse,
      funext fun r => run_condition .plain depth r expression (whenTrue.standIn kinds)
        (whenFalse.standIn kinds)]
    simp only [standIn_branch]
    exact h.of_vars fun vars => hchosen (Condition.decision depth expression vars)
  | loop count body ih =>
    have hbody : Mirrors enough
        ((Executor.blocking kinds).delegate body (body.run (.blocking kinds)) depth)
        (Executor.plain.delegate (body.standIn kinds) ((body.standIn kinds).run .plain) depth) :=
      .standIn hdepth fun _ => ih
    have hrounds := h.repeated count hbody count.toNat
    have hstarted := h.report (.loopStarted count)
    rw [pruned_loop, funext fun r => run_loop (.blocking kinds) depth r count body,
      funext fun r => run_loop .plain depth r count (body.standIn kinds), isPresent_standIn]
    cases Numeral.isTooLong count with
    | true => exact h.fail .countTooLong
    | false =>
      cases body.isPresent with
      | true => exact h.andThen hstarted (h.andThen hrounds (h.report (.loopCompleted count)))
      | false => exact h.andThen hstarted (h.report .loopSkipped)
  | sequence first next ihf ihn =>
    rw [runningDepth_sequence] at hdepth
    have hfirst : Mirrors enough
        ((Executor.blocking kinds).delegate first (first.run (.blocking kinds)) depth)
        (Executor.plain.delegate (first.standIn kinds) ((first.standIn kinds).run .plain) depth) :=
      .standIn (fun henough => (Nat.max_le.mp (hdepth henough)).1) fun _ => ihf
    have hnext : enough → next.chainDepth ≤ depth :=
      fun henough => (Nat.max_le.mp (hdepth henough)).2
    unfold chainDepth at hnext
    cases hsequence : next.isSequence with
    | true =>
      rw [hsequence] at hnext
      rw [pruned_sequence, if_pos hsequence,
        funext fun r => run_sequence (.blocking kinds) depth r first next,
        funext fun r => run_sequence .plain depth r (first.standIn kinds) (next.pruned kinds),
        isSequence_pruned, hsequence]
      exact h.andThen hfirst (ihn hnext)
    | false =>
      rw [hsequence] at hnext
      rw [pruned_sequence_of_isSequence kinds first hsequence,
        funext fun r => run_sequence (.blocking kinds) depth r first next,
        funext fun r => run_sequence .plain depth r (first.standIn kinds) (next.standIn kinds),
        hsequence, isSequence_standIn kinds hsequence]
      exact h.andThen hfirst (Mirrors.standIn hnext fun _ => ihn)
  | assign name value => exact h.assign name value
  | increase name amount => exact h.increase name amount
  | fail message => exact h.fail (.raised message)
  | skip => exact h.nothing

/-! ### The lines around what is held back -/

theorem Run.trail_unrecorded (r : Run) : r.unrecorded.trail = r.trail := rfl

namespace Action

variable {kinds : List ActionKind} (depth : Nat) (vars : Variables)

/-- Where its branch is held back, a condition is decided. -/
theorem unrecorded_condition_of_isOf {expression : String} {whenTrue whenFalse : Action}
    (h : (branch whenTrue whenFalse (Condition.decision depth expression vars).holds).isOf kinds = true) :
    ((condition expression whenTrue whenFalse).execute depth (.blocking kinds) vars).unrecorded =
      (Run.start vars).decided expression (Condition.decision depth expression vars) := by
  have hmirrors := Mirrors.compositional True
  have hdecided := hmirrors.decided expression (Condition.decision depth expression vars)
  have hstart : (Run.start vars).vars = vars := rfl
  rw [execute, run_condition, hstart, Executor.delegateIfPresent, if_pos (isPresent_of_isOf h)]
  have hbranch := hdecided.andThen (Mirrors.holdBack h (run (.blocking kinds)
    (branch whenTrue whenFalse (Condition.decision depth expression vars).holds)) depth)
  exact hbranch.unrecorded_eq (.start vars) (.inl trivial)

/-- Where its body is held back, a loop begins every round and ends. -/
theorem unrecorded_loop_of_isOf {count : Int} {body : Action} (h : body.isOf kinds = true)
    (hcount : Numeral.isTooLong count = false) :
    ((loop count body).execute depth (.blocking kinds) vars).unrecorded =
      (Run.start vars).wrote (loopTrail count true []) := by
  have hmirrors := Mirrors.compositional True
  have hrounds := hmirrors.repeated count (Mirrors.holdBack h (body.run (.blocking kinds)) depth)
    count.toNat
  have hloop := hmirrors.andThen (hmirrors.report (.loopStarted count))
    (hmirrors.andThen hrounds (hmirrors.report (.loopCompleted count)))
  have hwrites := (Writes.report vars (.loopStarted count)).andThen
    (((Writes.nothing vars).repeated count count.toNat).andThen
      (.report vars (.loopCompleted count)))
  have hrange : ∀ i ∈ List.range count.toNat,
      [Event.iteration (count - count.toNat + i + 1) count] = [Event.iteration (i + 1) count] := by
    intro i hi
    have hlt := List.mem_range.mp hi
    rw [show count - count.toNat + i + 1 = (i : Int) + 1 by omega]
  rw [execute, run_loop, hcount, if_pos (isPresent_of_isOf h)]
  refine (hloop.unrecorded_eq (.start vars) (.inl trivial)).trans
    ((hwrites (.start vars) rfl rfl).trans ?_)
  rw [List.flatMap, List.map_congr_left hrange]
  rfl

end Action

/-- **Holding actions back is pruning.**  With an executor that records what is handed over to it and
holds back the actions of some kinds, an action reports what the pruned action reports without it,
leaves the same variables and fails for the same reason, if there is depth enough for it or the pruned
action does not go too deep.  A chain keeps all its links, whatever stands in their places.  Around what they
hand over, conditions and loops write their lines, also if that is held back. -/
theorem execute_blocking (kinds : List ActionKind) (a : Action) (depth : Nat) (vars : Variables) :
    let held := a.execute depth (.blocking kinds) vars
    let plain := (a.pruned kinds).execute depth .plain vars
    (a.runningDepth ≤ depth ∨ plain.failure ≠ some .tooDeep →
      held.trail = plain.trail ∧ held.vars = plain.vars ∧ held.failure = plain.failure) ∧
    (∀ first next, a = .sequence first next →
      (a.pruned kinds).chain = a.chain.map (Action.standIn kinds)) ∧
    (∀ expression whenTrue whenFalse, a = .condition expression whenTrue whenFalse →
      let decision := Condition.decision depth expression vars
      (Action.branch whenTrue whenFalse decision.holds).isOf kinds = true →
        held.trail = (decision.event? expression).toArray.push
          (.conditionDecided expression decision.holds)) ∧
    (∀ count body, a = .loop count body → body.isOf kinds = true → Numeral.isTooLong count = false →
      held.trail = (loopTrail count true []).toArray) := by
  intro held plain
  refine ⟨fun hdepth => ?_, ?_, ?_, ?_⟩
  · have hmirrors : Mirrors (a.runningDepth ≤ depth) (a.run (.blocking kinds) depth)
        ((a.pruned kinds).run .plain depth) := a.mirrors_run kinds id
    have hsame : held.unrecorded = plain := hmirrors.unrecorded_eq (.start vars) hdepth
    exact ⟨(congrArg Run.trail hsame : held.unrecorded.trail = plain.trail),
      (congrArg Run.vars hsame : held.unrecorded.vars = plain.vars),
      (congrArg Run.failure hsame : held.unrecorded.failure = plain.failure)⟩
  · rintro first next rfl
    exact Action.chain_pruned kinds first next
  · rintro expression whenTrue whenFalse rfl decision hkind
    have hsame := Action.unrecorded_condition_of_isOf depth vars hkind
    rw [← Run.trail_unrecorded held, hsame]
    unfold Run.decided
    cases decision.event? expression <;> rfl
  · rintro count body rfl hkind hcount
    have hsame := Action.unrecorded_loop_of_isOf depth vars hkind hcount
    rw [← Run.trail_unrecorded held, hsame]
    exact Array.empty_append

/-- A chain of five links, run while sequences and text messages are held back. -/
theorem execute_blocking_chain :
    let kinds : List ActionKind := [.sequence, .sms]
    let grow : Action := .increase "n" (.integer 1)
    let twice : Action := .loop 2 (.condition "n < 2" grow (.fail "much"))
    let inner : Action := .sequence grow grow
    let around : Action := .loop 1 inner
    let check : Action := .condition "n == 2" (.sms "2") .absent
    let a : Action := .sequence twice (.sequence inner (.sequence around (.sequence check (.fail "stop"))))
    let vars : Variables := .ofList [("n", .integer 0)]
    let held (a : Action) : Run := a.execute Depth.standard (.blocking kinds) vars
    let plain : Run := (a.pruned kinds).execute Depth.standard .plain vars
    a.runningDepth ≤ Depth.standard ∧
    ((held a).trail = plain.trail ∧ (held a).vars = plain.vars ∧ (held a).failure = plain.failure) ∧
    (held a).trail = #[.loopStarted 2, .iteration 1 2, .conditionDecided "n < 2" true, .iteration 2 2,
      .conditionDecided "n < 2" true, .loopCompleted 2, .loopStarted 1, .iteration 1 1,
      .loopCompleted 1, .conditionDecided "n == 2" true] ∧
    (held a).vars.toList = [("n", .integer 2)] ∧ (held a).failure = some (.raised "stop") ∧
    (a.pruned kinds).chain = a.chain.map (Action.standIn kinds) ∧
    a.chain.map (Action.standIn kinds) =
      [twice, .skip, .loop 1 .skip, .condition "n == 2" .skip .absent, .fail "stop"] ∧
    (held around).trail = (loopTrail 1 true []).toArray ∧
    (held (.condition "n == 0" inner grow)).trail = #[.conditionDecided "n == 0" true] := by
  intro kinds grow twice inner around check a vars held plain
  have hdepth : a.runningDepth ≤ Depth.standard := by decide
  obtain ⟨hsame, hchain, -⟩ := execute_blocking kinds a Depth.standard vars
  obtain ⟨-, -, -, haround⟩ := execute_blocking kinds around Depth.standard vars
  obtain ⟨-, -, hdecided, -⟩ :=
    execute_blocking kinds (.condition "n == 0" inner grow) Depth.standard vars
  have hdecision : Condition.decision Depth.standard "n == 0" vars = ⟨true, none⟩ := by
    decide +kernel
  have hline := hdecided "n == 0" inner grow rfl (by rw [hdecision]; rfl)
  rw [hdecision] at hline
  exact ⟨hdepth, hsame (.inl hdepth), by decide +kernel, by decide +kernel, by decide +kernel,
    hchain _ _ rfl, by decide +kernel, haround 1 inner rfl rfl (by decide +kernel), hline⟩

end DecisionFlow
