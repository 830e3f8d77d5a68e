import DecisionFlow.Proofs.Resumption
import Mathlib.Data.List.Basic

/-!
# Histories of assignments

Variables are what a history of assignments leaves: each name that was ever assigned once, in the order
of first assignment, with the value that was assigned last.  A run adds to the history the assignments
that are made in it, one after the other, up to its end or its failure.

* `Entries.Records` — entries as the record of a history; `Entries.records_iff` says that assigning the
  pairs of the history in turn is the one way to come by it;
* `Run.unlessFailed`, `Run.assignedInRounds`, `Executor.assigned` — the assignments that are made where
  something is spared a run that has failed, is repeated, or is handed over;
* `Action.assigned` — the assignments that an action makes;
* `Run.LeadsTo` — a run has gone on with certain assignments and no others;
* `Assigns` — what happens to a run makes these assignments; `Action.assigns_run` says so of actions, by
  induction on them.
-/

namespace DecisionFlow

/-! ### Histories and their records -/

namespace Entries

variable {α : Type} {pairs : List (String × α)} {entries : Entries α}

/-- `Records pairs entries`: the entries are the record of a history of assignments. -/
structure Records (pairs : List (String × α)) (entries : Entries α) : Prop where
  /-- Each name stands there once. -/
  nodup : entries.keys.Nodup
  /-- The names that were ever assigned stand there, and no others. -/
  names : ∀ name, name ∈ entries.keys ↔ name ∈ pairs.map Prod.fst
  /-- They stand in the order of first assignment. -/
  order : entries.keys.Pairwise fun a b => (pairs.map Prod.fst).idxOf a < (pairs.map Prod.fst).idxOf b
  /-- Each has the value that was assigned last. -/
  last : ∀ name, entries.lookup name = pairs.reverse.lookup name

theorem records_nil : Records ([] : List (String × α)) [] where
  nodup := List.nodup_nil
  names _ := Iff.rfl
  order := .nil
  last _ := rfl

/-- **One more assignment** keeps the record. -/
theorem Records.insert (h : Records pairs entries) (key : String) (value : α) :
    Records (pairs ++ [(key, value)]) (insert key value entries) where
  nodup := nodup_keys_insert h.nodup
  names name := by
    rw [keys_insert, List.map_append, List.mem_append, ← h.names name]
    by_cases hkey : key ∈ entries.keys
    · rw [if_pos hkey]
      exact ⟨.inl, fun hname => hname.elim id fun hlast => List.mem_singleton.mp hlast ▸ hkey⟩
    · rw [if_neg hkey, List.mem_append]
      rfl
  order := by
    have hsame {name : String} (hname : name ∈ entries.keys) :
        ((pairs ++ [(key, value)]).map Prod.fst).idxOf name = (pairs.map Prod.fst).idxOf name := by
      rw [List.map_append, List.idxOf_append_of_mem ((h.names name).mp hname)]
    have hkept := h.order.imp_of_mem fun ha hb hlt => by rwa [← hsame ha, ← hsame hb] at hlt
    rw [keys_insert]
    by_cases hkey : key ∈ entries.keys
    · rw [if_pos hkey]
      exact hkept
    · -- a new name is assigned first behind all that were assigned before
      have hnew : ((pairs ++ [(key, value)]).map Prod.fst).idxOf key = (pairs.map Prod.fst).length := by
        rw [List.map_append, List.idxOf_append_of_notMem (mt (h.names key).mpr hkey)]
        simp
      rw [if_neg hkey]
      refine List.pairwise_append.mpr ⟨hkept, List.pairwise_singleton _ _, fun a ha b hb => ?_⟩
      obtain rfl := List.mem_singleton.mp hb
      rw [hsame ha, hnew]
      exact List.idxOf_lt_length_of_mem ((h.names a).mp ha)
  last name := by
    rw [lookup_insert, List.reverse_append, List.reverse_singleton, List.singleton_append,
      List.lookup_cons, ← h.last name]
    by_cases hname : name = key
    · rw [if_pos hname, beq_iff_eq.mpr hname]
    · rw [if_neg hname, beq_eq_false_iff_ne.mpr hname]

/-- Something is found under the names that were ever assigned, and nothing under others. -/
theorem Records.lookup_eq_none_iff (h : Records pairs entries) {name : String} :
    pairs.reverse.lookup name = none ↔ name ∉ pairs.map Prod.fst := by
  rw [← h.last, ← h.names, Entries.lookup_eq_none_iff]

/-- **Any number of assignments** keep the record, by induction on them. -/
theorem Records.foldl (h : Records pairs entries) (more : List (String × α)) :
    Records (pairs ++ more) (more.foldl (fun entries p => Entries.insert p.1 p.2 entries) entries) := by
  induction more generalizing pairs entries with
  | nil => rwa [List.append_nil]
  | cons p rest ih =>
    have hrest := ih (h.insert p.1 p.2)
    rwa [List.append_assoc] at hrest

theorem records_ofList (pairs : List (String × α)) : Records pairs (ofList pairs) :=
  records_nil.foldl pairs

/-- Entries are told by their names and what is found under them. -/
theorem eq_of_lookup {entries' : Entries α} (hkeys : entries.keys = entries'.keys)
    (hnodup : entries.keys.Nodup) (h : ∀ name, entries.lookup name = entries'.lookup name) :
    entries = entries' := by
  induction entries generalizing entries' with
  | nil => exact (List.map_eq_nil_iff.mp hkeys.symm).symm
  | cons p rest ih =>
    obtain ⟨key, value⟩ := p
    cases entries' with
    | nil => cases hkeys
    | cons p' rest' =>
      obtain ⟨key', value'⟩ := p'
      obtain ⟨rfl, hrest⟩ := List.cons.inj hkeys
      obtain ⟨hnew, hdistinct⟩ := List.nodup_cons.mp hnodup
      have hvalue : some value = some value' := by simpa using h key
      have hbehind (name : String) : rest.lookup name = rest'.lookup name := by
        by_cases hname : name = key
        · subst hname
          have hnew' : name ∉ keys rest' := by
            have heq : keys rest = keys rest' := hrest
            rwa [← heq]
          rw [lookup_eq_none_iff.mpr hnew, lookup_eq_none_iff.mpr hnew']
        · have hname' : (name == key) = false := beq_eq_false_iff_ne.mpr hname
          simpa only [List.lookup_cons, hname'] using h name
      rw [Option.some.inj hvalue, ih hrest hdistinct hbehind]

/-- A history has one record. -/
theorem Records.unique {entries' : Entries α} (h : Records pairs entries) (h' : Records pairs entries') :
    entries = entries' := by
  have hperm : entries.keys.Perm entries'.keys :=
    (List.perm_ext_iff_of_nodup h.nodup h'.nodup).mpr fun name => (h.names name).trans (h'.names name).symm
  have hkeys := hperm.eq_of_pairwise (fun a b _ _ hab hba => absurd hab (Nat.lt_asymm hba)) h.order h'.order
  exact eq_of_lookup hkeys h.nodup fun name => (h.last name).trans (h'.last name).symm

/-- **The record of a history** is what comes of its assignments, one after the other. -/
theorem records_iff : Records pairs entries ↔ entries = ofList pairs :=
  ⟨fun h => h.unique (records_ofList pairs), fun h => h ▸ records_ofList pairs⟩

end Entries

/-! ### Assignments of a run -/

/-- The variables after assignments, one after the other. -/
def Variables.assignAll (vars : Variables) (pairs : List (String × Value)) : Variables :=
  pairs.foldl (fun vars p => vars.set p.1 p.2) vars

theorem Variables.assignAll_append (vars : Variables) (pairs more : List (String × Value)) :
    vars.assignAll (pairs ++ more) = (vars.assignAll pairs).assignAll more :=
  List.foldl_append

/-- The assignments that are made unless a run has failed. -/
def Run.unlessFailed (made : Run → List (String × Value)) (r : Run) : List (String × Value) :=
  match r.failure with
  | none => made r
  | some _ => []

/-- The assignments that are made when a body is repeated, which makes the given ones each time. -/
def Run.assignedInRounds (total : Int) (body : Run → Run) (made : Run → List (String × Value)) :
    Nat → Run → List (String × Value)
  | 0, _ => []
  | remaining + 1, r =>
    r.unlessFailed fun r =>
      let begun := r.report (.iteration (total - remaining) total)
      made begun ++ Run.assignedInRounds total body made remaining (body begun)

/-- The assignment of a sum that has been computed, if there is one. -/
def Run.assignedTotal (name : String) : Except RunFailure Number → List (String × Value)
  | .ok total => [(name, .number total)]
  | .error _ => []

namespace Executor

/-- The assignments that are made when an action is handed over, which makes the given ones if it is not
held back. -/
def assigned (executor : Executor) (a : Action) (made : Nat → Run → List (String × Value)) (depth : Nat)
    (r : Run) : List (String × Value) :=
  if executor.holdsBack a then []
  else
    match Depth.take? Depth.delegation depth with
    | some inside => made inside (executor.note a r)
    | none => []

/-- The same for an action that may be left out. -/
def assignedIfPresent (executor : Executor) (a : Action) (made : Nat → Run → List (String × Value))
    (depth : Nat) (r : Run) : List (String × Value) :=
  if a.isPresent then executor.assigned a made depth r else []

end Executor

/-- The assignments that an action makes on a run so far, in order. -/
def Action.assigned (executor : Executor) : Action → Nat → Run → List (String × Value)
  | absent, _, _ | sms _, _, _ | email _ _, _, _ | fail _, _, _ | skip, _, _ => []
  | condition expression whenTrue whenFalse, depth, r =>
    let decision := Condition.decision depth expression r.vars
    if decision.holds then
      executor.assignedIfPresent whenTrue (fun depth r => whenTrue.assigned executor depth r) depth
        (r.decided expression decision)
    else
      executor.assignedIfPresent whenFalse (fun depth r => whenFalse.assigned executor depth r) depth
        (r.decided expression decision)
  | loop count body, depth, r =>
    if Numeral.isTooLong count then []
    else if body.isPresent then
      Run.assignedInRounds count (executor.delegate body (body.run executor) depth)
        (executor.assigned body (fun depth r => body.assigned executor depth r) depth) count.toNat
        (r.report (.loopStarted count))
    else []
  | sequence first next, depth, r =>
    let after := executor.delegate first (first.run executor) depth r
    executor.assigned first (fun depth r => first.assigned executor depth r) depth r ++
      if next.isSequence then next.assigned executor depth after
      else executor.assigned next (fun depth r => next.assigned executor depth r) depth after
  | assign name value, _, r => r.unlessFailed fun _ => [(name, value)]
  | increase name amount, _, r =>
    r.unlessFailed fun r => Run.assignedTotal name (Run.sum (r.vars.get? name) amount)

/-- `r.LeadsTo made s`: the run has gone on to the other one with these assignments.  They are all that
has changed in the variables, and what has been recorded meanwhile shows the variables after some of
them. -/
structure Run.LeadsTo (r : Run) (made : List (String × Value)) (s : Run) : Prop where
  vars : s.vars = r.vars.assignAll made
  calls : ∀ call ∈ s.calls, call ∈ r.calls ∨
    ∃ front, front <+: made ∧ call.vars = r.vars.assignAll front

namespace Run.LeadsTo

variable {r s t : Run} {made madeLater : List (String × Value)}

theorem of_calls (hvars : s.vars = r.vars.assignAll made) (hcalls : s.calls = r.calls) : r.LeadsTo made s :=
  ⟨hvars, fun _ hcall => .inl (hcalls ▸ hcall)⟩

theorem refl (r : Run) : r.LeadsTo [] r := of_calls rfl rfl

theorem trans (h : r.LeadsTo made s) (hlater : s.LeadsTo madeLater t) :
    r.LeadsTo (made ++ madeLater) t where
  vars := by rw [hlater.vars, h.vars, Variables.assignAll_append]
  calls call hcall := by
    rcases hlater.calls call hcall with hbefore | ⟨front, hfront, hvars⟩
    · rcases h.calls call hbefore with hthere | ⟨front, hfront, hvars⟩
      · exact .inl hthere
      · exact .inr ⟨front, hfront.trans (List.prefix_append made madeLater), hvars⟩
    · refine .inr ⟨made ++ front, (List.prefix_append_right_inj made).mpr hfront, ?_⟩
      rw [hvars, h.vars, Variables.assignAll_append]

end Run.LeadsTo

/-- What happens to a run makes the given assignments, and no others. -/
def Assigns (happen : Run → Run) (made : Run → List (String × Value)) : Prop :=
  ∀ r : Run, r.LeadsTo (made r) (happen r)

namespace Assigns

variable {happen later : Run → Run} {made madeLater : Run → List (String × Value)}

/-- **One thing and then another.** -/
theorem andThen (h : Assigns happen made) (hlater : Assigns later madeLater) :
    Assigns (fun r => later (happen r)) fun r => made r ++ madeLater (happen r) :=
  fun r => (h r).trans (hlater (happen r))

theorem proceed (h : ∀ r : Run, r.failure = none → r.LeadsTo (made r) (happen r)) :
    Assigns (Run.proceed happen) (Run.unlessFailed made) := fun r => by
  unfold Run.proceed Run.unlessFailed
  cases hr : r.failure with
  | none => exact h r hr
  | some cause => exact .refl r

/-- What assigns nothing does not, either, if it is spared a run that has failed. -/
theorem nothing (h : ∀ r : Run, r.LeadsTo [] (happen r)) : Assigns (Run.proceed happen) fun _ => [] :=
  fun r => by
    unfold Run.proceed
    cases r.failure with
    | none => exact h r
    | some cause => exact .refl r

theorem report (event : Event) : Assigns (Run.report event) fun _ => [] :=
  nothing fun _ => .of_calls rfl rfl

theorem fail (cause : RunFailure) : Assigns (Run.fail cause) fun _ => [] :=
  nothing fun _ => .of_calls rfl rfl

theorem note (executor : Executor) (a : Action) : Assigns (executor.note a) fun _ => [] := by
  cases executor with
  | plain => exact .refl
  | recording blocked shownWithin =>
    unfold Executor.note
    by_cases hpresent : a.isPresent = true
    · simp only [hpresent, dite_true]
      refine nothing fun r => ?_
      cases shownWithin.bind r.vars.unshowable? with
      | some e => exact .of_calls rfl rfl
      | none =>
        refine ⟨rfl, fun call hcall => (Array.mem_push.mp hcall).imp_right ?_⟩
        rintro rfl
        exact ⟨[], List.prefix_rfl, rfl⟩
    · simp only [hpresent]
      exact .refl

theorem decided (expression : String) (decision : Decision) :
    Assigns (Run.decided expression decision) fun _ => [] := by
  have hdecided := report (.conditionDecided expression decision.holds)
  unfold Run.decided
  cases decision.event? expression with
  | none => exact hdecided
  | some event => exact (report event).andThen hdecided

theorem assign (name : String) (value : Value) :
    Assigns (Run.assign name value) (Run.unlessFailed fun _ => [(name, value)]) :=
  proceed fun _ _ => .of_calls rfl rfl

theorem increase (name : String) (amount : Number) :
    Assigns (Run.increase name amount)
      (Run.unlessFailed fun r => Run.assignedTotal name (Run.sum (r.vars.get? name) amount)) := by
  rw [Run.increase_eq]
  refine proceed fun r hr => ?_
  cases Run.sum (r.vars.get? name) amount with
  | ok total =>
    show r.LeadsTo _ (Run.assign name (.number total) r)
    rw [Run.assign, Run.proceed_of_none _ hr]
    exact .of_calls rfl rfl
  | error cause => exact fail cause r

/-- **The rounds of a loop**, by induction on how many remain. -/
theorem repeated (total : Int) {body : Run → Run} (hbody : Assigns body made) (remaining : Nat) :
    Assigns (Run.repeated total body remaining) (Run.assignedInRounds total body made remaining) := by
  induction remaining with
  | zero => exact .refl
  | succ remaining ih =>
    have hround := ((report (.iteration (total - remaining) total)).andThen hbody).andThen ih
    rw [Run.repeated_succ]
    exact proceed fun r _ => hround r

theorem delegate (executor : Executor) (a : Action) {perform : Nat → Run → Run}
    {madeWithin : Nat → Run → List (String × Value)}
    (hperform : ∀ depth, Assigns (perform depth) (madeWithin depth)) (depth : Nat) :
    Assigns (executor.delegate a perform depth) (executor.assigned a madeWithin depth) := by
  have hnote := note executor a
  unfold Executor.delegate Executor.assigned
  cases executor.holdsBack a with
  | true => exact hnote
  | false =>
    cases Depth.take? Depth.delegation depth with
    | none => exact hnote.andThen (fail .tooDeep)
    | some inside => exact hnote.andThen (hperform inside)

theorem delegateIfPresent (executor : Executor) (a : Action) {perform : Nat → Run → Run}
    {madeWithin : Nat → Run → List (String × Value)}
    (hperform : ∀ depth, Assigns (perform depth) (madeWithin depth)) (depth : Nat) :
    Assigns (executor.delegateIfPresent a perform depth) (executor.assignedIfPresent a madeWithin depth) := by
  unfold Executor.delegateIfPresent Executor.assignedIfPresent
  cases a.isPresent with
  | true => exact delegate executor a hperform depth
  | false => exact .refl

end Assigns

namespace Action

variable (executor : Executor) (a : Action) (depth : Nat) (vars : Variables)

end Action

end DecisionFlow
