import DecisionFlow.Action.Assembly
import DecisionFlow.Depth

/-!
# Comparing actions

Two actions are compared part by part, and the first pair of parts that differ ends the comparison.
What stands inside an action costs depth; a part that both have in common is equal to itself without a
look inside.

* `Assembly.sameWithin` — whether two actions are equal, if the depth suffices;
* `Assembly.sameWithin_eq_some` — an answer is the right answer.
-/

namespace DecisionFlow.Assembly

/-- The comparison of what stands inside two actions, after that of what stands before it. -/
def compareInside (before : Option Bool) (same : Nat → Option Bool) (depth : Nat) : Option Bool :=
  match before with
  | some true => (Depth.take? Depth.comparison depth).bind same
  | answer => answer

/-- Whether two actions are equal, if that is found within the given depth. -/
def sameWithin : Assembly → Nat → Assembly → Option Bool
  | leaf a, _, other => some (a = other.action)
  | condition s t f, depth, other =>
    match other.uncovered with
    | condition s' t' f' =>
      let onTrue := compareInside (some (s = s')) (fun depth => t.sameWithin depth t') depth
      compareInside onTrue (fun depth => f.sameWithin depth f') depth
    | other => some ((condition s t f).action = other.action)
  | loop n b, depth, other =>
    match other.uncovered with
    | loop n' b' => compareInside (some (n = n')) (fun depth => b.sameWithin depth b') depth
    | other => some ((loop n b).action = other.action)
  | sequence a b, depth, other =>
    match other.uncovered with
    | sequence a' b' =>
      let first := compareInside (some true) (fun depth => a.sameWithin depth a') depth
      compareInside first (fun depth => b.sameWithin depth b') depth
    | other => some ((sequence a b).action = other.action)
  | part serial inside, depth, other =>
    if other.serial? = some serial then some true else inside.sameWithin depth other

theorem compareInside_eq_some {before : Option Bool} {same : Nat → Option Bool} {depth : Nat}
    {r p q : Bool} (hbefore : ∀ r, before = some r → r = p)
    (hsame : ∀ depth r, same depth = some r → r = q)
    (h : compareInside before same depth = some r) : r = (p && q) := by
  unfold compareInside at h
  split at h
  · obtain ⟨rest, _, hr⟩ := Option.bind_eq_some_iff.mp h
    rw [← hbefore true rfl, hsame rest r hr]
    rfl
  · rename_i hne
    have hp : r = p := hbefore r h
    cases r
    · rw [← hp]
      rfl
    · exact absurd h hne

/-- **An answer is the right answer.** Where the depth suffices, the comparison tells whether the
actions are equal, provided that parts of one number are one part. -/
theorem sameWithin_eq_some {actions : Nat → Action} {a b : Assembly} {depth : Nat} {r : Bool}
    (ha : a.Respects actions) (hb : b.Respects actions) (h : a.sameWithin depth b = some r) :
    r = decide (a.action = b.action) := by
  induction a generalizing depth b r with
  | leaf a => exact (Option.some.inj h).symm
  | condition s t f iht ihf =>
    rw [sameWithin] at h
    rw [← action_uncovered b]
    have hu := hb.uncovered
    split at h
    · rename_i s' t' f' hcond
      rw [hcond] at hu ⊢
      have hr := compareInside_eq_some
        (fun r hr => compareInside_eq_some (fun r hr => (Option.some.inj hr).symm)
          (fun depth r hr => iht ha.1 hu.1 hr) hr)
        (fun depth r hr => ihf ha.2 hu.2 hr) h
      simp [hr, action, Bool.and_assoc]
    · exact (Option.some.inj h).symm
  | loop n body ih =>
    rw [sameWithin] at h
    rw [← action_uncovered b]
    have hu := hb.uncovered
    split at h
    · rename_i n' body' hloop
      rw [hloop] at hu ⊢
      have hbody : body'.Respects actions := hu
      have hr := compareInside_eq_some (fun r hr => (Option.some.inj hr).symm)
        (fun depth r hr => ih ha hbody hr) h
      simp [hr, action]
    · exact (Option.some.inj h).symm
  | sequence first next ihf ihn =>
    rw [sameWithin] at h
    rw [← action_uncovered b]
    have hu := hb.uncovered
    split at h
    · rename_i first' next' hseq
      rw [hseq] at hu ⊢
      have hr := compareInside_eq_some
        (fun r hr => compareInside_eq_some (fun r hr => (Option.some.inj hr).symm)
          (fun depth r hr => ihf ha.1 hu.1 hr) hr)
        (fun depth r hr => ihn ha.2 hu.2 hr) h
      simp [hr, action]
    · exact (Option.some.inj h).symm
  | part serial inside ih =>
    rw [sameWithin] at h
    split at h
    · rename_i hserial
      have hsame : (part serial inside).action = b.action := by
        rw [hb.action_eq hserial]
        exact ha.1
      rw [← Option.some.inj h]
      exact (decide_eq_true hsame).symm
    · exact ih ha.2 hb h

end DecisionFlow.Assembly
