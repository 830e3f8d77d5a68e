import DecisionFlow.Session

/-!
# Contexts are isolated

The contexts of a session share its actions and its executor, and nothing else.  So what is answered to
the commands on a context is what would be answered if the commands on other contexts had not been
given, whatever those are, and even if their runs fail.

* `Command.context?` — the context that a command creates, asks about, changes or runs an action on;
* `Session.Agrees` — two sessions are the same but for contexts other than a given one;
* `Session.spares_perform` — a command on another context leaves a session that agrees with the one
  before;
* `Session.alike_perform` — any other command does the same in sessions that agree, and they still do;
* `Session.answers_filter` — so replies are the same in sessions that agree;
* `answers_isolated` — commands on other contexts can be left out.
-/

namespace DecisionFlow

/-- The context that a command is about, if it is about one. -/
def Command.context? : Command → Option String
  | create context _ | assign context _ _ | get context _ _ | has context _ | size context
  | display context | snapshot context | assignCopy context _ _ | assignWatched context _ _
  | assignView context _ _ | evaluate context _ | run context _ => some context
  | compile _ _ | build _ _ | equal _ _ | block _ => none

/-- Whether a command is about no context other than the given one. -/
def Command.concerns (context : String) (command : Command) : Bool :=
  command.context? = none ∨ command.context? = some context

theorem Command.ne_of_concerns {context : String} {command : Command}
    (h : command.concerns context = false) {other : String} (hother : command.context? = some other) :
    other ≠ context := by
  rintro rfl
  have hconcerns : command.concerns other = true := decide_eq_true (.inr hother)
  rw [hconcerns] at h
  cases h

namespace Session

/-- Two sessions are the same, but for contexts other than the given one. -/
structure Agrees (context : String) (s t : Session) : Prop where
  vars : s.contexts.lookup context = t.contexts.lookup context
  actions : s.actions = t.actions
  made : s.made = t.made
  executor : s.executor = t.executor

namespace Agrees

variable {context : String} {s t u : Session}

theorem refl (context : String) (s : Session) : Agrees context s s := ⟨rfl, rfl, rfl, rfl⟩

theorem trans (h : Agrees context s t) (h' : Agrees context t u) : Agrees context s u :=
  ⟨h.vars.trans h'.vars, h.actions.trans h'.actions, h.made.trans h'.made,
    h.executor.trans h'.executor⟩

theorem context?_eq (h : Agrees context s t) : s.context? context = t.context? context := by
  rw [context?, h.vars]
  rfl

theorem action?_eq (h : Agrees context s t) (name : String) : s.action? name = t.action? name := by
  rw [action?, h.actions]
  rfl

theorem withContext (h : Agrees context s t) (vars : Variables) :
    Agrees context (s.withContext context vars) (t.withContext context vars) where
  vars := by
    show (s.contexts.insert context vars).lookup context = (t.contexts.insert context vars).lookup context
    rw [Entries.lookup_insert, Entries.lookup_insert, if_pos rfl, if_pos rfl]
  actions := h.actions
  made := h.made
  executor := h.executor

/-- Other contexts do not matter. -/
theorem withContext_other {other : String} (hother : other ≠ context) (s : Session)
    (vars : Variables) : Agrees context (s.withContext other vars) s where
  vars := by
    show (s.contexts.insert other vars).lookup context = s.contexts.lookup context
    rw [Entries.lookup_insert, if_neg hother.symm]
  actions := rfl
  made := rfl
  executor := rfl

theorem withAction (h : Agrees context s t) (name : String) (assembly : Assembly) :
    Agrees context (s.withAction name assembly) (t.withAction name assembly) := by
  have hnumbered : assembly.numbered s.made = assembly.numbered t.made := by rw [h.made]
  refine ⟨h.vars, ?_, congrArg (· + 1) h.made, h.executor⟩
  show s.actions.insert name (assembly.numbered s.made) = t.actions.insert name (assembly.numbered t.made)
  rw [h.actions, hnumbered]

end Agrees

/-! ### Commands on another context -/

/-- What comes of a command leaves a session that agrees with the one before. -/
def Spares (context : String) (s : Session) (result : Except SessionError (Session × Outcome)) : Prop :=
  ∀ s' outcome, result = .ok (s', outcome) → Agrees context s' s

theorem Spares.error (context : String) (s : Session) (e : SessionError) :
    Spares context s (.error e) := by
  rintro _ _ ⟨⟩

theorem Spares.bind {α : Type} {context : String} {s : Session} {x : Except SessionError α}
    {f : α → Except SessionError (Session × Outcome)} (h : ∀ a, Spares context s (f a)) :
    Spares context s (x >>= f) := by
  cases x with
  | error e => exact .error context s e
  | ok a => exact h a

theorem Spares.ok {context : String} {s s' : Session} (h : Agrees context s' s) (outcome : Outcome) :
    Spares context s (.ok (s', outcome)) := by
  rintro _ _ ⟨⟩
  exact h

/-- **A command on another context spares this one**, and all that the contexts share. -/
theorem spares_perform (depth : Nat) (session : Session) {context : String} {command : Command}
    (h : command.concerns context = false) : Spares context session (session.perform depth command) := by
  have hsame := Agrees.refl context session
  have hother {other : String} (hcontext : command.context? = some other) (vars : Variables) :
      Agrees context (session.withContext other vars) session :=
    .withContext_other (Command.ne_of_concerns h hcontext) session vars
  cases command with
  | create other vars => exact .ok (hother rfl vars) _
  | assign other name value => exact .bind fun _ => .ok (hother rfl _) _
  | get | has | size | snapshot | assignCopy => exact .bind fun _ => .ok hsame _
  | display | evaluate => exact .bind fun _ => .bind fun _ => .ok hsame _
  | assignWatched other name value =>
    refine .bind fun vars => ?_
    split
    · exact .error context session _
    · exact .ok (hother rfl _) _
  | assignView other name value => exact .bind fun _ => .error context session .readOnlyView
  | run other action => exact .bind fun _ => .bind fun _ => .ok (hother rfl _) _
  | compile | build | equal | block => cases h

/-! ### The other commands -/

/-- What comes of a command in two sessions is the same, and leaves sessions that agree. -/
inductive Alike (context : String) :
    Except SessionError (Session × Outcome) → Except SessionError (Session × Outcome) → Prop where
  | error (e : SessionError) : Alike context (.error e) (.error e)
  | ok {s t : Session} (h : Agrees context s t) (outcome : Outcome) :
      Alike context (.ok (s, outcome)) (.ok (t, outcome))

theorem Alike.bind {α : Type} {context : String} {x y : Except SessionError α}
    {f g : α → Except SessionError (Session × Outcome)} (hxy : x = y)
    (h : ∀ a, Alike context (f a) (g a)) : Alike context (x >>= f) (y >>= g) := by
  subst hxy
  cases x with
  | error e => exact .error e
  | ok a => exact h a

/-- **Every other command does the same** in sessions that agree. -/
theorem alike_perform (depth : Nat) {s t : Session} {context : String} {command : Command}
    (h : command.concerns context = true) (hst : Agrees context s t) :
    Alike context (s.perform depth command) (t.perform depth command) := by
  have hcontext {other : String} (hother : command.context? = some other) : other = context := by
    rcases of_decide_eq_true h with hnone | hsome
    · rw [hother] at hnone
      cases hnone
    · exact Option.some.inj (hother.symm.trans hsome)
  have hvars := hst.context?_eq
  cases command with
  | create other vars =>
    obtain rfl := hcontext rfl
    exact .ok (hst.withContext vars) _
  | assign other name value =>
    obtain rfl := hcontext rfl
    exact .bind hvars fun _ => .ok (hst.withContext _) _
  | get other | has other | size other | snapshot other | assignCopy other =>
    obtain rfl := hcontext rfl
    exact .bind hvars fun _ => .ok hst _
  | display other | evaluate other =>
    obtain rfl := hcontext rfl
    exact .bind hvars fun _ => .bind rfl fun _ => .ok hst _
  | assignWatched other name value =>
    obtain rfl := hcontext rfl
    refine .bind hvars fun vars => ?_
    split
    · exact .error _
    · exact .ok (hst.withContext _) _
  | assignView other name value =>
    obtain rfl := hcontext rfl
    exact .bind hvars fun _ => .error .readOnlyView
  | run other action =>
    obtain rfl := hcontext rfl
    refine .bind hvars fun vars => .bind (hst.action?_eq action) fun assembly => ?_
    rw [hst.executor]
    exact .ok (hst.withContext _) _
  | compile name tree =>
    simp only [perform]
    cases (compileValue depth tree).result with
    | ok a => exact .ok (hst.withAction name (.ofAction a)) _
    | error e => exact .error (.uncompilable e)
  | build name plan =>
    refine .bind (by rw [hst.actions]) fun assembly => ?_
    exact .ok (hst.withAction name assembly) _
  | equal name other =>
    refine .bind (hst.action?_eq name) fun a => .bind (hst.action?_eq other) fun b => ?_
    split
    · exact .ok hst _
    · exact .error .tooDeep
  | block kinds =>
    have hchosen (executor : Executor) : Agrees context { s with executor } { t with executor } :=
      ⟨hst.vars, hst.actions, hst.made, rfl⟩
    unfold perform
    rw [hst.executor]
    exact .ok (hchosen _) _

/-! ### Replies -/

/-- A command on another context changes nothing that this one shares. -/
theorem agrees_answer_of_other (depth : Nat) (session : Session) {context : String} {command : Command}
    (h : command.concerns context = false) :
    Agrees context (session.answer depth command).1 session := by
  have hspares := session.spares_perform depth h
  unfold answer
  generalize session.perform depth command = result at hspares
  cases result with
  | error e => exact .refl context session
  | ok found =>
    have hagrees := hspares found.1 found.2 rfl
    cases hshown : found.2.unshowable? (replyDepth depth) with
    | none => simpa only [hshown] using hagrees
    | some e => simpa only [hshown] using hagrees

/-- Any other command has the same reply in sessions that agree. -/
theorem answer_alike (depth : Nat) {s t : Session} {context : String} {command : Command}
    (h : command.concerns context = true) (hst : Agrees context s t) :
    (s.answer depth command).2 = (t.answer depth command).2 ∧
      Agrees context (s.answer depth command).1 (t.answer depth command).1 := by
  have halike := alike_perform depth h hst
  unfold answer
  generalize s.perform depth command = result at halike
  generalize t.perform depth command = result' at halike
  cases halike with
  | error e => exact ⟨rfl, hst⟩
  | ok hagrees outcome =>
    cases hshown : outcome.unshowable? (replyDepth depth) with
    | none => simpa only [hshown, true_and] using hagrees
    | some e => simpa only [hshown, true_and] using hagrees

/-- The replies to those of several commands that are about no context other than the given one. -/
def repliesTo (depth : Nat) (context : String) (session : Session) (commands : List Command) :
    List Reply :=
  ((commands.zip (session.answers depth commands)).filter fun p => p.1.concerns context).map Prod.snd

/-- **The commands on other contexts can be left out**, and the ones that remain may be given to any
session that agrees. -/
theorem answers_filter {context : String} (depth : Nat) (commands : List Command) {s t : Session}
    (hst : Agrees context s t) :
    t.answers depth (commands.filter (·.concerns context)) = s.repliesTo depth context commands := by
  induction commands generalizing s t with
  | nil => rfl
  | cons command rest ih =>
    cases h : command.concerns context with
    | true =>
      obtain ⟨hreply, hagrees⟩ := answer_alike depth h hst
      have hrest := ih hagrees
      rw [List.filter_cons_of_pos h]
      simp only [answers, hrest, ← hreply, repliesTo, List.zip_cons_cons, List.filter_cons, h, if_true,
        List.map_cons]
    | false =>
      have hrest := ih ((s.agrees_answer_of_other depth h).trans hst)
      rw [List.filter_cons_of_neg (by rw [h]; exact Bool.false_ne_true), hrest]
      simp [repliesTo, answers, h]

end Session

/-- **Contexts are isolated.**  The replies to the commands on a context, and to those on no context at
all, stay the same if all commands on other contexts are left out.  In particular a run on another
context, even one that fails, has no bearing on what a run on this one reports, calls, leaves and fails
with. -/
theorem answers_isolated (depth : Nat) (session : Session) (context : String)
    (commands : List Command) :
    session.answers depth (commands.filter (·.concerns context)) =
      session.repliesTo depth context commands ∧
    ∀ other first second, other ≠ context →
      ((session.answer depth (.run other first)).1.answer depth (.run context second)).2 =
        (session.answer depth (.run context second)).2 := by
  refine ⟨Session.answers_filter depth commands (.refl context session), ?_⟩
  intro other first second hother
  have hspared : (Command.run other first).concerns context = false :=
    decide_eq_false (not_or.mpr ⟨Option.some_ne_none other, fun h => hother (Option.some.inj h)⟩)
  have hown : (Command.run context second).concerns context = true := decide_eq_true (.inr rfl)
  exact (Session.answer_alike depth hown (session.agrees_answer_of_other depth hspared)).1

/-- One action, which fails midway, on two contexts in turn. -/
theorem answers_isolated_failing :
    let grow : Action := .sequence (.increase "n" (.integer 1)) (.fail "stop")
    let session : Session :=
      ⟨[("a", .ofList [("n", .integer 0)]), ("b", .ofList [("n", .integer 5)])],
        [("grow", .ofAction grow)], 1, .recording [] none⟩
    let after := (session.answer Depth.standard (.run "a" "grow")).1
    (after.contexts.lookup "a").map Variables.toList = some [("n", .integer 1)] ∧
    (after.answer Depth.standard (.run "b" "grow")).2 =
      (session.answer Depth.standard (.run "b" "grow")).2 ∧
    ((after.answer Depth.standard (.run "b" "grow")).1.contexts.lookup "b").map Variables.toList =
      some [("n", .integer 6)] := by
  intro grow session after
  have hisolated := (answers_isolated Depth.standard session "b" []).2 "a" "grow" "grow" (by decide)
  exact ⟨by decide +kernel, hisolated, by decide +kernel⟩

end DecisionFlow
