import DecisionFlow.Session

/-!
# Shared parts of actions

An action that is built may have named actions for its parts, and the comparison of two actions takes parts
of one number for equal without a look inside.  It is right to do so: in a session, parts of one number are
one part, whatever commands are given.

* `Assembly.Shares` — the parts of an assembly are the actions of their numbers, which are below a bound;
* `Blueprint.shares_assemble` — what is put together of such assemblies is such an assembly;
* `Session.Numbered` — parts of one number are one part, in all actions of a session;
* `Session.numbered_answer`, `Session.numbered_after` — a command keeps this, and so do many;
* `Session.action?_withAction`, `Session.action?_compile` — what is made is there as it was made;
* `Session.equal_of_numbered`, `Session.equal_after_start` — so an answer to the question whether two
  actions are equal is right.
-/

namespace DecisionFlow

namespace Assembly

/-- The numbers of the parts of an assembly are below a bound. -/
def Below (bound : Nat) : Assembly → Prop
  | leaf _ => True
  | condition _ whenTrue whenFalse => whenTrue.Below bound ∧ whenFalse.Below bound
  | loop _ body => body.Below bound
  | sequence first next => first.Below bound ∧ next.Below bound
  | part serial inside => serial < bound ∧ inside.Below bound

theorem below_ofAction (bound : Nat) (a : Action) : (ofAction a).Below bound := by
  induction a with
  | condition _ _ _ iht ihf => exact ⟨iht, ihf⟩
  | loop _ _ ih => exact ih
  | sequence _ _ ihf ihn => exact ⟨ihf, ihn⟩
  | _ => trivial

theorem Below.mono {bound other : Nat} (hle : bound ≤ other) {assembly : Assembly}
    (h : assembly.Below bound) : assembly.Below other := by
  induction assembly with
  | leaf a => trivial
  | condition _ _ _ iht ihf => exact ⟨iht h.1, ihf h.2⟩
  | loop _ _ ih => exact ih h
  | sequence _ _ ihf ihn => exact ⟨ihf h.1, ihn h.2⟩
  | part _ _ ih => exact ⟨Nat.lt_of_lt_of_le h.1 hle, ih h.2⟩

/-- Only the actions of numbers that occur matter. -/
theorem Respects.congr {actions others : Nat → Action} {bound : Nat}
    (hsame : ∀ serial < bound, others serial = actions serial) {assembly : Assembly}
    (h : assembly.Respects actions) (hbelow : assembly.Below bound) : assembly.Respects others := by
  induction assembly with
  | leaf a => trivial
  | condition _ _ _ iht ihf => exact ⟨iht h.1 hbelow.1, ihf h.2 hbelow.2⟩
  | loop _ _ ih => exact ih h hbelow
  | sequence _ _ ihf ihn => exact ⟨ihf h.1 hbelow.1, ihn h.2 hbelow.2⟩
  | part serial _ ih => exact ⟨h.1.trans (hsame serial hbelow.1).symm, ih h.2 hbelow.2⟩

end Assembly

/-- The parts of an assembly are the actions of their numbers, which are below a bound. -/
structure Assembly.Shares (actions : Nat → Action) (bound : Nat) (assembly : Assembly) : Prop where
  respects : assembly.Respects actions
  below : assembly.Below bound

theorem Assembly.shares_ofAction (actions : Nat → Action) (bound : Nat) (a : Action) :
    (ofAction a).Shares actions bound :=
  ⟨respects_ofAction actions a, below_ofAction bound a⟩

/-- What comes of two steps comes of the second, after the first. -/
theorem SessionError.of_bind_eq_ok {α β : Type} {x : Except SessionError α} {f : α → Except SessionError β}
    {b : β} (h : x >>= f = .ok b) : ∃ a, x = .ok a ∧ f a = .ok b := by
  cases x with
  | error e => cases h
  | ok a => exact ⟨a, rfl, h⟩

/-- What a plan comes to shares the parts that the named actions share, by induction on the plan. -/
theorem Blueprint.shares_assemble {entries : Entries Assembly} {actions : Nat → Action} {bound : Nat}
    (hentries : ∀ name assembly, entries.lookup name = some assembly → assembly.Shares actions bound)
    {plan : Blueprint} {depth : Nat} {assembly : Assembly} (h : plan.assemble entries depth = .ok assembly) :
    assembly.Shares actions bound := by
  induction plan generalizing depth assembly with
  | plain a =>
    cases depth with
    | zero => cases h
    | succ depth =>
      cases h
      exact Assembly.shares_ofAction actions bound a
  | condition expression whenTrue whenFalse iht ihf =>
    cases depth with
    | zero => cases h
    | succ depth =>
      rw [assemble] at h
      obtain ⟨onTrue, ht, h⟩ := SessionError.of_bind_eq_ok h
      obtain ⟨onFalse, hf, ⟨⟩⟩ := SessionError.of_bind_eq_ok h
      have htrue := iht ht
      have hfalse := ihf hf
      exact ⟨⟨htrue.respects, hfalse.respects⟩, htrue.below, hfalse.below⟩
  | loop count body ih =>
    cases depth with
    | zero => cases h
    | succ depth =>
      rw [assemble] at h
      obtain ⟨inside, hb, ⟨⟩⟩ := SessionError.of_bind_eq_ok h
      have hbody := ih hb
      exact ⟨hbody.respects, hbody.below⟩
  | sequence first next ihf ihn =>
    cases depth with
    | zero => cases h
    | succ depth =>
      rw [assemble] at h
      obtain ⟨head, hf, h⟩ := SessionError.of_bind_eq_ok h
      obtain ⟨rest, hn, ⟨⟩⟩ := SessionError.of_bind_eq_ok h
      have hfirst := ihf hf
      have hnext := ihn hn
      exact ⟨⟨hfirst.respects, hnext.respects⟩, hfirst.below, hnext.below⟩
  | named name =>
    cases depth with
    | zero => cases h
    | succ depth =>
      rw [assemble] at h
      cases hlookup : entries.lookup name with
      | none =>
        rw [hlookup] at h
        cases h
      | some found =>
        rw [hlookup] at h
        cases h
        exact hentries name _ hlookup

namespace Session

/-- The actions of a session share parts, which are the actions of their numbers. -/
def SharesBy (actions : Nat → Action) (session : Session) : Prop :=
  ∀ name assembly, session.actions.lookup name = some assembly → assembly.Shares actions session.made

/-- Parts of one number are one part, in all actions of a session. -/
def Numbered (session : Session) : Prop := ∃ actions, session.SharesBy actions

theorem numbered_start (depth : Nat) (records : Bool) : (start depth records).Numbered :=
  ⟨fun _ => .absent, nofun⟩

variable {session : Session} {actions : Nat → Action}

/-- **A new action gets a number that no part has**, or keeps its own. -/
theorem SharesBy.withAction (h : session.SharesBy actions) {assembly : Assembly}
    (hassembly : assembly.Shares actions session.made) (name : String) :
    (session.withAction name assembly).Numbered := by
  let extended (serial : Nat) : Action := if serial = session.made then assembly.action else actions serial
  have hsame : ∀ serial < session.made, extended serial = actions serial :=
    fun serial hlt => if_neg (Nat.ne_of_lt hlt)
  have hgrown {old : Assembly} (hold : old.Shares actions session.made) :
      old.Shares extended (session.made + 1) :=
    ⟨hold.respects.congr hsame hold.below, hold.below.mono (Nat.le_succ _)⟩
  have hnew : (assembly.numbered session.made).Shares extended (session.made + 1) := by
    have hold := hgrown hassembly
    unfold Assembly.numbered
    split
    · exact hold
    · exact ⟨⟨(if_pos rfl).symm, hold.respects⟩, Nat.lt_succ_self _, hold.below⟩
  refine ⟨extended, fun other found hfound => ?_⟩
  replace hfound : (session.actions.insert name (assembly.numbered session.made)).lookup other =
      some found := hfound
  rw [Entries.lookup_insert] at hfound
  split at hfound
  · cases hfound
    exact hnew
  · exact hgrown (h other found hfound)

/-! ### One command -/

/-- What comes of a command, if it is obeyed, is a session whose actions share parts. -/
def Leaves (result : Except SessionError (Session × Outcome)) : Prop :=
  ∀ next outcome, result = .ok (next, outcome) → next.Numbered

theorem Leaves.error (e : SessionError) : Leaves (.error e) := nofun

theorem Leaves.ok {next : Session} (h : next.Numbered) (outcome : Outcome) :
    Leaves (.ok (next, outcome)) := by
  rintro _ _ ⟨⟩
  exact h

theorem Leaves.bind {α : Type} {x : Except SessionError α} {f : α → Except SessionError (Session × Outcome)}
    (h : ∀ a, x = .ok a → Leaves (f a)) : Leaves (x >>= f) := by
  cases x with
  | error e => exact .error e
  | ok a => exact h a rfl

/-- A command makes at most one action, whose parts are its own or parts of actions that exist. -/
theorem leaves_perform (depth : Nat) (h : session.Numbered) (command : Command) :
    Leaves (session.perform depth command) := by
  obtain ⟨actions, hactions⟩ := h
  have hsame : session.Numbered := ⟨actions, hactions⟩
  have hcontext (name : String) (vars : Variables) : (session.withContext name vars).Numbered :=
    ⟨actions, hactions⟩
  cases command with
  | create context vars => exact .ok (hcontext context vars) _
  | assign context => exact .bind fun _ _ => .ok (hcontext context _) _
  | get | has | size | snapshot | assignCopy => exact .bind fun _ _ => .ok hsame _
  | display | evaluate => exact .bind fun _ _ => .bind fun _ _ => .ok hsame _
  | assignWatched context =>
    refine .bind fun vars _ => ?_
    split
    · exact .error _
    · exact .ok (hcontext context _) _
  | assignView => exact .bind fun _ _ => .error .readOnlyView
  | run context => exact .bind fun _ _ => .bind fun _ _ => .ok (hcontext context _) _
  | compile name tree =>
    simp only [perform]
    cases (compileValue depth tree).result with
    | error e => exact .error _
    | ok a => exact .ok (hactions.withAction (Assembly.shares_ofAction actions session.made a) name) _
  | build name plan =>
    refine .bind fun assembly hassembly => ?_
    exact .ok (hactions.withAction (Blueprint.shares_assemble hactions hassembly) name) _
  | equal =>
    refine .bind fun a _ => .bind fun b _ => ?_
    split
    · exact .ok hsame _
    · exact .error _
  | block kinds =>
    have hchosen (executor : Executor) : { session with executor }.Numbered := ⟨actions, hactions⟩
    exact .ok (hchosen _) _

/-- **Parts of one number remain one part** when a command is answered. -/
theorem numbered_answer (depth : Nat) (h : session.Numbered) (command : Command) :
    (session.answer depth command).1.Numbered := by
  rw [answer_eq]
  have hleaves := leaves_perform depth h command
  cases hperform : session.perform depth command with
  | error e => exact h
  | ok found => exact hleaves found.1 found.2 hperform

/-- The action under a name is the one that was last made under it. -/
theorem action?_withAction (session : Session) (name : String) (assembly : Assembly) :
    ∃ found, (session.withAction name assembly).action? name = .ok found ∧
      found.action = assembly.action := by
  have hlookup : (session.withAction name assembly).actions.lookup name =
      some (assembly.numbered session.made) :=
    (Entries.lookup_insert name _ session.actions name).trans (if_pos rfl)
  refine ⟨assembly.numbered session.made, ?_, assembly.action_numbered session.made⟩
  rw [action?, hlookup]

/-- A tree that compiles is there under its name, as the action that is shown. -/
theorem action?_compile {depth : Nat} {name : String} {tree : Value} {next : Session} {a : Action}
    (h : session.perform depth (.compile name tree) = .ok (next, .action a)) :
    ∃ found, next.action? name = .ok found ∧ found.action = a := by
  rw [perform] at h
  cases hcompile : (compileValue depth tree).result with
  | error e =>
    rw [hcompile] at h
    cases h
  | ok made =>
    rw [hcompile] at h
    cases h
    obtain ⟨found, hfound, haction⟩ := session.action?_withAction name (.ofAction a)
    exact ⟨found, hfound, haction.trans (Assembly.action_ofAction a)⟩

/-! ### Many commands -/

/-- **Parts of one number are one part** after all commands, by induction on them. -/
theorem numbered_after (depth : Nat) (h : session.Numbered) (commands : List Command) :
    (session.after depth commands).Numbered := by
  induction commands generalizing session with
  | nil => exact h
  | cons command rest ih => exact ih (numbered_answer depth h command)

/-- **The answer whether two actions are equal is right**, if the depth suffices for one. -/
theorem equal_of_numbered (h : session.Numbered) {depth : Nat} {name other : String} {next : Session}
    {result : Bool} (hequal : session.perform depth (.equal name other) = .ok (next, .equal result)) :
    ∃ a b, session.action? name = .ok a ∧ session.action? other = .ok b ∧
      result = decide (a.action = b.action) := by
  obtain ⟨actions, hactions⟩ := h
  have hrespects {name : String} {a : Assembly} (ha : session.action? name = .ok a) : a.Respects actions := by
    unfold action? at ha
    cases hlookup : session.actions.lookup name with
    | none =>
      rw [hlookup] at ha
      cases ha
    | some found =>
      rw [hlookup] at ha
      cases ha
      exact (hactions name _ hlookup).respects
  rw [perform] at hequal
  obtain ⟨a, ha, hequal⟩ := SessionError.of_bind_eq_ok hequal
  obtain ⟨b, hb, hequal⟩ := SessionError.of_bind_eq_ok hequal
  cases hsame : a.sameWithin depth b with
  | none =>
    rw [hsame] at hequal
    cases hequal
  | some found =>
    rw [hsame] at hequal
    cases hequal
    exact ⟨a, b, ha, hb, Assembly.sameWithin_eq_some (hrespects ha) (hrespects hb) hsame⟩

/-- So it is in every session that commands lead to from the start. -/
theorem equal_after_start (depth : Nat) (records : Bool) (commands : List Command) {name other : String}
    {next : Session} {result : Bool}
    (hequal : ((start depth records).after depth commands).perform depth (.equal name other) =
      .ok (next, .equal result)) :
    ∃ a b, ((start depth records).after depth commands).action? name = .ok a ∧
      ((start depth records).after depth commands).action? other = .ok b ∧
      result = decide (a.action = b.action) :=
  equal_of_numbered (numbered_after depth (numbered_start depth records) commands) hequal

end Session

end DecisionFlow
