import DecisionFlow.Action.Run
import DecisionFlow.Proofs.Compilation
import DecisionFlow.Proofs.Reach

/-!
# A direct interpreter of trees

An interpreter that walks a tree as it was received and never makes an action, and the proof that
compiling a tree and running the action reports just what the interpreter reports.

* `Tree.walk`, `Tree.interpret` — the interpreter.  How conditions are decided is a parameter, which
  is told how much room is left at the node;
* `Condition.bounded`, `Condition.unbounded` — the decisions of a run, and those without any limit;
* `Writes` — something that happens to a run reports just these events and changes nothing else;
* `Compiles.simulates` — the action that a tree compiles to writes the events of the interpreter;
* `execute_eq_interpret` — the whole way, from a value to the end of the run.
-/

namespace DecisionFlow

/-! ### The interpreter -/

/-- What a condition reports: what went wrong, if anything did, the decision, and what the branch
that it chooses reports. -/
def Decision.trail (decision : Decision) (expression : String) (onTrue onFalse : List Event) :
    List Event :=
  (decision.event? expression).toList ++
    .conditionDecided expression decision.holds :: if decision.holds then onTrue else onFalse

/-- What a loop reports whose body, if it has one to run, reports the given events each time. -/
def loopTrail (count : Int) (hasBody : Bool) (inside : List Event) : List Event :=
  .loopStarted count ::
    if hasBody then
      ((List.range count.toNat).flatMap fun i => .iteration (i + 1) count :: inside) ++
        [.loopCompleted count]
    else [.loopSkipped]

namespace Tree

/-- The text of a parameter. -/
def textParam (params : Entries Value) (key : String) : String :=
  ((params.lookup key).bind Value.text?).getD ""

/-- The integer that is the value of a parameter. -/
def countParam (params : Entries Value) (key : String) : Int :=
  match params.lookup key with
  | some (.scalar (.number n)) => n.whole?.getD 0
  | _ => 0

/-- The room that is left at a node with the given chain after it: where there are several nodes to
run, each of them is handed over. -/
def roomBefore (next : Tree) (room : Nat) : Nat :=
  if next.isKnown then room - Depth.delegation else room

/-- The room that is left at the nodes of a chain. -/
def nodeRoom : Tree → Nat → Nat
  | absent, room => room
  | node _ _ _ _ _ next, room => next.roomBefore room

/-- The events of a chain whose nodes have the given room, up to the first node of unknown type. -/
def walk (decide : Nat → String → Decision) : Tree → Nat → List Event
  | absent, _ => []
  | node type params whenTrue whenFalse body next, room =>
    let inside := room - Depth.delegation
    match type.bind NodeType.ofText? with
    | none => []
    | some .sms => .smsSent (textParam params "phoneNumber") :: next.walk decide room
    | some .email =>
      .emailSent (textParam params "sender") (textParam params "receiver") ::
        next.walk decide room
    | some .condition =>
      let expression := textParam params "expression"
      (decide room expression).trail expression
          (whenTrue.walk decide (whenTrue.nodeRoom inside))
          (whenFalse.walk decide (whenFalse.nodeRoom inside)) ++
        next.walk decide room
    | some .loop =>
      loopTrail (countParam params "count") body.isKnown
          (body.walk decide (body.nodeRoom inside)) ++
        next.walk decide room

/-- The events of a tree that is given some room. -/
def interpret (decide : Nat → String → Decision) (tree : Tree) (room : Nat) : List Event :=
  tree.walk decide (tree.nodeRoom room)

end Tree

/-- The decisions that a run makes. -/
def Condition.bounded (vars : Variables) (room : Nat) (expression : String) : Decision :=
  Condition.decision room expression vars

/-- The decisions without any limit on depth. -/
def Condition.unbounded (vars : Variables) (_ : Nat) (expression : String) : Decision :=
  match Condition.truth expression vars with
  | .ok b => ⟨b, none⟩
  | .error e => ⟨false, some (.because e)⟩

/-- Every loop of an action has a count that can be written. -/
def Action.CountsWritable : Action → Prop
  | .condition _ whenTrue whenFalse => whenTrue.CountsWritable ∧ whenFalse.CountsWritable
  | .loop count body => Numeral.isTooLong count = false ∧ body.CountsWritable
  | .sequence first next => first.CountsWritable ∧ next.CountsWritable
  | _ => True

theorem Action.countsWritable_andNext {first rest : Action}
    (h : (first.andNext rest).CountsWritable) :
    first.CountsWritable ∧ rest.CountsWritable := by
  cases rest with
  | absent => exact ⟨h, trivial⟩
  | _ => exact h

namespace Tree

variable (decide : Nat → String → Decision)

theorem walk_of_unknown {tree : Tree} (h : tree.isKnown = false) (room : Nat) :
    tree.walk decide room = [] := by
  cases tree with
  | absent => rfl
  | node type params whenTrue whenFalse body next =>
    have hnone : type.bind NodeType.ofText? = none := Option.not_isSome_iff_eq_none.mp (by
      rw [show (type.bind NodeType.ofText?).isSome = false from h]
      exact Bool.false_ne_true)
    rw [walk, hnone]

variable {type : Option String} {params : Entries Value}
variable (whenTrue whenFalse body next : Tree) (room : Nat)

theorem walk_sms {phoneNumber : String} (h : Step.Given params type (.sms phoneNumber)) :
    (node type params whenTrue whenFalse body next).walk decide room =
      [.smsSent phoneNumber] ++ next.walk decide room := by
  cases h with
  | sms hlookup _ =>
    have htext : textParam params "phoneNumber" = phoneNumber := by
      rw [textParam, hlookup]
      rfl
    rw [walk, ← htext]
    rfl

theorem walk_email {sender receiver : String}
    (h : Step.Given params type (.email sender receiver)) :
    (node type params whenTrue whenFalse body next).walk decide room =
      [.emailSent sender receiver] ++ next.walk decide room := by
  cases h with
  | email hsender _ hreceiver _ =>
    have hfrom : textParam params "sender" = sender := by
      rw [textParam, hsender]
      rfl
    have hto : textParam params "receiver" = receiver := by
      rw [textParam, hreceiver]
      rfl
    rw [walk, ← hfrom, ← hto]
    rfl

theorem walk_condition {expression : String}
    (h : Step.Given params type (.condition expression)) :
    (node type params whenTrue whenFalse body next).walk decide room =
      (decide room expression).trail expression
          (whenTrue.interpret decide (room - Depth.delegation))
          (whenFalse.interpret decide (room - Depth.delegation)) ++
        next.walk decide room := by
  cases h with
  | condition hlookup _ =>
    have htext : textParam params "expression" = expression := by
      rw [textParam, hlookup]
      rfl
    rw [walk, ← htext]
    rfl

theorem walk_loop {count : Nat} (h : Step.Given params type (.loop count)) :
    (node type params whenTrue whenFalse body next).walk decide room =
      loopTrail count body.isKnown (body.interpret decide (room - Depth.delegation)) ++
        next.walk decide room := by
  cases h with
  | @loop n count hlookup hwhole =>
    have hcount : countParam params "count" = count := by
      rw [countParam, hlookup]
      show n.whole?.getD 0 = count
      rw [hwhole]
      rfl
    rw [walk, ← hcount]
    rfl

end Tree

/-! ### What a run writes -/

namespace Run

/-- A run that has reported some more events. -/
def wrote (r : Run) (events : List Event) : Run := { r with trail := r.trail ++ events.toArray }

@[simp] theorem wrote_nil (r : Run) : r.wrote [] = r := by
  simp [wrote]

@[simp] theorem wrote_wrote (r : Run) (xs ys : List Event) :
    (r.wrote xs).wrote ys = r.wrote (xs ++ ys) := by
  simp [wrote]

end Run

/-- `Writes vars happen events`: on these variables, what happens to a run that has not failed
reports just these events and changes nothing else. -/
def Writes (vars : Variables) (happen : Run → Run) (events : List Event) : Prop :=
  ∀ r : Run, r.failure = none → r.vars = vars → happen r = r.wrote events

namespace Writes

variable {vars : Variables} {happen later : Run → Run} {events following : List Event}

theorem nothing (vars : Variables) : Writes vars (fun r => r) [] :=
  fun r _ _ => r.wrote_nil.symm

theorem report (vars : Variables) (event : Event) : Writes vars (Run.report event) [event] := by
  intro r hfailure _
  unfold Run.report Run.proceed
  rw [hfailure]
  show { r with trail := r.trail.push event } = { r with trail := r.trail ++ [event].toArray }
  rw [Array.push_eq_append]

theorem report? (vars : Variables) (event? : Option Event) :
    Writes vars (Run.report? event?) event?.toList := by
  cases event? with
  | none => exact nothing vars
  | some event => exact report vars event

/-- One thing and then another write their events in this order. -/
theorem andThen (h : Writes vars happen events) (hlater : Writes vars later following) :
    Writes vars (fun r => later (happen r)) (events ++ following) := by
  intro r hfailure hvars
  have hnext := hlater (r.wrote events) hfailure hvars
  rw [Run.wrote_wrote] at hnext
  show later (happen r) = _
  rw [h r hfailure hvars, hnext]

/-- An action that is handed over writes what it writes by itself. -/
theorem delegate (a : Action) (perform : Nat → Run → Run) {depth : Nat}
    (h : Writes vars (perform depth) events) :
    Writes vars (Executor.plain.delegate a perform (depth + Depth.delegation)) events := by
  intro r hfailure hvars
  have htake : Depth.take? Depth.delegation (depth + Depth.delegation) = some depth :=
    Depth.take?_eq_some.mpr rfl
  unfold Executor.delegate
  rw [htake]
  exact h r hfailure hvars

/-- A body that writes the same events each time, repeated. -/
theorem repeated (total : Int) (h : Writes vars happen events) (remaining : Nat) :
    Writes vars (Run.repeated total happen remaining)
      ((List.range remaining).flatMap fun (i : Nat) =>
        .iteration (total - remaining + i + 1) total :: events) := by
  induction remaining with
  | zero => exact nothing vars
  | succ remaining ih =>
    have hround := (report vars (.iteration (total - remaining) total)).andThen h
    intro r hfailure hvars
    have hunfold : Run.repeated total happen (remaining + 1) r = Run.repeated total happen remaining
        (happen (r.report (.iteration (total - remaining) total))) := by
      rw [Run.repeated, hfailure]
    have hfirst : total - ((remaining + 1 : Nat) : Int) + ((0 : Nat) : Int) + 1 =
        total - remaining := by omega
    have hshift : ∀ i : Nat, total - ((remaining + 1 : Nat) : Int) + ((i + 1 : Nat) : Int) + 1 =
        total - remaining + i + 1 := fun i => by omega
    rw [hunfold, List.range_succ_eq_map, List.flatMap_cons, List.flatMap_map]
    simp only [hfirst, hshift]
    exact hround.andThen ih r hfailure hvars

end Writes

/-! ### The simulation -/

/-- The action simulates the tree: with room enough for what the tree took to compile, it writes the
events of the interpreter. -/
def Simulates (vars : Variables) (depth : Nat) (tree : Tree) (a : Action) : Prop :=
  ∀ room, a.isPresent = true → depth ≤ tree.nodeRoom room + Depth.delegation →
    Writes vars (a.run .plain room) (tree.interpret (Condition.bounded vars) room)

theorem Tree.le_nodeRoom (tree : Tree) (room : Nat) :
    room - Depth.delegation ≤ tree.nodeRoom room := by
  cases tree with
  | absent => exact Nat.sub_le _ _
  | node type params whenTrue whenFalse body next =>
    show room - Depth.delegation ≤ next.roomBefore room
    unfold roomBefore
    split
    · exact Nat.le_refl _
    · exact Nat.sub_le _ _

namespace Compiles

variable {vars : Variables} {depth room : Nat} {tree : Tree} {a : Action}

/-- The nodes of a chain are handed over exactly if its action is a sequence. -/
theorem nodeRoom_eq (h : Compiles depth tree a) (hpresent : a.isPresent = true) (room : Nat) :
    tree.nodeRoom room = if a.isSequence then room - Depth.delegation else room := by
  have hstep {first rest : Action} {next : Tree} (hnext : Compiles depth next rest)
      (hfirst : first.isSequence = false) :
      next.roomBefore room =
        if (first.andNext rest).isSequence then room - Depth.delegation else room := by
    rw [Tree.roomBefore, Action.isSequence_andNext hfirst, hnext.isPresent_eq]
  cases h with
  | absent => cases hpresent
  | unknown _ _ => cases hpresent
  | sms _ _ hnext => exact hstep hnext rfl
  | email _ _ hnext => exact hstep hnext rfl
  | condition _ _ _ hnext => exact hstep hnext rfl
  | loop _ _ hnext => exact hstep hnext rfl

/-- What a node writes by itself and what the chain after it writes, in this order. -/
theorem chain_writes {next : Tree} {first rest : Action} {own : List Event}
    (hnext : Compiles depth next rest) (hrest : Simulates vars depth next rest)
    (hroom : depth ≤ next.roomBefore room + Depth.delegation)
    (hown : Writes vars (first.run .plain (next.roomBefore room)) own) :
    Writes vars ((first.andNext rest).run .plain room)
      (own ++ next.walk (Condition.bounded vars) (next.roomBefore room)) := by
  unfold Tree.roomBefore at *
  cases hpresent : rest.isPresent with
  | false =>
    have hunknown : next.isKnown = false := by rw [← hnext.isPresent_eq, hpresent]
    rw [hunknown] at hown
    rw [Tree.walk_of_unknown _ hunknown, List.append_nil, Action.eq_absent_of_isPresent hpresent]
    exact hown
  | true =>
    have hknown : next.isKnown = true := by rw [← hnext.isPresent_eq, hpresent]
    rw [if_pos hknown] at hown hroom ⊢
    obtain ⟨inside, rfl⟩ : ∃ inside, room = inside + Depth.delegation := by
      have hchain := hnext.compiledChain_le hpresent
      simp only [Depth.compiledChain, Depth.delegation] at hchain hroom ⊢
      exact ⟨room - 2, by omega⟩
    rw [Nat.add_sub_cancel] at hown hroom ⊢
    rw [Action.andNext_of_isPresent first hpresent]
    have hfirst := Writes.delegate first (fun depth r => first.run .plain depth r) hown
    have hnodes := hnext.nodeRoom_eq hpresent
    intro r hfailure hvars
    cases hsequence : rest.isSequence with
    | true =>
      -- the rest of the chain is run in the room of the whole, and hands over its own members
      simp only [hsequence, if_true] at hnodes
      have hlater := hrest (inside + Depth.delegation) hpresent (by
        rw [hnodes]
        exact hroom)
      rw [Tree.interpret, hnodes, Nat.add_sub_cancel] at hlater
      have hall := hfirst.andThen hlater r hfailure hvars
      rw [Action.run, if_pos hsequence]
      exact hall
    | false =>
      -- the rest is the last member, and is handed over as the first one is
      simp only [hsequence] at hnodes
      have hlater := hrest inside hpresent (by
        rw [hnodes]
        exact hroom)
      rw [Tree.interpret, hnodes] at hlater
      have hall := hfirst.andThen
        (Writes.delegate rest (fun depth r => rest.run .plain depth r) hlater)
        r hfailure hvars
      rw [Action.run, hsequence]
      exact hall

/-- A branch or a body that is there is handed over, and writes the events of its chain. -/
theorem inside_writes (h : Compiles depth tree a) (hsim : Simulates vars depth tree a)
    (hpresent : a.isPresent = true)
    (hroom : depth + Depth.compiledLink ≤ room + Depth.delegation) :
    Writes vars (Executor.plain.delegate a (fun depth r => a.run .plain depth r) room)
      (tree.interpret (Condition.bounded vars) (room - Depth.delegation)) := by
  have hchain := h.compiledChain_le hpresent
  have hnodes := tree.le_nodeRoom (room - Depth.delegation)
  simp only [Depth.compiledChain, Depth.compiledLink, Depth.delegation] at hchain hroom hnodes
  obtain ⟨inside, rfl⟩ : ∃ inside, room = inside + Depth.delegation :=
    ⟨room - 2, by simp only [Depth.delegation]; omega⟩
  rw [Nat.add_sub_cancel]
  refine Writes.delegate a (fun depth r => a.run .plain depth r) (hsim inside hpresent ?_)
  simp only [Depth.delegation] at hnodes hroom ⊢
  rw [Nat.add_sub_cancel] at hnodes
  omega

/-- A branch writes the events of its chain, which are none if there is nothing to run. -/
theorem branch_writes (h : Compiles depth tree a) (hsim : Simulates vars depth tree a)
    (hroom : depth + Depth.compiledLink ≤ room + Depth.delegation) :
    Writes vars
      (Executor.plain.delegateIfPresent a (fun depth r => a.run .plain depth r) room)
      (tree.interpret (Condition.bounded vars) (room - Depth.delegation)) := by
  unfold Executor.delegateIfPresent
  cases hpresent : a.isPresent with
  | true =>
    exact h.inside_writes hsim hpresent hroom
  | false =>
    have hunknown : tree.isKnown = false := by rw [← h.isPresent_eq, hpresent]
    rw [Tree.interpret, Tree.walk_of_unknown _ hunknown]
    exact Writes.nothing vars

/-- A condition by itself writes its decision and the events of the branch chosen. -/
theorem condition_writes {whenTrue whenFalse : Tree} {onTrue onFalse : Action}
    (expression : String) (htrue : Compiles depth whenTrue onTrue)
    (hfalse : Compiles depth whenFalse onFalse) (simTrue : Simulates vars depth whenTrue onTrue)
    (simFalse : Simulates vars depth whenFalse onFalse)
    (hroom : depth + Depth.compiledLink ≤ room + Depth.delegation) :
    Writes vars ((Action.condition expression onTrue onFalse).run .plain room)
      ((Condition.bounded vars room expression).trail expression
        (whenTrue.interpret (Condition.bounded vars) (room - Depth.delegation))
        (whenFalse.interpret (Condition.bounded vars) (room - Depth.delegation))) := by
  have hdecided := (Writes.report? vars
    ((Condition.bounded vars room expression).event? expression)).andThen
    (Writes.report vars
      (.conditionDecided expression (Condition.bounded vars room expression).holds))
  intro r hfailure hvars
  have hdecision : Condition.decision room expression r.vars =
      Condition.bounded vars room expression := by rw [hvars]; rfl
  rw [Action.run, hdecision]
  unfold Decision.trail
  cases hholds : (Condition.bounded vars room expression).holds with
  | true =>
    rw [hholds] at hdecided
    have hall := hdecided.andThen (htrue.branch_writes simTrue hroom) r hfailure hvars
    rw [List.append_assoc] at hall
    exact hall
  | false =>
    rw [hholds] at hdecided
    have hall := hdecided.andThen (hfalse.branch_writes simFalse hroom) r hfailure hvars
    rw [List.append_assoc] at hall
    exact hall

/-- A loop by itself writes its rounds, or that there is nothing to repeat. -/
theorem loop_writes {body : Tree} {inside : Action} {count : Nat}
    (hbody : Compiles depth body inside) (simBody : Simulates vars depth body inside)
    (hcount : Numeral.isTooLong count = false)
    (hroom : depth + Depth.compiledLink ≤ room + Depth.delegation) :
    Writes vars ((Action.loop count inside).run .plain room)
      (loopTrail count body.isKnown
        (body.interpret (Condition.bounded vars) (room - Depth.delegation))) := by
  have hstarted := Writes.report vars (.loopStarted count)
  intro r hfailure hvars
  rw [Action.run, hcount, ← hbody.isPresent_eq]
  unfold loopTrail
  cases hpresent : inside.isPresent with
  | true =>
    have hrounds := Writes.repeated count (hbody.inside_writes simBody hpresent hroom) count
    simp only [Int.sub_self, Int.zero_add] at hrounds
    exact (hstarted.andThen (hrounds.andThen (Writes.report vars (.loopCompleted count))))
      r hfailure hvars
  | false => exact (hstarted.andThen (Writes.report vars .loopSkipped)) r hfailure hvars

/-- **An action simulates the tree that it was compiled from.** -/
theorem simulates (h : Compiles depth tree a) (hcounts : a.CountsWritable) :
    Simulates vars depth tree a := by
  induction h with
  | absent => exact nofun
  | unknown => exact nofun
  | @sms depth type params whenTrue whenFalse body next phoneNumber rest hchain hgiven hnext ih =>
    intro room hpresent hroom
    rw [Tree.interpret, Tree.walk_sms _ _ _ _ _ _ hgiven]
    exact hnext.chain_writes (ih (Action.countsWritable_andNext hcounts).2) hroom
      (Writes.report vars (.smsSent phoneNumber))
  | @email depth type params whenTrue whenFalse body next sender receiver rest hchain hgiven hnext
      ih =>
    intro room hpresent hroom
    rw [Tree.interpret, Tree.walk_email _ _ _ _ _ _ hgiven]
    exact hnext.chain_writes (ih (Action.countsWritable_andNext hcounts).2) hroom
      (Writes.report vars (.emailSent sender receiver))
  | condition hgiven htrue hfalse hnext iht ihf ihn =>
    intro room hpresent hroom
    obtain ⟨⟨hcountsTrue, hcountsFalse⟩, hcountsRest⟩ := Action.countsWritable_andNext hcounts
    rw [Tree.interpret, Tree.walk_condition _ _ _ _ _ _ hgiven]
    exact hnext.chain_writes (ihn hcountsRest) hroom
      (condition_writes _ htrue hfalse (iht hcountsTrue) (ihf hcountsFalse) hroom)
  | loop hgiven hbody hnext ihb ihn =>
    intro room hpresent hroom
    obtain ⟨⟨hcount, hcountsBody⟩, hcountsRest⟩ := Action.countsWritable_andNext hcounts
    rw [Tree.interpret, Tree.walk_loop _ _ _ _ _ _ hgiven]
    exact hnext.chain_writes (ihn hcountsRest) hroom
      (loop_writes hbody (ihb hcountsBody) hcount hroom)

end Compiles

/-! ### Bounded and unbounded conditions -/

/-- A bounded decision is the unbounded one, unless it reports that it went too deep. -/
theorem Condition.bounded_cases (vars : Variables) (room : Nat) (expression : String) :
    (∀ room', Condition.bounded vars room expression = Condition.unbounded vars room' expression) ∨
      (Condition.bounded vars room expression).event? expression =
        some (.conditionFailed expression .tooDeep) := by
  unfold Condition.bounded Condition.unbounded Condition.decision
  rw [Condition.truthWithin_eq]
  by_cases hreach : Condition.reach expression vars ≤ room
  · rw [Bounded.within_of_le _ hreach]
    refine .inl fun room' => ?_
    cases Condition.truth expression vars <;> rfl
  · rw [Bounded.within_of_lt _ (Nat.not_le.mp hreach)]
    exact .inr rfl

/-- The events say nowhere that a condition went too deep. -/
def Shallow (events : List Event) : Prop :=
  ∀ expression, Event.conditionFailed expression .tooDeep ∉ events

theorem Shallow.of_append {xs ys : List Event} (h : Shallow (xs ++ ys)) : Shallow xs ∧ Shallow ys :=
  ⟨fun e hx => h e (List.mem_append_left ys hx), fun e hy => h e (List.mem_append_right xs hy)⟩

theorem Shallow.of_cons {event : Event} {events : List Event} (h : Shallow (event :: events)) :
    Shallow events :=
  fun e hevents => h e (List.mem_cons_of_mem event hevents)

/-- A condition shows how it is decided, and what the branch chosen reports. -/
theorem Condition.trail_congr {vars : Variables} {room : Nat} {expression : String}
    {xs ys xs' ys' : List Event}
    (h : Shallow ((Condition.bounded vars room expression).trail expression xs ys))
    (hxs : Shallow xs → xs = xs') (hys : Shallow ys → ys = ys') (room' : Nat) :
    (Condition.bounded vars room expression).trail expression xs ys =
      (Condition.unbounded vars room' expression).trail expression xs' ys' := by
  unfold Decision.trail at h ⊢
  rcases Condition.bounded_cases vars room expression with hsame | hdeep
  · rw [← hsame room']
    have hbranch := (Shallow.of_append h).2.of_cons
    cases hholds : (Condition.bounded vars room expression).holds with
    | true =>
      rw [hholds] at hbranch
      rw [if_pos rfl, if_pos rfl, hxs hbranch]
    | false =>
      rw [hholds] at hbranch
      rw [if_neg Bool.false_ne_true, if_neg Bool.false_ne_true, hys hbranch]
  · rw [hdeep] at h
    exact absurd (List.mem_cons_self) (h expression)

/-- A loop that has rounds shows what its body reports. -/
theorem loopTrail_congr {count : Int} {hasBody : Bool} {xs ys : List Event}
    (h : Shallow (loopTrail count hasBody xs)) (hbody : Shallow xs → xs = ys) :
    loopTrail count hasBody xs = loopTrail count hasBody ys := by
  cases hasBody with
  | false => rfl
  | true =>
    unfold loopTrail at h ⊢
    simp only [if_true] at h ⊢
    cases hrounds : count.toNat with
    | zero => rfl
    | succ rounds =>
      rw [hrounds] at h
      have hfirst := (Shallow.of_append (Shallow.of_cons h)).1
      rw [List.range_succ_eq_map, List.flatMap_cons] at hfirst
      rw [hbody (Shallow.of_cons (Shallow.of_append hfirst).1)]

/-- Where no condition goes too deep, the interpreter needs no limit. -/
theorem Tree.walk_eq_unbounded {vars : Variables} (tree : Tree) {room : Nat}
    (h : Shallow (tree.walk (Condition.bounded vars) room)) (room' : Nat) :
    tree.walk (Condition.bounded vars) room = tree.walk (Condition.unbounded vars) room' := by
  induction tree generalizing room room' with
  | absent => rfl
  | node type params whenTrue whenFalse body next iht ihf ihb ihn =>
    unfold walk at h ⊢
    cases hknown : type.bind NodeType.ofText? with
    | none => rfl
    | some known =>
      rw [hknown] at h
      cases known with
      | sms => exact congrArg _ (ihn h.of_cons room')
      | email => exact congrArg _ (ihn h.of_cons room')
      | condition =>
        obtain ⟨hown, hnext⟩ := Shallow.of_append h
        exact congr (congrArg _ (Condition.trail_congr hown (fun htrue => iht htrue _)
          (fun hfalse => ihf hfalse _) room')) (ihn hnext room')
      | loop =>
        obtain ⟨hown, hnext⟩ := Shallow.of_append h
        show loopTrail _ _ _ ++ _ = loopTrail _ _ _ ++ _
        rw [loopTrail_congr hown fun hbody => ihb hbody _, ihn hnext room']

/-! ### From a value to the end of its run -/

/-- **Compiling and running refines the interpreter.** For every value that decodes and compiles, and
on every variables: there is something to run exactly if the first node is of a known type, and then
the run ends without a failure, leaves the variables as they were and reports just the events of the
interpreter.  These are the events of the interpreter without any limit, unless one of them says that
a condition went too deep. -/
theorem execute_eq_interpret {depth room : Nat} {value : Value} {a : Action}
    (hcompiled : (compileValue depth value).result = .ok a) (hroom : depth ≤ room)
    (hcounts : a.CountsWritable) (vars : Variables) :
    ∃ tree, Tree.ofValue depth value = .ok tree ∧
      a.isPresent = tree.isKnown ∧
      (a.isPresent = true → a.execute room .plain vars =
        ⟨vars, (tree.interpret (Condition.bounded vars) room).toArray, #[], none⟩) ∧
      (Shallow (tree.interpret (Condition.bounded vars) room) →
        tree.interpret (Condition.bounded vars) room =
          tree.interpret (Condition.unbounded vars) room) := by
  obtain ⟨tree, htree, hresult⟩ := compileValue_eq_ok hcompiled
  have hcompiles := compiles_of_ok hresult
  refine ⟨tree, htree, hcompiles.isPresent_eq, ?_, fun h => tree.walk_eq_unbounded h _⟩
  intro hpresent
  have hnodes := tree.le_nodeRoom room
  have hrun := hcompiles.simulates hcounts room hpresent (by
    simp only [Depth.delegation] at hnodes ⊢
    omega) (Run.start vars) rfl rfl
  unfold Action.execute
  rw [hrun]
  simp [Run.wrote, Run.start]

/-- A loop around a condition, with a text message and a node of unknown type after it. -/
theorem execute_eq_interpret_reminder :
    let message (phoneNumber : String) : Value := .object [("phoneNumber", .string phoneNumber)]
    let check : Value := .object [("type", .string "condition"),
      ("params", .object [("expression", .string "age >= 18")]),
      ("trueAction", .object [("type", .string "sms"), ("params", message "1")])]
    let value : Value := .object [("type", .string "loop"),
      ("params", .object [("count", .integer 2)]), ("subtree", check),
      ("next", .object [("type", .string "sms"), ("params", message "2"),
        ("next", .object [("type", .string "fax")])])]
    let a : Action :=
      .sequence (.loop 2 (.condition "age >= 18" (.sms "1") .absent)) (.sms "2")
    let vars : Variables := .ofList [("age", .integer 20)]
    (compileValue Depth.standard value).result = .ok a ∧ a.CountsWritable ∧
      (∃ tree, Tree.ofValue Depth.standard value = .ok tree ∧
        a.execute Depth.standard .plain vars =
          ⟨vars, (tree.interpret (Condition.bounded vars) Depth.standard).toArray, #[], none⟩) ∧
      (a.execute Depth.standard .plain vars).trail =
        #[.loopStarted 2, .iteration 1 2, .conditionDecided "age >= 18" true, .smsSent "1",
          .iteration 2 2, .conditionDecided "age >= 18" true, .smsSent "1", .loopCompleted 2,
          .smsSent "2"] := by
  intro message check value a vars
  have hcompiled : (compileValue Depth.standard value).result = .ok a :=
    eq_ok_of_toOption (by decide +kernel)
  have hcounts : a.CountsWritable := ⟨⟨by decide +kernel, trivial, trivial⟩, trivial⟩
  obtain ⟨tree, htree, -, hrun, -⟩ :=
    execute_eq_interpret hcompiled (Nat.le_refl Depth.standard) hcounts vars
  exact ⟨hcompiled, hcounts, ⟨tree, htree, hrun rfl⟩, by decide +kernel⟩

end DecisionFlow
