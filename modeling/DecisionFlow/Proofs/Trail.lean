import DecisionFlow.Proofs.Faults
import DecisionFlow.Proofs.Rendering
import DecisionFlow.Proofs.Reporting

/-!
# The trail as lines

What a run reports is printed, one line an event, each behind the time at which it happened.  The lines
can be read back: whatever the texts of a tree hold, each line says what its event says, and no text makes
two lines of one, or one line look like another.

* `Text.printed`, `Text.lines_printed` — lines that are printed, and how many there are;
* `Text.splitBrace` — a text, parted at its first space with a brace after it;
* `Report.ofLine?` — what a line says, by this part and by reading the rest as JSON;
* `Event.Countable` — the numbers of an event can be written; `Event.ofLine?_stampedLine` says that the
  line of such an event says what the event says;
* `Action.MayReport.countable` — actions report no other events;
* `Log.Tells` — the events of a run, with the times at which they happened;
* `trail_reads_back` — what is printed for a run, and for the notices of the compiler.
-/

namespace DecisionFlow

/-! ### Printed lines -/

namespace Text

/-- The text of lines as they are printed, each with a line feed at its end. -/
def printed (lines : List String) : String := String.ofList (lines.flatMap fun line => line.toList ++ ['\n'])

theorem splitLines_append {cs : List Char} (h : '\n' ∉ cs) (rest : List Char) :
    splitLines (cs ++ '\n' :: rest) = cs :: splitLines rest := by
  induction cs with
  | nil => rfl
  | cons c cs ih =>
    obtain ⟨hc, hcs⟩ := not_or.mp (mt List.mem_cons.mpr h)
    rw [List.cons_append, splitLines, ih hcs]
    exact fun heq => hc heq.symm

/-- **Lines without line feeds are printed as that many lines**, and nothing after them. -/
theorem lines_printed {lines : List String} (h : ∀ line ∈ lines, '\n' ∉ line.toList) :
    Text.lines (printed lines) = lines ++ [""] := by
  unfold Text.lines printed
  rw [String.toList_ofList]
  induction lines with
  | nil => rfl
  | cons line more ih =>
    obtain ⟨hline, hmore⟩ := List.forall_mem_cons.mp h
    rw [List.flatMap_cons, List.append_assoc, List.singleton_append, splitLines_append hline, List.map_cons,
      ih hmore, String.ofList_toList]
    rfl

/-- The part of a text in front of the first space with a brace after it, and the text from this brace on. -/
def splitBrace : List Char → List Char × List Char
  | ' ' :: '{' :: rest => ([], '{' :: rest)
  | c :: rest => (c :: (splitBrace rest).1, (splitBrace rest).2)
  | [] => ([], [])

theorem splitBrace_cons (c : Char) {rest : List Char} (h : rest.head? ≠ some '{') :
    splitBrace (c :: rest) = (c :: (splitBrace rest).1, (splitBrace rest).2) := by
  rw [splitBrace]
  rintro more - rfl
  exact h rfl

/-- A text without a brace has no such part. -/
theorem splitBrace_of_not_mem {cs : List Char} (h : '{' ∉ cs) : splitBrace cs = (cs, []) := by
  induction cs with
  | nil => rfl
  | cons c cs ih =>
    obtain ⟨-, hcs⟩ := not_or.mp (mt List.mem_cons.mpr h)
    rw [splitBrace_cons c fun hhead => hcs (List.mem_of_head? hhead), ih hcs]

/-- A text without a brace ends where a space with a brace comes. -/
theorem splitBrace_append {cs : List Char} (h : '{' ∉ cs) (rest : List Char) :
    splitBrace (cs ++ ' ' :: '{' :: rest) = (cs, '{' :: rest) := by
  induction cs with
  | nil => rfl
  | cons c cs ih =>
    obtain ⟨-, hcs⟩ := not_or.mp (mt List.mem_cons.mpr h)
    have hhead : (cs ++ ' ' :: '{' :: rest).head? ≠ some '{' := by
      cases cs with
      | nil => exact nofun
      | cons d cs => exact fun hhead => hcs (List.mem_of_head? hhead)
    rw [List.cons_append, splitBrace_cons c hhead, ih hcs]

end Text

/-! ### Lines of events -/

/-- A point in time as it is printed: digits, and the characters between them. -/
def IsStamp (stamp : String) : Prop :=
  (stamp.toList.all fun c => c.isDigit || ['-', 'T', ':', '.'].contains c) = true

/-- The line of an event, behind the time at which it happened. -/
def Event.stampedLine (stamp : String) (event : Event) : String := "[" ++ stamp ++ "] " ++ event.line

/-- What a line of the trail says. -/
structure Report where
  /-- The time. -/
  stamp : String
  /-- The title. -/
  title : String
  /-- The details, if there are any. -/
  details? : Option Value
deriving DecidableEq

/-- What a line says: the time in brackets, the title behind it, and the details as JSON from the first
brace on that follows a space. -/
def Report.ofLine? (line : String) : Option Report :=
  let head := (Text.splitBrace line.toList).1.drop 1
  let details := (Text.splitBrace line.toList).2
  let stamp := String.ofList (head.takeWhile (· ≠ ']'))
  let title := String.ofList ((head.dropWhile (· ≠ ']')).drop 2)
  if details = [] then some ⟨stamp, title, none⟩
  else (Json.read (String.ofList details)).map fun data => ⟨stamp, title, some data⟩

namespace Event

/-- The numbers of an event have no more digits than can be written. -/
def Countable : Event → Prop
  | loopStarted count => Numeral.isTooLong count = false
  | iteration number total => Numeral.isTooLong number = false ∧ Numeral.isTooLong total = false
  | loopCompleted total => Numeral.isTooLong total = false
  | _ => True

/-- The details of an event are plain scalars under distinct names. -/
theorem plain_details {event : Event} (h : event.Countable) {details : Entries Value}
    (hdetails : event.details? = some details) : Json.PlainFields details := by
  cases event with
  | smsSent phoneNumber =>
    cases hdetails
    exact .single _ (.string _)
  | emailSent sender receiver =>
    cases hdetails
    exact .pair (by decide) (.string _) (.string _)
  | conditionFailed expression cause =>
    cases hdetails
    exact .pair (by decide) (.string _) (.string _)
  | conditionDecided expression result =>
    cases hdetails
    exact .pair (by decide) (.string _) (.boolean _)
  | loopStarted count =>
    cases hdetails
    exact .single _ (.integer h)
  | loopSkipped => cases hdetails
  | iteration number total =>
    cases hdetails
    exact .pair (by decide) (.integer h.1) (.integer h.2)
  | loopCompleted total =>
    cases hdetails
    exact .single _ (.integer h)

/-- A title has neither a brace nor a character below U+0020. -/
theorem title_chars (event : Event) : ∀ c ∈ event.title.toList, c ≠ '{' ∧ 0x20 ≤ c.toNat := by
  -- as a boolean, which goes through the title and not through all characters there are
  have hall : (event.title.toList.all fun c => c ≠ '{' ∧ 0x20 ≤ c.toNat) = true := by
    cases event <;> simp only [title] <;> decide +kernel
  exact fun c hc => of_decide_eq_true (List.all_eq_true.mp hall c hc)

variable {stamp : String} {event : Event}

/-- What stands in front of the details of a line. -/
def stampedTitle (stamp : String) (event : Event) : List Char :=
  '[' :: (stamp.toList ++ ']' :: ' ' :: event.title.toList)

theorem stampedLine_of_none (h : event.details? = none) :
    (event.stampedLine stamp).toList = event.stampedTitle stamp := by
  unfold stampedLine line
  rw [h]
  simp [stampedTitle, String.toList_append]

theorem stampedLine_of_some {details : Entries Value} (h : event.details? = some details) :
    (event.stampedLine stamp).toList =
      event.stampedTitle stamp ++ ' ' :: (Json.render (.object details)).toList := by
  unfold stampedLine line
  rw [h]
  simp [stampedTitle, String.toList_append]

/-- A time has no brace, no closing bracket and no character below U+0020. -/
theorem stamp_chars (hstamp : IsStamp stamp) :
    ∀ c ∈ stamp.toList, c ≠ '{' ∧ c ≠ ']' ∧ 0x20 ≤ c.toNat := by
  intro c hc
  rcases Bool.or_eq_true_iff.mp (List.all_eq_true.mp hstamp c hc) with hdigit | hmark
  · have hrange := hdigit
    rw [Char.isDigit, Bool.and_eq_true, decide_eq_true_eq, decide_eq_true_eq] at hrange
    refine ⟨?_, ?_, Nat.le_trans (by decide) (show '0'.toNat ≤ c.toNat from hrange.1)⟩
    · rintro rfl
      cases hdigit
    · rintro rfl
      cases hdigit
  · simp only [List.contains_iff_mem, List.mem_cons, List.not_mem_nil, or_false] at hmark
    rcases hmark with rfl | rfl | rfl | rfl <;> decide

/-- Neither a time nor a title has a brace or a character below U+0020. -/
theorem stampedTitle_chars (hstamp : IsStamp stamp) (event : Event) :
    ∀ c ∈ event.stampedTitle stamp, c ≠ '{' ∧ 0x20 ≤ c.toNat := by
  unfold stampedTitle
  simp only [List.forall_mem_cons, List.forall_mem_append]
  refine ⟨by decide, fun c hc => ?_, by decide, by decide, event.title_chars⟩
  obtain ⟨hbrace, -, hcode⟩ := stamp_chars hstamp c hc
  exact ⟨hbrace, hcode⟩

/-- The first space with a brace after it stands in front of the details. -/
theorem splitBrace_stampedLine (hstamp : IsStamp stamp) (event : Event) :
    Text.splitBrace (event.stampedLine stamp).toList = (event.stampedTitle stamp,
      (event.details?.map fun details => (Json.render (.object details)).toList).getD []) := by
  have hbrace : '{' ∉ event.stampedTitle stamp := fun h => (stampedTitle_chars hstamp event _ h).1 rfl
  cases hdetails : event.details? with
  | none => rw [stampedLine_of_none hdetails, Text.splitBrace_of_not_mem hbrace]; rfl
  | some details =>
    obtain ⟨body, hbody⟩ := Json.render_object details
    rw [stampedLine_of_some hdetails, hbody, Text.splitBrace_append hbrace, Option.map_some, hbody]
    rfl

/-- What an event says, with the time at which it happened. -/
def report (stamp : String) (event : Event) : Report := ⟨stamp, event.title, event.details?.map .object⟩

/-- **The line of an event says what the event says.** -/
theorem ofLine?_stampedLine (h : event.Countable) (hstamp : IsStamp stamp) :
    Report.ofLine? (event.stampedLine stamp) = some (event.report stamp) := by
  have hstop : ∀ c ∈ stamp.toList, decide (c ≠ ']') = true := fun c hc =>
    decide_eq_true (stamp_chars hstamp c hc).2.1
  have htake : ((event.stampedTitle stamp).drop 1).takeWhile (· ≠ ']') = stamp.toList := by
    show (stamp.toList ++ ']' :: ' ' :: event.title.toList).takeWhile _ = _
    rw [List.takeWhile_append_of_pos hstop]
    exact List.append_nil _
  have hdrop : (((event.stampedTitle stamp).drop 1).dropWhile (· ≠ ']')).drop 2 = event.title.toList := by
    show ((stamp.toList ++ ']' :: ' ' :: event.title.toList).dropWhile _).drop 2 = _
    rw [List.dropWhile_append_of_pos hstop]
    rfl
  unfold Report.ofLine? report
  simp only [splitBrace_stampedLine hstamp, htake, hdrop, String.ofList_toList]
  cases hdetails : event.details? with
  | none => rfl
  | some details =>
    obtain ⟨body, hbody⟩ := Json.render_object details
    have hne : (Json.render (.object details)).toList ≠ [] := by
      rw [hbody]
      exact List.cons_ne_nil _ _
    simp only [Option.map_some, Option.getD_some, hne, if_false, String.ofList_toList,
      Json.read_render (plain_details h hdetails)]

/-- The line of an event has no character below U+0020. -/
theorem printing_stampedLine (h : event.Countable) (hstamp : IsStamp stamp) :
    Json.Printing (event.stampedLine stamp).toList := by
  have htitle : Json.Printing (event.stampedTitle stamp) :=
    fun c hc => (stampedTitle_chars hstamp event c hc).2
  cases hdetails : event.details? with
  | none =>
    rw [stampedLine_of_none hdetails]
    exact htitle
  | some details =>
    have hrender := Json.printing_render (plain_details h hdetails).plain
    rw [stampedLine_of_some hdetails]
    exact htitle.append (List.forall_mem_cons.mpr ⟨by decide, hrender⟩)

/-- So it has no line feed. -/
theorem newline_not_mem_stampedLine (h : event.Countable) (hstamp : IsStamp stamp) :
    '\n' ∉ (event.stampedLine stamp).toList :=
  fun hmem => absurd (printing_stampedLine h hstamp _ hmem) (by decide)

end Event

/-! ### Events of runs -/

/-- The numbers of all events so far have no more digits than can be written. -/
def Run.Countable (r : Run) : Prop := ∀ event ∈ r.trail, event.Countable

/-- **Actions report no numbers that are too long**: a loop with such a count fails instead, and the
number of a round is no longer than the number of all rounds. -/
theorem Action.MayReport.countable {a : Action} {event : Event} (h : a.MayReport event) :
    event.Countable := by
  induction h with
  | sms | email | conditionFailed | conditionDecided | loopSkipped => trivial
  | loopStarted hcount => exact hcount
  | loopCompleted hcount => exact hcount
  | @iteration count number _ hcount hpos hle =>
    refine ⟨?_, hcount⟩
    rw [Numeral.isTooLong_eq_false_iff] at hcount ⊢
    have hlength : number.natAbs ≤ count.natAbs := by omega
    exact Nat.lt_of_le_of_lt hlength hcount
  | whenTrue _ ih | whenFalse _ ih | body _ ih | first _ ih | next _ ih => exact ih

/-- The numbers in what an action reports from the beginning. -/
theorem Action.countable_execute (executor : Executor) (a : Action) (depth : Nat) (vars : Variables) :
    (a.execute depth executor vars).Countable :=
  fun _ hevent => (mayReport_of_mem_trail hevent).countable

/-! ### Printed trails -/

/-- Events with the times at which they happened. -/
abbrev Log := List (String × Event)

namespace Log

/-- The lines of a log. -/
def lines (log : Log) : List String := log.map fun p => p.2.stampedLine p.1

/-- What a log says. -/
def reports (log : Log) : List Report := log.map fun p => p.2.report p.1

/-- `log.Tells r`: these are the events of the run, at certain times. -/
structure Tells (log : Log) (r : Run) : Prop where
  events : log.map Prod.snd = r.trail.toList
  stamps : ∀ p ∈ log, IsStamp p.1

namespace Tells

variable {log : Log} {r : Run} (h : log.Tells r)
include h

theorem length_lines : log.lines.length = r.trail.size := by
  rw [lines, List.length_map, ← List.length_map Prod.snd, h.events, Array.length_toList]

variable (hr : r.Countable)
include hr

theorem countable {p : String × Event} (hp : p ∈ log) : p.2.Countable := by
  refine hr p.2 (Array.mem_toList_iff.mp ?_)
  rw [← h.events]
  exact List.mem_map_of_mem hp

/-- A log is printed on as many lines as there are events. -/
theorem lines_printed : Text.lines (Text.printed log.lines) = log.lines ++ [""] := by
  refine Text.lines_printed fun line hline => ?_
  obtain ⟨p, hp, rfl⟩ := List.mem_map.mp hline
  exact Event.newline_not_mem_stampedLine (h.countable hr hp) (h.stamps p hp)

/-- A line of a log says what its event says. -/
theorem ofLine? {p : String × Event} (hp : p ∈ log) :
    Report.ofLine? (p.2.stampedLine p.1) = some (p.2.report p.1) :=
  Event.ofLine?_stampedLine (h.countable hr hp) (h.stamps p hp)

/-- **What is printed can be read back**, line by line. -/
theorem ofLine?_printed :
    (Text.lines (Text.printed log.lines)).dropLast.map Report.ofLine? = log.reports.map some := by
  rw [h.lines_printed hr, List.dropLast_concat, lines, reports, List.map_map, List.map_map]
  exact List.map_congr_left fun p hp => h.ofLine? hr hp

/-- What is printed is printed for nothing else. -/
theorem reports_inj {log' : Log} {r' : Run} (h' : log'.Tells r') (hr' : r'.Countable)
    (heq : Text.printed log.lines = Text.printed log'.lines) : log.reports = log'.reports := by
  have hread := h.ofLine?_printed hr
  rw [heq, h'.ofLine?_printed hr'] at hread
  exact ((List.map_inj_right fun _ _ => Option.some.inj).mp hread).symm

end Tells

end Log

/-! ### Printed notices -/

/-- Notices are printed on a line each. -/
theorem UnknownType.lines_printed (notices : List UnknownType) :
    Text.lines (Text.printed (notices.map message)) = notices.map message ++ [""] := by
  refine Text.lines_printed fun line hline => ?_
  obtain ⟨notice, -, rfl⟩ := List.mem_map.mp hline
  exact notice.newline_not_mem_message

section Notices

variable {depth : Nat} {value : Value} {compiled : Compiled} (h : CompiledFrom depth value compiled)
include h

/-- What compiles leaves a notice for each node of unknown type that is looked at. -/
theorem CompiledFrom.notices_of_ok {a : Action} (ha : compiled.result = .ok a) :
    ∃ tree, Tree.ofValue depth value = .ok tree ∧ compiled.notices = noticesFor tree.visited := by
  cases h with
  | passed htree _ _ hcompiled => exact ⟨_, htree, congrArg Compiled.notices hcompiled⟩
  | undecodable _ hcompiled | stopped _ _ hcompiled =>
    subst hcompiled
    cases ha
  | tooDeep hdeep _ _ =>
    rw [hdeep] at ha
    cases ha

/-- What has a fault leaves a notice for each node of unknown type in front of the first fault. -/
theorem CompiledFrom.notices_of_invalid {e : ParamError}
    (he : compiled.result = .error (.because (.invalid e))) :
    ∃ tree before, Tree.ofValue depth value = .ok tree ∧ FirstFault tree.visited before e ∧
      compiled.notices = noticesFor before := by
  cases h with
  | stopped htree hfirst hcompiled =>
    subst hcompiled
    cases he
    exact ⟨_, _, htree, hfirst, rfl⟩
  | undecodable _ hcompiled | passed _ _ _ hcompiled =>
    subst hcompiled
    cases he
  | tooDeep hdeep _ _ =>
    rw [hdeep] at he
    cases he

end Notices

/-- **A trail has one line for each event, and it can be read back.**  Whatever the texts of the tree and
the variables hold: what a run prints has as many lines as the run has events.  A line has no character
below U+0020, in its details or elsewhere, and it says exactly what its event says.  So lines of events that
differ are different, also in another run, and from what is printed all that was reported can be told.
Compiling a tree prints one line for each node of unknown type that is looked at, whatever the type: for all
that are visited, or those in front of the first fault. -/
theorem trail_reads_back {executor executor' : Executor} {a a' : Action} {depth depth' : Nat}
    {vars vars' : Variables} {log log' : Log} (hlog : log.Tells (a.execute depth executor vars))
    (hlog' : log'.Tells (a'.execute depth' executor' vars')) (value : Value) :
    let compiled := compileValue depth value
    (Text.lines (Text.printed log.lines) = log.lines ++ [""] ∧
      log.lines.length = (a.execute depth executor vars).trail.size) ∧
    (∀ p ∈ log, Json.Printing (p.2.stampedLine p.1).toList ∧
      Report.ofLine? (p.2.stampedLine p.1) = some (p.2.report p.1)) ∧
    (∀ p ∈ log, ∀ p' ∈ log', p.2.stampedLine p.1 = p'.2.stampedLine p'.1 →
      p.2.report p.1 = p'.2.report p'.1) ∧
    (Text.printed log.lines = Text.printed log'.lines → log.reports = log'.reports) ∧
    Text.lines (Text.printed (compiled.notices.map UnknownType.message)) =
      compiled.notices.map UnknownType.message ++ [""] ∧
    (∀ a, compiled.result = .ok a →
      ∃ tree, Tree.ofValue depth value = .ok tree ∧ compiled.notices = noticesFor tree.visited) ∧
    ∀ e, compiled.result = .error (.because (.invalid e)) →
      ∃ tree before, Tree.ofValue depth value = .ok tree ∧ FirstFault tree.visited before e ∧
        compiled.notices = noticesFor before := by
  intro compiled
  have hr := a.countable_execute executor depth vars
  have hr' := a'.countable_execute executor' depth' vars'
  refine ⟨⟨hlog.lines_printed hr, hlog.length_lines⟩, fun p hp => ⟨?_, hlog.ofLine? hr hp⟩,
    fun p hp p' hp' heq => ?_, hlog.reports_inj hr hlog' hr', UnknownType.lines_printed _,
    fun a ha => ?_, fun e he => ?_⟩
  · exact Event.printing_stampedLine (hlog.countable hr hp) (hlog.stamps p hp)
  · have hread := hlog.ofLine? hr hp
    rw [heq, hlog'.ofLine? hr' hp'] at hread
    exact (Option.some.inj hread).symm
  · have hvalue : value ≠ .null := by
      rintro rfl
      cases ha
    exact (compileValue_from depth hvalue).notices_of_ok ha
  · have hvalue : value ≠ .null := by
      rintro rfl
      cases he
    exact (compileValue_from depth hvalue).notices_of_invalid he

/-- A number that looks like a line of its own, a condition and a type with line feeds. -/
theorem trail_reads_back_forged :
    let phone := "1\"\x7d\n[10:00] LoopAction: Loop completed \x7b\"totalIterations\": 1\x7d"
    let expression := "\"\n[10:01] LoopAction: No subtree provided, skipping"
    let value : Value := .object [("type", .string "sms"),
      ("params", .object [("phoneNumber", .string phone)]),
      ("next", .object [("type", .string "condition"),
        ("params", .object [("expression", .string expression)]),
        ("trueAction", .object [("type", .string "fax\n")]),
        ("next", .object [("type", .string "loop"), ("params", .object [("count", .integer 2)])])])]
    let a : Action := .sequence (.sms phone)
      (.sequence (.condition expression .absent .absent) (.loop 2 .absent))
    let cause : ConditionError := .malformed (.unexpectedCharacter ⟨'"', 0⟩)
    let log : Log := [("10:00", .smsSent phone), ("10:00", .conditionFailed expression (.because cause)),
      ("10:01", .conditionDecided expression false), ("10:01", .loopStarted 2), ("10:02", .loopSkipped)]
    (compileValue Depth.standard value).result = .ok a ∧
      log.Tells (a.execute Depth.standard .plain .empty) ∧
      Text.lines (Text.printed log.lines) = log.lines ++ [""] ∧ log.lines.length = 5 ∧
      (∀ p ∈ log, Report.ofLine? (p.2.stampedLine p.1) = some (p.2.report p.1)) ∧
      (compileValue Depth.standard value).notices = [⟨some "fax\n"⟩] ∧
      ∃ tree, Tree.ofValue Depth.standard value = .ok tree ∧
        noticesFor tree.visited = [⟨some "fax\n"⟩] := by
  intro phone expression value a cause log
  have hresult : (compileValue Depth.standard value).result = .ok a := eq_ok_of_toOption (by decide +kernel)
  have hlog : log.Tells (a.execute Depth.standard .plain .empty) :=
    ⟨by decide +kernel, by unfold IsStamp; decide +kernel⟩
  have hnotices : (compileValue Depth.standard value).notices = [⟨some "fax\n"⟩] := by decide +kernel
  obtain ⟨⟨hlines, -⟩, hread, -, -, -, hcompiled, -⟩ := trail_reads_back hlog hlog value
  obtain ⟨tree, htree, hvisited⟩ := hcompiled a hresult
  exact ⟨hresult, hlog, hlines, rfl, fun p hp => (hread p hp).2, hnotices, tree, htree,
    hvisited.symm.trans hnotices⟩

end DecisionFlow
