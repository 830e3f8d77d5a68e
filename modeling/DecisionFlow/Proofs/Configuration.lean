import DecisionFlow.Proofs.Covering
import DecisionFlow.Proofs.Numbers
import DecisionFlow.Settings
import DecisionFlow.Text.Lines
import Mathlib.Data.List.Induction
import Mathlib.Data.List.TakeWhile
import Mathlib.Data.Nat.Digits.Defs

/-!
# Reading the settings

The settings are read from any environment, once as a record and once by name, and the two readings
agree.  What is accepted as a port is told here by the form of the text and the value of its digits,
without a reader.

* `Text.Strips` — a text without the white space at its ends; `Text.strips_iff` says that trimming
  finds it;
* `Numeral.Groups` — digits in groups, with single underscores between the groups;
* `Numeral.Denotes` — the texts of an integer, by sign, groups and place values;
  `Numeral.read?_eq_some_iff` says that exactly these are read;
* `Numeral.Varies` — the decimal text of an integer, with white space, zeros and underscores added;
* `Settings.entries` — settings by name;
* `settings_of_environment` — all this for the settings of an environment.
-/

namespace DecisionFlow

/-! ### White space at the ends -/

namespace Text

/-- A text without white space at its ends. -/
structure Stripped (cs : List Char) : Prop where
  head : ∀ c ∈ cs.head?, isBlank c = false
  last : ∀ c ∈ cs.getLast?, isBlank c = false

/-- `Strips cs core`: the core is stripped, and in the text only white space stands around it. -/
def Strips (cs core : List Char) : Prop :=
  Stripped core ∧
    ∃ front back, cs = front ++ (core ++ back) ∧ front.all isBlank = true ∧ back.all isBlank = true

theorem dropBlankEnd_cons_of_ne_nil (c : Char) {cs : List Char} (h : dropBlankEnd cs ≠ []) :
    dropBlankEnd (c :: cs) = c :: dropBlankEnd cs := by
  rw [dropBlankEnd]
  split
  · exact absurd ‹_› h
  · rfl

theorem dropBlankEnd_cons_of_nil (c : Char) {cs : List Char} (h : dropBlankEnd cs = []) :
    dropBlankEnd (c :: cs) = if isBlank c then [] else [c] := by
  rw [dropBlankEnd, h]

/-- White space at the end is dropped. -/
theorem dropBlankEnd_append {core back : List Char} (hlast : ∀ c ∈ core.getLast?, isBlank c = false)
    (hback : back.all isBlank = true) : dropBlankEnd (core ++ back) = core := by
  induction core with
  | nil => exact (dropBlankEnd_eq_nil_iff back).mpr hback
  | cons c rest ih =>
    cases rest with
    | nil =>
      have hc : isBlank c = false := hlast c rfl
      rw [List.singleton_append, dropBlankEnd_cons_of_nil c ((dropBlankEnd_eq_nil_iff back).mpr hback),
        hc]
      rfl
    | cons d rest =>
      have hrest : dropBlankEnd (d :: rest ++ back) = d :: rest := ih hlast
      rw [List.cons_append, dropBlankEnd_cons_of_ne_nil c (by rw [hrest]; exact List.cons_ne_nil d rest),
        hrest]

/-- What is dropped at the end is white space, and none remains there. -/
theorem exists_dropBlankEnd (cs : List Char) :
    (∃ back, cs = dropBlankEnd cs ++ back ∧ back.all isBlank = true) ∧
      ∀ c ∈ (dropBlankEnd cs).getLast?, isBlank c = false := by
  induction cs with
  | nil => exact ⟨⟨[], rfl, rfl⟩, nofun⟩
  | cons c rest ih =>
    obtain ⟨⟨back, hrest, hback⟩, hlast⟩ := ih
    by_cases hnil : dropBlankEnd rest = []
    · have hblank := (dropBlankEnd_eq_nil_iff rest).mp hnil
      rw [dropBlankEnd_cons_of_nil c hnil]
      cases hc : isBlank c with
      | true => exact ⟨⟨c :: rest, rfl, by rw [List.all_cons, hc, hblank]; rfl⟩, nofun⟩
      | false =>
        refine ⟨⟨rest, rfl, hblank⟩, ?_⟩
        rintro _ ⟨⟩
        exact hc
    · rw [dropBlankEnd_cons_of_ne_nil c hnil]
      refine ⟨⟨back, by rw [List.cons_append, ← hrest], hback⟩, ?_⟩
      obtain ⟨d, more, hkept⟩ := List.exists_cons_of_ne_nil hnil
      rw [hkept] at hlast ⊢
      rwa [List.getLast?_cons_cons]

/-- **Trimming strips a text**, and there is only one way to strip it. -/
theorem strips_iff {cs core : List Char} : Strips cs core ↔ core = trimChars cs := by
  constructor
  · rintro ⟨⟨hhead, hlast⟩, front, back, rfl, hfront, hback⟩
    unfold trimChars
    rw [List.dropWhile_append_of_pos (List.all_eq_true.mp hfront)]
    cases core with
    | nil =>
      rw [List.nil_append, List.dropWhile_eq_nil_iff.mpr (List.all_eq_true.mp hback)]
      rfl
    | cons c core =>
      have hkept : (c :: core ++ back).dropWhile isBlank = c :: core ++ back :=
        dropWhile_eq_self_of_head? hhead
      rw [hkept, dropBlankEnd_append hlast hback]
  · rintro rfl
    unfold trimChars
    obtain ⟨⟨back, hrest, hback⟩, hlast⟩ := exists_dropBlankEnd (cs.dropWhile isBlank)
    refine ⟨⟨fun c hc => ?_, hlast⟩, cs.takeWhile isBlank, back, ?_, List.all_takeWhile, hback⟩
    · -- the first character that is kept is the first that is not white space
      have hhead : c ∈ (cs.dropWhile isBlank).head? := by
        rw [hrest, List.head?_append, Option.mem_def.mp hc]
        rfl
      exact Lexeme.head?_dropWhile c hhead
    · rw [← hrest, List.takeWhile_append_dropWhile]

theorem strips_trim (s : String) : Strips s.toList (trim s).toList := by
  rw [trim, String.toList_ofList]
  exact strips_iff.mpr rfl

theorem isBlankText_iff_strips {s : String} : isBlankText s = true ↔ Strips s.toList [] := by
  constructor
  · exact fun h => ⟨⟨nofun, nofun⟩, [], s.toList, rfl, rfl, h⟩
  · rintro ⟨-, front, back, hs, hfront, hback⟩
    rw [isBlankText, hs, List.nil_append, List.all_append, hfront, hback]
    rfl

/-- A text is blank exactly if nothing of it is left. -/
theorem trim_eq_empty_iff {s : String} : trim s = "" ↔ isBlankText s = true := by
  rw [isBlankText_iff_strips, strips_iff, trim, String.ofList_eq_empty_iff, eq_comm]

end Text

/-! ### Numerals -/

namespace Numeral

/-- `Groups cs digits`: the text consists of these digits, in groups that are not empty, with one
underscore between each two groups. -/
def Groups (cs digits : List Char) : Prop :=
  ∃ groups : List (List Char), groups ≠ [] ∧ (∀ group ∈ groups, group ≠ []) ∧
    groups.flatten = digits ∧ ['_'].intercalate groups = cs

namespace Groups

theorem single (c : Char) : Groups [c] [c] := ⟨[[c]], by simp, by simp, rfl, by simp⟩

/-- One more digit in front, in the first group. -/
theorem digit (c : Char) {cs digits : List Char} (h : Groups cs digits) :
    Groups (c :: cs) (c :: digits) := by
  obtain ⟨groups, hne, hgroups, rfl, rfl⟩ := h
  obtain ⟨first, rest, rfl⟩ := List.exists_cons_of_ne_nil hne
  obtain ⟨-, hrest⟩ := List.forall_mem_cons.mp hgroups
  refine ⟨(c :: first) :: rest, List.cons_ne_nil _ _,
    List.forall_mem_cons.mpr ⟨List.cons_ne_nil c first, hrest⟩, rfl, ?_⟩
  cases rest with
  | nil => rfl
  | cons second rest => rw [List.intercalate_cons_cons, List.intercalate_cons_cons]; rfl

/-- One more digit in front, in a group of its own. -/
theorem underscore (c : Char) {cs digits : List Char} (h : Groups cs digits) :
    Groups (c :: '_' :: cs) (c :: digits) := by
  obtain ⟨groups, hne, hgroups, rfl, rfl⟩ := h
  obtain ⟨first, rest, rfl⟩ := List.exists_cons_of_ne_nil hne
  refine ⟨[c] :: first :: rest, List.cons_ne_nil _ _,
    List.forall_mem_cons.mpr ⟨List.cons_ne_nil c [], hgroups⟩, rfl, ?_⟩
  rw [List.intercalate_cons_cons]
  rfl

/-- The first digit stands alone, or more follow it, in its group or in the next one. -/
theorem cases_first {cs digits : List Char} (h : Groups cs digits) :
    ∃ c, (cs = [c] ∧ digits = [c]) ∨
      ∃ cs' digits', digits = c :: digits' ∧ Groups cs' digits' ∧
        (cs = c :: cs' ∨ cs = c :: '_' :: cs') := by
  obtain ⟨groups, hne, hgroups, rfl, rfl⟩ := h
  obtain ⟨first, rest, rfl⟩ := List.exists_cons_of_ne_nil hne
  obtain ⟨hfirst, hrest⟩ := List.forall_mem_cons.mp hgroups
  obtain ⟨c, first, rfl⟩ := List.exists_cons_of_ne_nil hfirst
  refine ⟨c, ?_⟩
  cases first with
  | cons d first =>
    refine .inr ⟨_, _, rfl, ⟨(d :: first) :: rest, List.cons_ne_nil _ _,
      List.forall_mem_cons.mpr ⟨List.cons_ne_nil d first, hrest⟩, rfl, rfl⟩, .inl ?_⟩
    cases rest with
    | nil => rfl
    | cons second rest => rw [List.intercalate_cons_cons, List.intercalate_cons_cons]; rfl
  | nil =>
    cases rest with
    | nil => exact .inl ⟨rfl, rfl⟩
    | cons second rest =>
      refine .inr ⟨_, _, rfl, ⟨second :: rest, List.cons_ne_nil _ _, hrest, rfl, rfl⟩, .inr ?_⟩
      rw [List.intercalate_cons_cons]
      rfl

/-- A text in groups begins with its first digit. -/
theorem exists_first {cs digits : List Char} (h : Groups cs digits)
    (hdigits : ∀ c ∈ digits, Text.isDigit c = true) :
    ∃ c rest, cs = c :: rest ∧ Text.isDigit c = true := by
  obtain ⟨c, ⟨rfl, rfl⟩ | ⟨cs', digits', rfl, -, rfl | rfl⟩⟩ := h.cases_first <;>
    exact ⟨c, _, rfl, hdigits c List.mem_cons_self⟩

/-- A text in groups ends with its last digit. -/
theorem getLast? {cs digits : List Char} (h : Groups cs digits) :
    cs.getLast? = digits.getLast? ∧ digits ≠ [] := by
  induction digits generalizing cs with
  | nil =>
    obtain ⟨c, ⟨-, hnil⟩ | ⟨_, _, hnil, -⟩⟩ := h.cases_first <;> cases hnil
  | cons c digits ih =>
    refine ⟨?_, List.cons_ne_nil c digits⟩
    obtain ⟨c', ⟨rfl, hfirst⟩ | ⟨cs', digits', hfirst, hrest, hcs⟩⟩ := h.cases_first
    · rw [hfirst]
    · cases hfirst
      obtain ⟨hlast, hne⟩ := ih hrest
      obtain ⟨d, more, rfl⟩ := List.exists_cons_of_ne_nil hne
      rcases hcs with rfl | rfl
      · rw [List.getLast?_cons, List.getLast?_cons_cons, hlast, List.getLast?_cons]
        rfl
      · rw [List.getLast?_cons_cons, List.getLast?_cons, List.getLast?_cons_cons, hlast,
          List.getLast?_cons]
        rfl

end Groups

/-- The digits of a text in groups are found. -/
theorem digits?_of_groups {cs digits : List Char} (h : Groups cs digits)
    (hdigits : ∀ c ∈ digits, Text.isDigit c = true) : digits? cs = some digits := by
  induction digits generalizing cs with
  | nil =>
    obtain ⟨c, ⟨-, hnil⟩ | ⟨_, _, hnil, -⟩⟩ := h.cases_first <;> cases hnil
  | cons c digits ih =>
    obtain ⟨hc, hmore⟩ := List.forall_mem_cons.mp hdigits
    obtain ⟨c', ⟨rfl, hfirst⟩ | ⟨cs', digits', hfirst, hrest, hcs⟩⟩ := h.cases_first
    · cases hfirst
      rw [digits?, if_pos hc]
    · cases hfirst
      have hread := ih hrest hmore
      rcases hcs with rfl | rfl
      · -- the next character is a digit, so no underscore
        obtain ⟨d, more, rfl, hd⟩ := hrest.exists_first hmore
        have hne : d ≠ '_' := by
          rintro rfl
          cases hd
        rw [digits?, if_pos hc, if_neg hne, hread]
        rfl
      · rw [digits?, if_pos hc, if_pos rfl, hread]
        rfl

/-- Digits are found only in groups. -/
theorem groups_of_digits? {cs digits : List Char} (h : digits? cs = some digits) :
    Groups cs digits ∧ ∀ c ∈ digits, Text.isDigit c = true := by
  fun_induction digits? cs generalizing digits with
  | case1 => cases h
  | case2 c hc =>
    cases h
    exact ⟨.single c, List.forall_mem_singleton.mpr hc⟩
  | case3 => cases h
  | case4 c d rest hc ihrest ihmore =>
    obtain ⟨more, hmore, rfl⟩ := Option.map_eq_some_iff.mp h
    split at hmore
    · rename_i hd
      subst hd
      obtain ⟨hgroups, hdigits⟩ := ihrest hmore
      exact ⟨hgroups.underscore c, List.forall_mem_cons.mpr ⟨hc, hdigits⟩⟩
    · obtain ⟨hgroups, hdigits⟩ := ihmore hmore
      exact ⟨hgroups.digit c, List.forall_mem_cons.mpr ⟨hc, hdigits⟩⟩
  | case5 => cases h

/-- `Magnitude cs n`: the text is a numeral of at most as many digits as integers may have, and `n` is
the sum of the values of its digits, each by its place. -/
def Magnitude (cs : List Char) (n : Nat) : Prop :=
  ∃ (digits : List Char) (values : List Nat), Groups cs digits ∧ digits.map Text.digitValue? = values.map some ∧
    values.length ≤ maxDigits ∧ n = Nat.ofDigits 10 values.reverse

/-- `Denotes cs n`: the text is a numeral with or without a sign, and stands for the integer. -/
inductive Denotes : List Char → Int → Prop where
  | unsigned {cs : List Char} {n : Nat} : Magnitude cs n → Denotes cs n
  | plus {cs : List Char} {n : Nat} : Magnitude cs n → Denotes ('+' :: cs) n
  | minus {cs : List Char} {n : Nat} : Magnitude cs n → Denotes ('-' :: cs) (-n)

theorem exists_values {digits : List Char} (h : ∀ c ∈ digits, Text.isDigit c = true) :
    ∃ values : List Nat, digits.map Text.digitValue? = values.map some := by
  induction digits with
  | nil => exact ⟨[], rfl⟩
  | cons c digits ih =>
    obtain ⟨hc, hmore⟩ := List.forall_mem_cons.mp h
    obtain ⟨values, hvalues⟩ := ih hmore
    obtain ⟨value, hvalue⟩ := Option.isSome_iff_exists.mp hc
    exact ⟨value :: values, by rw [List.map_cons, List.map_cons, hvalue, hvalues]⟩

/-- The first digit of a numeral has the highest place. -/
theorem numeralValue_eq_ofDigits (values : List Nat) :
    Text.numeralValue values = Nat.ofDigits 10 values.reverse := by
  induction values using List.reverseRecOn with
  | nil => rfl
  | append_singleton values value ih =>
    rw [Text.numeralValue_append, ih, List.reverse_concat, Nat.ofDigits_cons, Nat.add_comm,
      Nat.mul_comm]
    simp [Text.numeralValue]

section Values

variable {digits : List Char} {values : List Nat} (h : digits.map Text.digitValue? = values.map some)
include h

theorem isDigit_of_values : ∀ c ∈ digits, Text.isDigit c = true := by
  intro c hc
  have hvalue : Text.digitValue? c ∈ values.map some := h ▸ List.mem_map_of_mem hc
  obtain ⟨value, -, hvalue⟩ := List.mem_map.mp hvalue
  rw [Text.isDigit, ← hvalue]
  rfl

theorem length_values : digits.length = values.length := by
  simpa using congrArg List.length h

theorem digitsValue_of_values : Text.digitsValue digits = Nat.ofDigits 10 values.reverse := by
  have hvalues : digits.map (fun c => (Text.digitValue? c).getD 0) = values := by
    have hmap := congrArg (List.map fun value? : Option Nat => value?.getD 0) h
    rw [List.map_map, List.map_map] at hmap
    exact hmap.trans (List.map_id values)
  rw [Text.digitsValue_eq, hvalues, numeralValue_eq_ofDigits]

end Values

theorem natural?_eq_some_iff {cs : List Char} {n : Nat} :
    natural? cs = some n ↔ Magnitude cs n := by
  unfold natural?
  constructor
  · intro h
    split at h
    · rename_i digits hread
      obtain ⟨hgroups, hdigits⟩ := groups_of_digits? hread
      obtain ⟨values, hvalues⟩ := exists_values hdigits
      split at h
      · rename_i hlength
        rw [length_values hvalues] at hlength
        rw [digitsValue_of_values hvalues] at h
        exact ⟨digits, values, hgroups, hvalues, hlength, (Option.some.inj h).symm⟩
      · cases h
    · cases h
  · rintro ⟨digits, values, hgroups, hvalues, hlength, rfl⟩
    rw [← length_values hvalues] at hlength
    rw [digits?_of_groups hgroups (isDigit_of_values hvalues), ← digitsValue_of_values hvalues]
    exact if_pos hlength

/-- A numeral without a sign begins with a digit. -/
theorem Magnitude.exists_first {cs : List Char} {n : Nat} (h : Magnitude cs n) :
    ∃ c rest, cs = c :: rest ∧ Text.isDigit c = true := by
  obtain ⟨digits, values, hgroups, hvalues, -⟩ := h
  exact hgroups.exists_first (isDigit_of_values hvalues)

/-- **The texts that are read as integers** are those that stand for one. -/
theorem read?_eq_some_iff {s : String} {n : Int} : read? s = some n ↔ Denotes s.toList n := by
  unfold read?
  generalize s.toList = cs
  constructor
  · intro h
    split at h <;> obtain ⟨magnitude, hread, rfl⟩ := Option.map_eq_some_iff.mp h
    · exact .minus (natural?_eq_some_iff.mp hread)
    · exact .plus (natural?_eq_some_iff.mp hread)
    · exact .unsigned (natural?_eq_some_iff.mp hread)
  · rintro (hunsigned | hplus | hminus)
    · obtain ⟨c, rest, rfl, hc⟩ := hunsigned.exists_first
      rw [← natural?_eq_some_iff] at hunsigned
      -- no sign is a digit, so the third case of reading is the one at hand
      split
      · rename_i heq
        cases heq
        cases hc
      · rename_i heq
        cases heq
        cases hc
      · rw [hunsigned]
        rfl
    · simp only [natural?_eq_some_iff.mpr hplus]
      rfl
    · simp only [natural?_eq_some_iff.mpr hminus]
      rfl

/-! ### Decimal texts with more characters -/

/-- `Varies n cs`: the decimal text of an integer, with any white space around it, zeros in front of its
digits and single underscores between them. -/
def Varies (n : Int) (cs : List Char) : Prop :=
  ∃ (zeros : Nat) (body front back : List Char),
    Groups body (List.replicate zeros '0' ++ Decimal.digitChars n.natAbs) ∧
    zeros + (Decimal.digitChars n.natAbs).length ≤ maxDigits ∧
    front.all Text.isBlank = true ∧ back.all Text.isBlank = true ∧
    cs = front ++ (NumberFormat.withSign (n < 0) body ++ back)

/-- Zeros in front of its digits do not change a number. -/
theorem digitsValue_zeros (zeros n : Nat) :
    Text.digitsValue (List.replicate zeros '0' ++ Decimal.digitChars n) = n := by
  have hzeros : Text.numeralValue (List.replicate zeros 0) = 0 := by
    induction zeros with
    | zero => rfl
    | succ zeros ih => rw [List.replicate_succ', Text.numeralValue_append, ih]; rfl
  have hvalue : (Text.digitValue? '0').getD 0 = 0 := rfl
  have hdigits := Decimal.digitsValue_digitChars n
  rw [Text.digitsValue_eq] at hdigits ⊢
  rw [List.map_append, List.map_replicate, hvalue, Text.numeralValue_append, hzeros, hdigits,
    Nat.zero_mul, Nat.zero_add]

theorem magnitude_of_zeros {zeros n : Nat} {body : List Char}
    (hbody : Groups body (List.replicate zeros '0' ++ Decimal.digitChars n))
    (hlength : zeros + (Decimal.digitChars n).length ≤ maxDigits) : Magnitude body n := by
  have hdigits : ∀ c ∈ List.replicate zeros '0' ++ Decimal.digitChars n, Text.isDigit c = true := by
    intro c hc
    rcases List.mem_append.mp hc with hzero | hdigit
    · rw [List.eq_of_mem_replicate hzero]
      rfl
    · exact Text.isDigit_of_isDigit (Decimal.isDigit_digitChars hdigit)
  obtain ⟨values, hvalues⟩ := exists_values hdigits
  refine ⟨_, values, hbody, hvalues, ?_, ?_⟩
  · rw [← length_values hvalues, List.length_append, List.length_replicate]
    exact hlength
  · rw [← digitsValue_of_values hvalues, digitsValue_zeros]

/-- A numeral, with a minus sign or without a sign, has no white space at its ends. -/
theorem stripped_withSign (negative : Bool) {body : List Char} {n : Nat} (h : Magnitude body n) :
    Text.Stripped (NumberFormat.withSign negative body) := by
  have hdigit {c : Char} (hc : Text.isDigit c = true) : Text.isBlank c = false := by
    cases hblank : Text.isBlank c with
    | false => rfl
    | true => exact absurd hc (by rw [Text.isDigit_of_isBlank hblank]; exact Bool.false_ne_true)
  obtain ⟨first, rest, hbody, hfirst⟩ := h.exists_first
  obtain ⟨digits, values, hgroups, hvalues, -⟩ := h
  have hlast : ∀ c ∈ body.getLast?, Text.isBlank c = false := fun c hc =>
    hdigit (isDigit_of_values hvalues c (List.mem_of_getLast? (hgroups.getLast?.1 ▸ hc)))
  subst hbody
  cases negative with
  | false =>
    refine ⟨?_, hlast⟩
    rintro _ ⟨⟩
    exact hdigit hfirst
  | true =>
    have hsigned : NumberFormat.withSign true (first :: rest) = '-' :: first :: rest := rfl
    rw [hsigned]
    refine ⟨?_, by rwa [List.getLast?_cons_cons]⟩
    rintro _ ⟨⟩
    rfl

theorem denotes_withSign {n : Int} {body : List Char} (h : Magnitude body n.natAbs) :
    Denotes (NumberFormat.withSign (n < 0) body) n := by
  unfold NumberFormat.withSign
  by_cases hn : n < 0
  · have hnatAbs : -(n.natAbs : Int) = n := by omega
    rw [if_pos (decide_eq_true hn)]
    exact hnatAbs ▸ Denotes.minus h
  · have hnatAbs : (n.natAbs : Int) = n := by omega
    rw [if_neg (by rw [decide_eq_true_eq]; exact hn)]
    exact hnatAbs ▸ Denotes.unsigned h

/-- **A decimal text stands for its integer**, whatever has been added to it. -/
theorem Varies.denotes {n : Int} {cs : List Char} (h : Varies n cs) :
    ∃ core, Text.Strips cs core ∧ Denotes core n := by
  obtain ⟨zeros, body, front, back, hbody, hlength, hfront, hback, rfl⟩ := h
  have hmagnitude := magnitude_of_zeros hbody hlength
  exact ⟨_, ⟨stripped_withSign _ hmagnitude, front, back, rfl, hfront, hback⟩,
    denotes_withSign hmagnitude⟩

end Numeral

/-! ### The settings of an environment -/

/-- Settings by name. -/
def Settings.entries (settings : Settings) : Entries Value :=
  [("port", .integer settings.port), ("host", .string settings.host),
    ("log_requests", .boolean settings.logRequests)]

/-- A notice stands on one line. -/
theorem InvalidPort.lines_message (notice : InvalidPort) :
    Text.lines notice.message = [notice.message] := by
  refine Text.lines_of_not_mem ?_
  have hfront : '\n' ∉ "Invalid PORT=".toList := by decide +kernel
  have hback : '\n' ∉ (Numeral.render Settings.standard.port).toList := by decide +kernel
  have hmiddle : '\n' ∉ ", falling back to ".toList := by decide +kernel
  simp only [InvalidPort.message, String.toList_append, List.mem_append, not_or]
  exact ⟨⟨⟨hfront, Text.newline_not_mem_quoted notice.text⟩, hmiddle⟩, hback⟩

namespace Environment

variable (env : Environment)

/-- An environment that says nothing of the port is read as one that asks for the standard port. -/
theorem reading_port :
    Reading.port (env.port.getD (Numeral.render Settings.standard.port)) =
      ⟨env.settings.port, env.notices⟩ := by
  unfold settings notices port? Reading.port
  cases env.port with
  | none =>
    have hstandard : Numeral.read? (Text.trim (Numeral.render Settings.standard.port)) =
        some Settings.standard.port := by decide +kernel
    simp only [Option.getD_none, hstandard]
  | some text => cases hread : Numeral.read? (Text.trim text) <;> simp only [Option.getD_some, hread]

/-- A blank host is read as one that is empty when it is trimmed. -/
theorem hostName_eq :
    env.hostName =
      if (Text.trim (env.host.getD Settings.standard.host)).isEmpty then Settings.standard.host
      else Text.trim (env.host.getD Settings.standard.host) := by
  unfold hostName
  cases env.host with
  | none => decide +kernel
  | some text => simp only [Option.getD_some, String.isEmpty_iff, Text.trim_eq_empty_iff]

theorem logsRequests_eq :
    env.logsRequests =
      Settings.yesWords.contains ((Text.trim (env.logRequests.getD "true")).map Char.toLower) := by
  unfold logsRequests
  cases env.logRequests with
  | none => decide +kernel
  | some text => rfl

/-- **The two readings agree.** -/
theorem table_eq : env.table = ⟨env.settings.entries, env.notices⟩ := by
  simp only [table, reading_port, ← hostName_eq, ← logsRequests_eq]
  rfl

/-- The host is not empty, and has no white space at its ends. -/
theorem stripped_hostName : env.hostName ≠ "" ∧ Text.Stripped env.hostName.toList := by
  have hstandard : Text.trim Settings.standard.host = Settings.standard.host := by decide +kernel
  have hstripped := (Text.strips_trim Settings.standard.host).1
  rw [hstandard] at hstripped
  rw [hostName_eq]
  split
  · exact ⟨by decide, hstripped⟩
  · rename_i hne
    exact ⟨mt String.isEmpty_iff.mpr hne, (Text.strips_trim _).1⟩

section Port

variable {env} {text : String} (htext : env.port = some text)
include htext

/-- A text that stands for an integer is read as it, and leaves no notice. -/
theorem port_of_denotes {n : Int} (h : Numeral.Denotes (Text.trim text).toList n) :
    env.settings.port = n ∧ env.notices = [] := by
  have hreading := env.reading_port
  rw [htext, Option.getD_some, Reading.port, Numeral.read?_eq_some_iff.mpr h] at hreading
  exact ⟨(congrArg Reading.result hreading).symm, (congrArg Reading.notices hreading).symm⟩

/-- Any other text leaves a notice and the standard port. -/
theorem port_of_not_denotes (h : ∀ n, ¬Numeral.Denotes (Text.trim text).toList n) :
    env.settings.port = Settings.standard.port ∧ env.notices = [⟨Text.trim text⟩] := by
  have hread : Numeral.read? (Text.trim text) = none :=
    Option.eq_none_iff_forall_ne_some.mpr fun n hn => h n (Numeral.read?_eq_some_iff.mp hn)
  have hreading := env.reading_port
  rw [htext, Option.getD_some, Reading.port, hread] at hreading
  exact ⟨(congrArg Reading.result hreading).symm, (congrArg Reading.notices hreading).symm⟩

/-- So no notice is left exactly where the port is the integer that the text stands for. -/
theorem port_iff (n : Int) :
    (env.settings.port = n ∧ env.notices = []) ↔ Numeral.Denotes (Text.trim text).toList n := by
  refine ⟨?_, port_of_denotes htext⟩
  rintro ⟨rfl, hnone⟩
  by_cases h : ∃ n, Numeral.Denotes (Text.trim text).toList n
  · obtain ⟨n, hn⟩ := h
    rwa [(port_of_denotes htext hn).1]
  · have hnotice := (port_of_not_denotes htext (not_exists.mp h)).2
    rw [hnone] at hnotice
    cases hnotice

end Port

end Environment

/-- **The settings of any environment.**  They are the same by name and as a record, with the same
notices.  The host is not empty and has no white space at its ends.  The port is the standard one if the
environment says nothing of it.  Otherwise it is the integer that the text, stripped, stands for; if it
stands for none, the standard port with a notice on one line.  So a decimal text is read as its integer,
whatever white space, zeros and underscores have been added to it. -/
theorem settings_of_environment (env : Environment) :
    (env.table.result = env.settings.entries ∧ env.table.notices = env.notices) ∧
    (env.settings.host ≠ "" ∧ Text.Stripped env.settings.host.toList) ∧
    (env.port = none → env.settings.port = 3000 ∧ env.notices = []) ∧
    ∀ text, env.port = some text →
      (∃ core, (∀ other, Text.Strips text.toList other ↔ other = core) ∧
        (∀ n, (env.settings.port = n ∧ env.notices = []) ↔ Numeral.Denotes core n) ∧
        ((∀ n, ¬Numeral.Denotes core n) → env.settings.port = 3000 ∧
          ∃ notice, env.notices = [notice] ∧ Text.lines notice.message = [notice.message])) ∧
      ∀ n, Numeral.Varies n text.toList → env.settings.port = n ∧ env.notices = [] := by
  refine ⟨?_, env.stripped_hostName, fun hnone => ?_, fun text htext => ?_⟩
  · rw [env.table_eq]
    exact ⟨rfl, rfl⟩
  · unfold Environment.settings Environment.notices Environment.port?
    simp only [hnone]
    exact ⟨rfl, trivial⟩
  · have hcore (other : List Char) : Text.Strips text.toList other ↔ other = (Text.trim text).toList := by
      rw [Text.strips_iff, Text.trim, String.toList_ofList]
    refine ⟨⟨(Text.trim text).toList, hcore, Environment.port_iff htext, fun h => ?_⟩, fun n hn => ?_⟩
    · obtain ⟨hport, hnotice⟩ := Environment.port_of_not_denotes htext h
      exact ⟨hport, _, hnotice, InvalidPort.lines_message _⟩
    · obtain ⟨core, hstrips, hdenotes⟩ := hn.denotes
      rw [(hcore core).mp hstrips] at hdenotes
      exact Environment.port_of_denotes htext hdenotes

/-- Seven below zero with white space, zeros and an underscore, a number in three scripts, and a text with
two underscores in a row. -/
theorem settings_of_environment_underscores :
    let varied : Environment := ⟨some "\u3000-0_07\n", some " \t", some "ON "⟩
    let mixed : Environment := ⟨some "+1\u0660_\uff14", none, some "off"⟩
    let doubled : Environment := ⟨some "1__0", some " ::1 ", none⟩
    Numeral.Varies (-7) "\u3000-0_07\n".toList ∧
    (varied.settings.port = -7 ∧ varied.notices = []) ∧
    varied.table.result =
      [("port", .integer (-7)), ("host", .string "0.0.0.0"), ("log_requests", .boolean true)] ∧
    mixed.settings.port = 104 ∧
    (∃ core, Text.Strips "+1\u0660_\uff14".toList core ∧ Numeral.Denotes core 104) ∧
    (∃ notice, doubled.notices = [notice] ∧ Text.lines notice.message = [notice.message]) ∧
    doubled.table.result = doubled.settings.entries := by
  intro varied mixed doubled
  have hgroups : Numeral.Groups ['0', '_', '0', '7']
      (List.replicate 2 '0' ++ Decimal.digitChars (-7 : Int).natAbs) :=
    ⟨[['0'], ['0', '7']], by decide, by decide, by decide, by decide⟩
  have hvaries : Numeral.Varies (-7) "\u3000-0_07\n".toList :=
    ⟨2, ['0', '_', '0', '7'], ['\u3000'], ['\n'], hgroups, by decide, by decide, by decide, by decide⟩
  obtain ⟨⟨htable, -⟩, -, -, hport⟩ := settings_of_environment varied
  have hvaried := (hport _ rfl).2 (-7) hvaries
  obtain ⟨-, -, -, hmixed⟩ := settings_of_environment mixed
  obtain ⟨core, hcore, hdenotes, -⟩ := (hmixed _ rfl).1
  obtain ⟨⟨hdoubled, -⟩, -, -, hport⟩ := settings_of_environment doubled
  obtain ⟨_, -, hdenotes', hnotice⟩ := (hport _ rfl).1
  have hnone (n : Int) : ¬(doubled.settings.port = n ∧ doubled.notices = []) := fun h =>
    absurd h.2 (by decide +kernel)
  have hread : mixed.settings.port = 104 ∧ mixed.notices = [] := by decide +kernel
  refine ⟨hvaries, hvaried, ?_, hread.1, ⟨core, (hcore core).mpr rfl, (hdenotes 104).mp hread⟩,
    (hnotice fun n hn => hnone n ((hdenotes' n).mpr hn)).2, hdoubled⟩
  rw [htable, Settings.entries, hvaried.1]
  have hhost : varied.settings.host = "0.0.0.0" := by decide +kernel
  have hlog : varied.settings.logRequests = true := by decide +kernel
  rw [hhost, hlog]

end DecisionFlow
