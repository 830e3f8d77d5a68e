import Mathlib.Tactic.SplitIfs
import DecisionFlow.Json.Reader
import DecisionFlow.Json.Writer
import DecisionFlow.Proofs.Numbers

/-!
# Rendered objects

An object of scalars is written on one line.  Whatever characters its strings hold, they stand there so
that nothing below U+0020 is left, and the line is read as the object that was written.

* `Json.readString_writeChars` — a string is read back, whatever comes after it;
* `Json.readNumber_digitChars` — so are the digits of a number, if no digit comes after them;
* `Json.Plain` — a boolean, a string, or an integer that has not too many digits;
* `Json.readFields_writeFields` — the fields of an object, by induction on them;
* `Json.PlainFields`, `Json.read_render` — an object of plain scalars is read back;
* `Json.printing_render` — its text has no character below U+0020.
-/

namespace DecisionFlow.Json

/-! ### Strings -/

/-- The letter behind a backslash stands for the character that it escapes, and is no `u`. -/
theorem unescapeLetter?_of_escapeLetter? {c letter : Char} (h : escapeLetter? c = some letter) :
    unescapeLetter? letter = some c ∧ letter ≠ 'u' := by
  have hcode {n : Nat} (hn : c.toNat = n) : some (Char.ofNat n) = some c := by
    rw [← hn, Char.ofNat_toNat]
  unfold escapeLetter? at h
  split_ifs at h with hquote hbackslash hfeed hreturn htab hbackspace hform
  all_goals cases h
  · exact ⟨congrArg some hquote.symm, by decide⟩
  · exact ⟨congrArg some hbackslash.symm, by decide⟩
  · exact ⟨congrArg some hfeed.symm, by decide⟩
  · exact ⟨congrArg some hreturn.symm, by decide⟩
  · exact ⟨congrArg some htab.symm, by decide⟩
  · exact ⟨hcode hbackspace, by decide⟩
  · exact ⟨hcode hform, by decide⟩

/-- The quote and the backslash have letters. -/
theorem ne_of_escapeLetter? {c : Char} (h : escapeLetter? c = none) : c ≠ '"' ∧ c ≠ '\\' := by
  constructor
  · rintro rfl
    cases h
  · rintro rfl
    cases h

/-- An escape by code is read as its character. -/
theorem readString_code {n : Nat} (hn : n < 0x20) (rest : List Char) :
    readString ('\\' :: 'u' :: (Text.hexDigits 4 n ++ rest)) =
      (readString rest).map fun p => (Char.ofNat n :: p.1, p.2) := by
  have hread : Text.readHex? (Text.hexDigits 4 n) = some n :=
    Text.readHex?_hexDigits 4 n (Nat.lt_trans hn (by decide))
  obtain ⟨a, b, c, d, hdigits⟩ : ∃ a b c d, Text.hexDigits 4 n = [a, b, c, d] := ⟨_, _, _, _, rfl⟩
  have hfirst : Text.isFirstHalf n = false := by
    unfold Text.isFirstHalf
    rw [Bool.and_eq_false_iff, decide_eq_false_iff_not]
    omega
  have hsecond : Text.isSecondHalf n = false := by
    unfold Text.isSecondHalf
    rw [Bool.and_eq_false_iff, decide_eq_false_iff_not]
    omega
  rw [hdigits] at hread ⊢
  show readString ('\\' :: 'u' :: a :: b :: c :: d :: rest) = _
  rw [readString, hread]
  simp only [Option.bind_eq_bind, Option.bind_some, hfirst, hsecond, Bool.false_eq_true, if_false]
  cases readString rest <;> rfl

/-- One escaped character is read back in front of more of the string. -/
theorem readString_escape (c : Char) (rest : List Char) :
    readString (escape c ++ rest) = (readString rest).map fun p => (c :: p.1, p.2) := by
  unfold escape
  cases hletter : escapeLetter? c with
  | some letter =>
    obtain ⟨hread, hu⟩ := unescapeLetter?_of_escapeLetter? hletter
    show readString ('\\' :: letter :: rest) = _
    rw [readString, hread]
    · cases readString rest <;> rfl
    · exact fun _ _ _ _ _ h _ => hu h
  | none =>
    obtain ⟨hquote, hbackslash⟩ := ne_of_escapeLetter? hletter
    by_cases hcode : c.toNat < 0x20
    · have hread := readString_code hcode rest
      rw [Char.ofNat_toNat] at hread
      simp only [hcode, if_true]
      exact hread
    · simp only [hcode, if_false]
      show readString (c :: rest) = _
      rw [readString, if_neg hcode]
      · cases readString rest <;> rfl
      · exact hquote
      · exact fun _ _ _ _ _ h _ => hbackslash h
      · exact fun _ _ h _ => hbackslash h

/-- **A string is read back**, whatever comes after it. -/
theorem readString_writeChars (cs rest : List Char) : readString (writeChars cs rest) = some (cs, rest) := by
  unfold writeChars
  induction cs with
  | nil => rfl
  | cons c cs ih =>
    rw [List.flatMap_cons, List.append_assoc, readString_escape, ih]
    rfl

/-! ### Integers -/

/-- What comes after a field: a comma, or the closing brace. -/
def EndsField (rest : List Char) : Prop := ∃ more, rest = ',' :: more ∨ rest = '}' :: more

theorem isDigit_digitChars {n : Nat} : ∀ c ∈ Decimal.digitChars n, isDigit c = true := by
  intro c hc
  have hdigit := Decimal.isDigit_digitChars hc
  simp only [Char.isDigit, Bool.and_eq_true, decide_eq_true_eq] at hdigit
  rw [isDigit, Bool.and_eq_true, decide_eq_true_eq, decide_eq_true_eq]
  exact hdigit

/-- Digits are read up to the first character that is none. -/
theorem spanDigits_append {digits rest : List Char} (h : ∀ c ∈ digits, isDigit c = true)
    (hrest : EndsField rest) : spanDigits (digits ++ rest) = (digits, rest) := by
  have hend : rest.takeWhile isDigit = [] ∧ rest.dropWhile isDigit = rest := by
    obtain ⟨more, rfl | rfl⟩ := hrest <;> exact ⟨rfl, rfl⟩
  unfold spanDigits
  rw [List.takeWhile_append_of_pos h, List.dropWhile_append_of_pos h, hend.1, hend.2, List.append_nil]

/-- The digits of a number do not begin with a zero, unless there is no other digit. -/
theorem digitChars_ne_zero_cons (n : Nat) (d : Char) (more : List Char) :
    Decimal.digitChars n ≠ '0' :: d :: more := by
  intro h
  have hzero : (Text.digitValue? '0').getD 0 = 0 := by decide
  have hvalue : Text.digitsValue (d :: more) = n := by
    rw [← Decimal.digitsValue_digitChars n, h, Text.digitsValue_eq, Text.digitsValue_eq]
    show _ = Text.numeralValue ((Text.digitValue? '0').getD 0 :: (d :: more).map _)
    rw [hzero]
    rfl
  have hlt : n < 10 ^ (d :: more).length := hvalue ▸ Text.digitsValue_lt (Nat.le_refl _)
  have hlength := Decimal.length_digitChars_le (Nat.succ_pos _) hlt
  rw [h] at hlength
  exact absurd hlength (Nat.not_succ_le_self _)

/-- **The digits of a number are read back.** -/
theorem readNumber_digitChars {n : Nat} (hn : n < 10 ^ Numeral.maxDigits) (negative : Bool)
    {rest : List Char} (hrest : EndsField rest) :
    readNumber negative (Decimal.digitChars n ++ rest) =
      some (.integer (Double.signed negative n), rest) := by
  have hspan := spanDigits_append (@isDigit_digitChars n) hrest
  have hlength := Decimal.length_digitChars_le (by decide) hn
  have hvalue := Decimal.digitsValue_digitChars n
  have hne := Decimal.digitChars_ne_nil n
  have hzero := digitChars_ne_zero_cons n
  have hfraction : readFraction rest = ([], rest) := by
    obtain ⟨more, rfl | rfl⟩ := hrest <;> rfl
  have hexponent : readExponent? rest = none := by
    obtain ⟨more, rfl | rfl⟩ := hrest <;> rfl
  generalize Decimal.digitChars n = digits at hspan hlength hvalue hne hzero
  unfold readNumber
  rw [hspan]
  split
  · rename_i hempty
    cases hempty
    exact absurd rfl hne
  · rename_i hspanned
    cases hspanned
    split
    rename_i cs rest' hplain
    -- a zero at the beginning is cut off from what follows it, but it is the only digit then
    have hsame : (digits, rest) = (cs, rest') := by
      rw [← hplain]
      split
      · exact absurd rfl (hzero _ _)
      · rfl
    cases hsame
    simp only [hfraction, hexponent]
    rw [if_neg (Nat.not_lt.mpr hlength), hvalue]

/-! ### Scalars -/

/-- A boolean, a string, or an integer that has not too many digits. -/
inductive Plain : Value → Prop where
  | boolean (b : Bool) : Plain (.boolean b)
  | integer {n : Int} : Numeral.isTooLong n = false → Plain (.integer n)
  | string (s : String) : Plain (.string s)

/-- A value that begins with no quote, bracket or brace is a word or a number. -/
theorem readValue_eq_readScalar (steps depth : Nat) {c : Char} {rest : List Char} (hquote : c ≠ '"')
    (hbracket : c ≠ '[') (hbrace : c ≠ '{') :
    readValue (steps + 1) depth (c :: rest) = readScalar (c :: rest) := by
  rw [readValue]
  · exact fun _ h => hquote (List.cons.inj h).1
  · exact fun _ _ h => hbracket (List.cons.inj h).1
  · exact fun _ _ h => hbrace (List.cons.inj h).1
  · exact fun _ _ _ h => hbracket (List.cons.inj h).1
  · exact fun _ _ _ h => hbrace (List.cons.inj h).1

/-- What begins with a digit is a number. -/
theorem readScalar_digit {c : Char} (hc : isDigit c = true) (rest : List Char) :
    readScalar (c :: rest) = (readNumber false (c :: rest)).map fun p => (.number p.1, p.2) := by
  have hother {d : Char} {more : List Char} (h : c :: rest = d :: more) : isDigit d = true :=
    (List.cons.inj h).1 ▸ hc
  rw [readScalar]
  all_goals exact fun _ h => absurd (hother h) (by decide)

/-- What begins with a minus and a digit is a negative number. -/
theorem readScalar_minus {c : Char} (hc : isDigit c = true) (rest : List Char) :
    readScalar ('-' :: c :: rest) = (readNumber true (c :: rest)).map fun p => (.number p.1, p.2) := by
  rw [readScalar]
  intro tail h
  rw [(List.cons.inj h).1] at hc
  exact absurd hc (by decide)

/-- There is a first digit. -/
theorem exists_digitChars_eq (n : Nat) :
    ∃ c more, isDigit c = true ∧ Decimal.digitChars n = c :: more := by
  obtain ⟨c, more, hdigits⟩ := List.exists_cons_of_ne_nil (Decimal.digitChars_ne_nil n)
  exact ⟨c, more, isDigit_digitChars c (hdigits ▸ List.mem_cons_self), hdigits⟩

/-- An integer is read back, with its sign. -/
theorem readValue_numeral {n : Int} (hn : Numeral.isTooLong n = false) (steps depth : Nat)
    {rest : List Char} (hrest : EndsField rest) :
    readValue (steps + 1) depth (Numeral.chars n ++ rest) = some (.integer n, rest) := by
  have hread (negative : Bool) :=
    readNumber_digitChars (Numeral.isTooLong_eq_false_iff.mp hn) negative hrest
  obtain ⟨c, more, hc, hdigits⟩ := exists_digitChars_eq n.natAbs
  have hother {d : Char} (hd : isDigit d = false) : c ≠ d := fun h => by
    rw [← h, hc] at hd
    cases hd
  rw [hdigits, List.cons_append] at hread
  rw [Numeral.chars, hdigits]
  by_cases hneg : n < 0
  · have hvalue : Double.signed true n.natAbs = n := by
      simp only [Double.signed, if_true]
      omega
    simp only [hneg, decide_true, NumberFormat.withSign, if_true]
    show readValue (steps + 1) depth ('-' :: c :: (more ++ rest)) = _
    rw [readValue_eq_readScalar steps depth (by decide) (by decide) (by decide), readScalar_minus hc,
      hread true, hvalue]
    rfl
  · have hvalue : Double.signed false n.natAbs = n := by
      simp only [Double.signed, Bool.false_eq_true, if_false]
      omega
    simp only [hneg, decide_false, NumberFormat.withSign, Bool.false_eq_true, if_false]
    show readValue (steps + 1) depth (c :: (more ++ rest)) = _
    rw [readValue_eq_readScalar steps depth (hother (by decide)) (hother (by decide)) (hother (by decide)),
      readScalar_digit hc, hread false, hvalue]
    rfl

theorem write_integer (n : Int) (rest : List Char) :
    write (.integer n) rest = Numeral.chars n ++ rest := by
  show (String.ofList (Numeral.chars n)).toList ++ rest = _
  rw [String.toList_ofList]

/-- **A plain scalar is read back**, if the end of a field comes after it. -/
theorem readValue_write {v : Value} (h : Plain v) (steps depth : Nat) {rest : List Char}
    (hrest : EndsField rest) : readValue (steps + 1) depth (write v rest) = some (v, rest) := by
  cases h with
  | boolean b =>
    cases b with
    | false =>
      show readValue (steps + 1) depth ('f' :: 'a' :: 'l' :: 's' :: 'e' :: rest) = _
      rw [readValue_eq_readScalar steps depth (by decide) (by decide) (by decide)]
      rfl
    | true =>
      show readValue (steps + 1) depth ('t' :: 'r' :: 'u' :: 'e' :: rest) = _
      rw [readValue_eq_readScalar steps depth (by decide) (by decide) (by decide)]
      rfl
  | integer hn => rw [write_integer, readValue_numeral hn steps depth hrest]
  | string s =>
    show readValue (steps + 1) depth ('"' :: writeChars s.toList rest) = _
    rw [readValue, readString_writeChars]
    show some (Value.string (String.ofList s.toList), rest) = _
    rw [String.ofList_toList]

/-- No white space stands in front of a scalar. -/
theorem skipSpace_write {v : Value} (h : Plain v) (rest : List Char) :
    skipSpace (write v rest) = write v rest := by
  cases h with
  | boolean b => cases b <;> rfl
  | @integer n _ =>
    obtain ⟨c, more, hc, hdigits⟩ := exists_digitChars_eq n.natAbs
    have hspace : isSpace c = false := by
      cases hspace : isSpace c with
      | false => rfl
      | true =>
        simp only [isSpace, Bool.or_eq_true, decide_eq_true_eq] at hspace
        obtain ((rfl | rfl) | rfl) | rfl := hspace <;> exact absurd hc (by decide)
    rw [write_integer, Numeral.chars, hdigits, NumberFormat.withSign]
    split
    · rfl
    · exact List.dropWhile_cons_of_neg (by rw [hspace]; exact nofun)
  | string s => rfl

/-! ### Objects -/

section Field

variable {v : Value} (hv : Plain v) (name : String) (steps depth : Nat)
include hv

/-- The last field is read back. -/
theorem readFields_last (rest : List Char) :
    readFields (steps + 2) depth (writeString name (':' :: ' ' :: write v ('}' :: rest))) =
      some ([(name, v)], rest) := by
  have hvalue := readValue_write hv steps depth ⟨rest, .inr rfl⟩
  show readFields (steps + 2) depth ('"' :: writeChars name.toList (':' :: ' ' :: _)) = _
  rw [readFields, readString_writeChars]
  show (readValue (steps + 1) depth (skipSpace (write v ('}' :: rest)))).bind _ = _
  rw [skipSpace_write hv, hvalue]
  show some ([(String.ofList name.toList, v)], rest) = _
  rw [String.ofList_toList]

/-- A field with another one after it is read back in front of that. -/
theorem readFields_comma (next : String) (rest : List Char) :
    readFields (steps + 2) depth (writeString name (':' :: ' ' :: write v
        (',' :: ' ' :: writeString next rest))) =
      (readFields (steps + 1) depth (writeString next rest)).map fun p =>
        ((name, v) :: p.1, p.2) := by
  have hvalue := readValue_write hv steps depth
    (show EndsField (',' :: ' ' :: writeString next rest) from ⟨_, .inl rfl⟩)
  show readFields (steps + 2) depth ('"' :: writeChars name.toList (':' :: ' ' :: _)) = _
  rw [readFields, readString_writeChars]
  show (readValue (steps + 1) depth (skipSpace (write v _))).bind _ = _
  rw [skipSpace_write hv, hvalue]
  show (readFields (steps + 1) depth (writeString next rest)).bind (fun p =>
    some ((String.ofList name.toList, v) :: p.1, p.2)) = _
  rw [String.ofList_toList]
  cases readFields (steps + 1) depth (writeString next rest) <;> rfl

end Field

/-- **Fields are read back**, the first one and those after it. -/
theorem readFields_writeFields (name : String) {v : Value} {more : List (String × Value)} (hv : Plain v)
    (hmore : ∀ p ∈ more, Plain p.2) {steps : Nat} (hsteps : more.length < steps) (depth : Nat)
    (rest : List Char) :
    readFields (steps + 1) depth (writeString name (':' :: ' ' :: write v (writeFields more rest))) =
      some ((name, v) :: more, rest) := by
  -- on the fields behind the first one, each of which takes a step
  induction more generalizing name v steps with
  | nil =>
    obtain ⟨steps, rfl⟩ := Nat.exists_eq_add_one_of_ne_zero (Nat.ne_of_gt hsteps)
    exact readFields_last hv name steps depth rest
  | cons p more ih =>
    obtain ⟨next, w⟩ := p
    obtain ⟨hw, hmore⟩ := List.forall_mem_cons.mp hmore
    obtain ⟨steps, rfl⟩ := Nat.exists_eq_add_one_of_ne_zero (Nat.ne_zero_of_lt hsteps)
    have hrest := ih next hw hmore (Nat.lt_of_succ_lt_succ hsteps)
    have hfield := readFields_comma hv name steps depth next
      (':' :: ' ' :: write w (writeFields more rest))
    exact hfield.trans (by rw [hrest]; rfl)

theorem suffix_writeString (s : String) (rest : List Char) : rest <:+ writeString s rest :=
  ⟨'"' :: (s.toList.flatMap escape ++ ['"']), by simp [writeString, writeChars]⟩

theorem suffix_write {v : Value} (hv : Plain v) (rest : List Char) : rest <:+ write v rest := by
  cases hv with
  | boolean b => exact List.suffix_append _ rest
  | integer _ => exact List.suffix_append _ rest
  | string s => exact suffix_writeString s rest

/-- A field takes more characters than what comes after it. -/
theorem length_lt_length_field (name : String) {v : Value} (hv : Plain v) (rest : List Char) :
    rest.length < (writeString name (':' :: ' ' :: write v rest)).length := by
  have hname := (suffix_writeString name (':' :: ' ' :: write v rest)).length_le
  have hvalue := (suffix_write hv rest).length_le
  simp only [List.length_cons] at hname
  omega

/-- Fields take a character each at least. -/
theorem length_le_length_writeFields {fields : List (String × Value)} (h : ∀ p ∈ fields, Plain p.2)
    (rest : List Char) : fields.length ≤ (writeFields fields rest).length := by
  induction fields with
  | nil => exact Nat.zero_le _
  | cons p more ih =>
    obtain ⟨hp, hmore⟩ := List.forall_mem_cons.mp h
    have hrest := ih hmore
    have hfield := length_lt_length_field p.1 hp (writeFields more rest)
    show more.length + 1 ≤ (writeString p.1 (':' :: ' ' ::
      write p.2 (writeFields more rest))).length + 1 + 1
    omega

/-- The text of an object begins with a brace. -/
theorem render_object (fields : Entries Value) :
    ∃ body, (render (.object fields)).toList = '{' :: body := by
  unfold render
  rw [String.toList_ofList]
  cases fields with
  | nil => exact ⟨_, rfl⟩
  | cons p more => exact ⟨_, rfl⟩

/-- An assignment of a new name appends it. -/
theorem insert_of_not_mem {name : String} {v : Value} {fields : Entries Value}
    (h : name ∉ fields.keys) : fields.insert name v = fields ++ [(name, v)] := by
  induction fields with
  | nil => rfl
  | cons p rest ih =>
    obtain ⟨k, w⟩ := p
    obtain ⟨hne, hrest⟩ := not_or.mp (mt List.mem_cons.mpr h)
    rw [Entries.insert, if_neg (Ne.symm hne), ih hrest]
    rfl

/-- Fields with distinct names are kept as they are. -/
theorem ofList_of_nodup {fields : Entries Value} (h : fields.keys.Nodup) :
    Entries.ofList fields = fields := by
  have hfold (entries rest : Entries Value) (hkeys : (Entries.keys (entries ++ rest)).Nodup) :
      rest.foldl (fun entries p => entries.insert p.1 p.2) entries = entries ++ rest := by
    induction rest generalizing entries with
    | nil => exact (List.append_nil entries).symm
    | cons p rest ih =>
      have hnew : p.1 ∉ entries.keys := by
        rw [Entries.keys, List.map_append, List.map_cons, List.nodup_append] at hkeys
        exact fun hmem => hkeys.2.2 p.1 hmem p.1 List.mem_cons_self rfl
      have hassoc : entries ++ p :: rest = entries ++ [p] ++ rest := by simp
      rw [List.foldl_cons, insert_of_not_mem hnew, hassoc, ih (entries ++ [p]) (hassoc ▸ hkeys)]
  exact hfold [] fields h

/-- The fields of an object are plain scalars under distinct names. -/
structure PlainFields (fields : Entries Value) : Prop where
  plain : ∀ p ∈ fields, Plain p.2
  distinct : fields.keys.Nodup

theorem PlainFields.single (name : String) {v : Value} (hv : Plain v) : PlainFields [(name, v)] where
  plain := List.forall_mem_singleton.mpr hv
  distinct := List.pairwise_singleton _ _

theorem PlainFields.pair {name other : String} (hne : name ≠ other) {v w : Value} (hv : Plain v)
    (hw : Plain w) : PlainFields [(name, v), (other, w)] where
  plain := List.forall_mem_cons.mpr ⟨hv, List.forall_mem_singleton.mpr hw⟩
  distinct := List.pairwise_pair.mpr hne

/-- **An object of plain scalars is read back.** -/
theorem read_render {fields : Entries Value} (h : PlainFields fields) :
    read (render (.object fields)) = some (.object fields) := by
  cases fields with
  | nil => decide +kernel
  | cons p more =>
    obtain ⟨name, v⟩ := p
    obtain ⟨hv, hmore⟩ := List.forall_mem_cons.mp h.plain
    let body := writeString name (':' :: ' ' :: write v (writeFields more []))
    have hlength : more.length < body.length :=
      Nat.lt_of_le_of_lt (length_le_length_writeFields hmore []) (length_lt_length_field name hv _)
    have hfields : readFields (body.length + 1) body.length body = some ((name, v) :: more, []) :=
      readFields_writeFields name hv hmore hlength body.length []
    have hchars : (render (.object ((name, v) :: more))).toList = '{' :: body :=
      String.toList_ofList
    have hvalue : readValue (body.length + 1 + 1) (body.length + 1) ('{' :: body) =
        some (.object ((name, v) :: more), []) := by
      rw [readValue]
      show (readFields (body.length + 1) body.length body).map _ = _
      rw [hfields]
      show some (Value.object (Entries.ofList ((name, v) :: more)), []) = _
      rw [ofList_of_nodup h.distinct]
    have hskip : skipSpace ('{' :: body) = '{' :: body := rfl
    unfold read readWithin
    rw [← String.length_toList, hchars]
    simp only [hskip, List.length_cons, hvalue]
    rfl

/-! ### Characters -/

/-- There is no character below U+0020, so no line feed either. -/
def Printing (cs : List Char) : Prop := ∀ c ∈ cs, 0x20 ≤ c.toNat

theorem Printing.of_all {cs : List Char} (h : (cs.all fun c => 0x20 ≤ c.toNat) = true) : Printing cs :=
  fun c hc => of_decide_eq_true (List.all_eq_true.mp h c hc)

theorem Printing.append {cs ds : List Char} (hcs : Printing cs) (hds : Printing ds) : Printing (cs ++ ds) :=
  List.forall_mem_append.mpr ⟨hcs, hds⟩

theorem printing_hexDigits (width n : Nat) : Printing (Text.hexDigits width n) := by
  have hdigit : ∀ d < 16, 0x20 ≤ (Text.hexDigit d).toNat := by decide
  induction width generalizing n with
  | zero => exact nofun
  | succ width ih =>
    exact (ih (n / 16)).append (List.forall_mem_singleton.mpr (hdigit _ (Nat.mod_lt _ (by decide))))

theorem printing_escape (c : Char) : Printing (escape c) := by
  unfold escape
  cases hletter : escapeLetter? c with
  | some letter =>
    have hprints : 0x20 ≤ letter.toNat := by
      unfold escapeLetter? at hletter
      split_ifs at hletter
      all_goals
        cases hletter
        decide
    exact List.forall_mem_cons.mpr ⟨by decide, List.forall_mem_singleton.mpr hprints⟩
  | none =>
    by_cases hcode : c.toNat < 0x20
    · simp only [hcode, if_true]
      exact List.forall_mem_cons.mpr
        ⟨by decide, List.forall_mem_cons.mpr ⟨by decide, printing_hexDigits 4 _⟩⟩
    · simp only [hcode, if_false]
      exact List.forall_mem_singleton.mpr (Nat.le_of_not_lt hcode)

theorem printing_writeString (s : String) {rest : List Char} (h : Printing rest) :
    Printing (writeString s rest) := by
  have hchars : Printing (s.toList.flatMap escape) := by
    intro c hc
    obtain ⟨d, -, hd⟩ := List.mem_flatMap.mp hc
    exact printing_escape d c hd
  exact List.forall_mem_cons.mpr ⟨by decide, hchars.append (List.forall_mem_cons.mpr ⟨by decide, h⟩)⟩

theorem printing_write {v : Value} (hv : Plain v) {rest : List Char} (h : Printing rest) :
    Printing (write v rest) := by
  cases hv with
  | boolean b =>
    have hword : Printing (if b then "true" else "false").toList := .of_all (by cases b <;> decide)
    exact hword.append h
  | @integer n _ =>
    have hdigits : Printing (Decimal.digitChars n.natAbs) := by
      intro c hc
      have hdigit := isDigit_digitChars c hc
      rw [isDigit, Bool.and_eq_true, decide_eq_true_eq, decide_eq_true_eq] at hdigit
      exact Nat.le_trans (by decide) (show '0'.toNat ≤ c.toNat from hdigit.1)
    have hnumeral : Printing (Numeral.chars n) := by
      unfold Numeral.chars NumberFormat.withSign
      split
      · exact List.forall_mem_cons.mpr ⟨by decide, hdigits⟩
      · exact hdigits
    rw [write_integer]
    exact hnumeral.append h
  | string s => exact printing_writeString s h

/-- One field, in front of what comes after it. -/
theorem printing_field (name : String) {v : Value} (hv : Plain v) {rest : List Char} (h : Printing rest) :
    Printing (writeString name (':' :: ' ' :: write v rest)) := by
  have hvalue := printing_write hv h
  exact printing_writeString name
    (List.forall_mem_cons.mpr ⟨by decide, List.forall_mem_cons.mpr ⟨by decide, hvalue⟩⟩)

theorem printing_writeFields {fields : List (String × Value)} (hplain : ∀ p ∈ fields, Plain p.2)
    {rest : List Char} (h : Printing rest) : Printing (writeFields fields rest) := by
  induction fields with
  | nil => exact List.forall_mem_cons.mpr ⟨by decide, h⟩
  | cons p more ih =>
    obtain ⟨hs, hmore⟩ := List.forall_mem_cons.mp hplain
    have hfield := printing_field p.1 hs (ih hmore)
    exact List.forall_mem_cons.mpr ⟨by decide, List.forall_mem_cons.mpr ⟨by decide, hfield⟩⟩

/-- **The text of an object of plain scalars has no character below U+0020.** -/
theorem printing_render {fields : List (String × Value)} (hplain : ∀ p ∈ fields, Plain p.2) :
    Printing (render (.object fields)).toList := by
  unfold render
  rw [String.toList_ofList]
  cases fields with
  | nil => exact List.forall_mem_cons.mpr ⟨by decide, List.forall_mem_singleton.mpr (by decide)⟩
  | cons p more =>
    obtain ⟨hs, hmore⟩ := List.forall_mem_cons.mp hplain
    have hrest : Printing (writeFields more []) := printing_writeFields hmore nofun
    have hfield := printing_field p.1 hs hrest
    exact List.forall_mem_cons.mpr ⟨by decide, hfield⟩

end DecisionFlow.Json
