import DecisionFlow.Expr.Token

/-!
# Tokens between white space

A lexeme is read back as it is in front of whatever does not continue it, and white space continues
none: names, symbols, quoted strings and numerals end where white space begins.  So a text that is
written lexeme by lexeme, with white space between them, is cut into just these lexemes.

* `Text.StartsBlank` — a text is empty or begins with white space;
* `Lexeme.read?_symbol_append`, `read?_name_append`, `read?_number_append` — a lexeme is read back in
  front of a text that does not continue it;
* `Lexeme.ReadsBack` — a lexeme is read back in front of white space: `readsBack_symbol`,
  `readsBack_name`, `readsBack_string`, `readsBack_number`;
* `Escapes` — a text between quotes, with backslashes where they are needed and perhaps elsewhere;
* `Spaced` — a text of lexemes with white space between them;
* `Cuts` — a text is cut into lexemes; `Token.scan_of_cuts` says that these are those of its tokens;
* `Token.scan_of_spaced` — the tokens of lexemes with white space between them.
-/

namespace DecisionFlow

/-! ### Classes of characters -/

namespace Text

/-- What holds of all ASCII characters is decided by looking at each. -/
theorem of_ascii {p : Char → Prop} (h : ∀ n : Fin 128, p (Char.ofNat n)) {c : Char}
    (hc : c.toNat < 128) : p c := by
  have hfound := h ⟨c.toNat, hc⟩
  rwa [Char.ofNat_toNat] at hfound

/-- No white space is a digit: the blocks of digits lie outside the ranges of white space. -/
theorem isDigit_of_isBlank {c : Char} (h : isBlank c = true) : isDigit c = false := by
  have hapart : ∀ z ∈ digitZeros, ∀ r ∈ blankRanges, z + 10 ≤ r.1 ∨ r.2 < z := by decide +kernel
  cases hdigit : isDigit c with
  | false => rfl
  | true =>
    unfold isDigit digitValue? at hdigit
    rw [Option.isSome_map, List.find?_isSome] at hdigit
    obtain ⟨z, hz, hrange⟩ := hdigit
    obtain ⟨r, hr, hblank⟩ := List.any_eq_true.mp h
    simp only [Bool.and_eq_true, decide_eq_true_eq] at hrange hblank
    rcases hapart z hz r hr with hbelow | habove <;> omega

/-- A text is empty or begins with white space. -/
def StartsBlank (cs : List Char) : Prop := ∀ c rest, cs = c :: rest → isBlank c = true

theorem startsBlank_nil : StartsBlank [] := nofun

theorem startsBlank_cons {c : Char} (h : isBlank c = true) (rest : List Char) :
    StartsBlank (c :: rest) := by
  rintro _ _ ⟨⟩
  exact h

/-- A class without white space is not continued by a text that begins with white space. -/
theorem StartsBlank.head? {cs : List Char} (h : StartsBlank cs) {p : Char → Bool}
    (hp : ∀ c, isBlank c = true → p c = false) : ∀ c ∈ cs.head?, p c = false := by
  intro c hc
  obtain ⟨rest, rfl⟩ := List.head?_eq_some_iff.mp hc
  exact hp c (h c rest rfl)

/-- A class takes nothing of a text that begins with another character. -/
theorem takeWhile_eq_nil_of_head? {p : Char → Bool} {cs : List Char}
    (h : ∀ c ∈ cs.head?, p c = false) : cs.takeWhile p = [] := by
  cases cs with
  | nil => rfl
  | cons c rest => exact List.takeWhile_cons_of_neg (by rw [h c rfl]; exact nofun)

theorem dropWhile_eq_self_of_head? {p : Char → Bool} {cs : List Char}
    (h : ∀ c ∈ cs.head?, p c = false) : cs.dropWhile p = cs := by
  cases cs with
  | nil => rfl
  | cons c rest => exact List.dropWhile_cons_of_neg (by rw [h c rfl]; exact nofun)

end Text

open Text (StartsBlank)

namespace Lexeme

theorem toNat_lt_of_isNameChar {c : Char} (h : isNameChar c = true) : c.toNat < 128 := by
  have hranges : ((decide (c.val ≥ 'A'.val ∧ c.val ≤ 'Z'.val) ||
      (decide (c.val ≥ 'a'.val) && decide (c.val ≤ 'z'.val))) ||
      (decide (c.val ≥ '0'.val) && decide (c.val ≤ '9'.val)) || decide (c = '_')) = true := h
  simp only [Bool.or_eq_true, Bool.and_eq_true, decide_eq_true_eq, ge_iff_le,
    UInt32.le_iff_toNat_le] at hranges
  have htoNat : c.toNat = c.val.toNat := rfl
  rcases hranges with (((⟨-, hle⟩ | ⟨-, hle⟩) | ⟨-, hle⟩) | rfl)
  · have hlast : 'Z'.val.toNat = 90 := rfl
    omega
  · have hlast : 'z'.val.toNat = 122 := rfl
    omega
  · have hlast : '9'.val.toNat = 57 := rfl
    omega
  · decide

theorem isNameChar_of_isNameStart {c : Char} (h : isNameStart c = true) : isNameChar c = true := by
  simp only [isNameStart, isNameChar, Char.isAlphanum, Bool.or_eq_true] at h ⊢
  rcases h with h | h
  · exact .inl (.inl h)
  · exact .inr h

/-- No white space continues a name. -/
theorem isNameChar_of_isBlank {c : Char} (h : Text.isBlank c = true) : isNameChar c = false := by
  cases hname : isNameChar c with
  | false => rfl
  | true =>
    have hapart := Text.of_ascii (p := fun c => isNameChar c = true → Text.isBlank c ≠ true)
      (by decide +kernel) (toNat_lt_of_isNameChar hname)
    exact absurd h (hapart hname)

/-! ### The kind of a lexeme is told by its first character -/

theorem readNumber?_eq_none {c : Char} (hminus : c ≠ '-') (hdigit : Text.isDigit c = false)
    (rest : List Char) : readNumber? (c :: rest) = none := by
  have hnone : readUnsigned? (c :: rest) = none := by
    unfold readUnsigned?
    rw [List.takeWhile_cons_of_neg (by rw [hdigit]; exact nofun)]
  unfold readNumber?
  split
  · rename_i hcons
    exact absurd (List.cons.inj hcons).1 hminus
  · rw [hnone]
    rfl

theorem readString?_eq_none {c : Char} (hquote : c ≠ '"') (hquote' : c ≠ '\'') (rest : List Char) :
    readString? (c :: rest) = none := if_neg (not_or.mpr ⟨hquote, hquote'⟩)

/-- The characters with which a symbol begins. -/
def isSymbolStart (c : Char) : Bool := ['=', '!', '<', '>', '&', '|', '(', ')'].contains c

theorem readSymbol?_eq_none {c : Char} (h : isSymbolStart c = false) (rest : List Char) :
    readSymbol? (c :: rest) = none := by
  unfold readSymbol?
  split
  all_goals first | rfl | (rename_i hcons; cases hcons; cases h)

theorem readName?_eq_none {c : Char} (h : isNameStart c = false) (rest : List Char) :
    readName? (c :: rest) = none := by
  show (if isNameStart c = true then _ else none) = none
  rw [h]
  rfl

/-- A character that begins no token. -/
theorem read?_eq_none {c : Char} (hminus : c ≠ '-') (hdigit : Text.isDigit c = false)
    (hquote : c ≠ '"') (hquote' : c ≠ '\'') (hsymbol : isSymbolStart c = false)
    (hname : isNameStart c = false) (rest : List Char) : read? (c :: rest) = none := by
  rw [read?, readNumber?_eq_none hminus hdigit, readString?_eq_none hquote hquote',
    readSymbol?_eq_none hsymbol, readName?_eq_none hname]
  rfl

theorem read?_of_symbol {c : Char} {rest rest' : List Char} {s : Symbol}
    (hstart : isSymbolStart c = true) (h : readSymbol? (c :: rest) = some (s, rest')) :
    read? (c :: rest) = some (symbol s, rest') := by
  have hother : c ≠ '-' ∧ Text.isDigit c = false ∧ c ≠ '"' ∧ c ≠ '\'' := by
    revert hstart
    simp only [isSymbolStart, List.contains_eq_mem, List.mem_cons, List.not_mem_nil, or_false,
      decide_eq_true_eq]
    rintro (rfl | rfl | rfl | rfl | rfl | rfl | rfl | rfl) <;> decide
  obtain ⟨hminus, hdigit, hquote, hquote'⟩ := hother
  rw [read?, readNumber?_eq_none hminus hdigit, readString?_eq_none hquote hquote', h]
  rfl

theorem read?_of_name {c : Char} {rest : List Char} (hstart : isNameStart c = true) :
    read? (c :: rest) = readName? (c :: rest) := by
  have hother := Text.of_ascii (p := fun c => isNameStart c = true →
      c ≠ '-' ∧ Text.isDigit c = false ∧ c ≠ '"' ∧ c ≠ '\'' ∧ isSymbolStart c = false)
    (by decide +kernel) (toNat_lt_of_isNameChar (isNameChar_of_isNameStart hstart)) hstart
  obtain ⟨hminus, hdigit, hquote, hquote', hsymbol⟩ := hother
  rw [read?, readNumber?_eq_none hminus hdigit, readString?_eq_none hquote hquote',
    readSymbol?_eq_none hsymbol]
  rfl

/-- No token begins with white space. -/
theorem read?_eq_none_of_isBlank {c : Char} (h : Text.isBlank c = true) (rest : List Char) :
    read? (c :: rest) = none := by
  have hne (d : Char) (hd : Text.isBlank d = false) : c ≠ d := by
    rintro rfl
    rw [h] at hd
    cases hd
  have hsymbol : isSymbolStart c = false := by
    simp only [isSymbolStart, List.contains_eq_mem, List.mem_cons, List.not_mem_nil, or_false,
      decide_eq_false_iff_not]
    rintro (rfl | rfl | rfl | rfl | rfl | rfl | rfl | rfl) <;> cases h
  have hname : isNameStart c = false := by
    cases hstart : isNameStart c with
    | false => rfl
    | true =>
      have hname := isNameChar_of_isBlank h
      rw [isNameChar_of_isNameStart hstart] at hname
      cases hname
  exact read?_eq_none (hne '-' (by decide)) (Text.isDigit_of_isBlank h) (hne '"' (by decide))
    (hne '\'' (by decide)) hsymbol hname rest

/-! ### Lexemes that are read back -/

/-- A lexeme is read back as it is in front of white space and at the end of a text. -/
def ReadsBack (l : Lexeme) : Prop :=
  ∀ rest, StartsBlank rest → read? (l.text.toList ++ rest) = some (l, rest)

/-- In front of anything but an equals sign, a symbol of one character is not taken for the beginning of
a longer one. -/
theorem readSymbol?_of_head? {rest : List Char} (h : rest.head? ≠ some '=') :
    readSymbol? ('<' :: rest) = some (.comparison .lt, rest) ∧
      readSymbol? ('>' :: rest) = some (.comparison .gt, rest) ∧
      readSymbol? ('!' :: rest) = some (.not, rest) := by
  cases rest with
  | nil => exact ⟨rfl, rfl, rfl⟩
  | cons c tail =>
    have hequals : c ≠ '=' := fun hc => h (congrArg some hc)
    simp [readSymbol?, hequals]

/-- A symbol is read where it is not the beginning of a longer one. -/
theorem read?_symbol_append (s : Symbol) {rest : List Char}
    (h : s = .comparison .lt ∨ s = .comparison .gt ∨ s = .not → rest.head? ≠ some '=') :
    read? ((symbol s).text.toList ++ rest) = some (symbol s, rest) := by
  cases s with
  | comparison c =>
    cases c with
    | lt =>
      show read? ('<' :: rest) = _
      exact read?_of_symbol rfl (readSymbol?_of_head? (h (.inl rfl))).1
    | gt =>
      show read? ('>' :: rest) = _
      exact read?_of_symbol rfl (readSymbol?_of_head? (h (.inr (.inl rfl)))).2.1
    | _ => exact read?_of_symbol rfl rfl
  | connective c => cases c <;> exact read?_of_symbol rfl rfl
  | not =>
    show read? ('!' :: rest) = _
    exact read?_of_symbol rfl (readSymbol?_of_head? (h (.inr (.inr rfl)))).2.2
  | _ => exact read?_of_symbol rfl rfl

theorem readsBack_symbol (s : Symbol) : (symbol s).ReadsBack := by
  intro rest hrest
  refine read?_symbol_append s fun _ hequals => ?_
  obtain ⟨more, rfl⟩ := List.head?_eq_some_iff.mp hequals
  cases hrest '=' more rfl

/-- The names of variables: an ASCII letter or an underscore, and then also ASCII digits. -/
inductive IsName : String → Prop where
  | intro {c : Char} {cs : List Char} :
      isNameStart c = true → (∀ d ∈ cs, isNameChar d = true) → IsName (String.ofList (c :: cs))

/-- A name is read where no letter continues it. -/
theorem read?_name_append {text : String} (h : IsName text) {rest : List Char}
    (hrest : ∀ c ∈ rest.head?, isNameChar c = false) :
    read? (text.toList ++ rest) = some (name text, rest) := by
  obtain ⟨hstart, hchars⟩ := h
  rename_i c cs
  rw [String.toList_ofList, List.cons_append, read?_of_name hstart]
  show (if isNameStart c = true then _ else none) = _
  rw [if_pos hstart, List.takeWhile_append_of_pos hchars, List.dropWhile_append_of_pos hchars,
    Text.takeWhile_eq_nil_of_head? hrest, Text.dropWhile_eq_self_of_head? hrest, List.append_nil]

theorem readsBack_name {text : String} (h : IsName text) : (name text).ReadsBack := fun _ hrest =>
  read?_name_append h (hrest.head? fun _ => isNameChar_of_isBlank)

/-! ### Quoted strings -/

/-- `Escapes quote cs body`: between quotes of this kind, the body stands for the characters.  A
backslash stands in front of each quote and each backslash, and may stand in front of others. -/
inductive Escapes (quote : Char) : List Char → List Char → Prop where
  | nil : Escapes quote [] []
  | plain {c : Char} {cs body : List Char} :
      c ≠ quote → c ≠ '\\' → Escapes quote cs body → Escapes quote (c :: cs) (c :: body)
  | escaped {c : Char} {cs body : List Char} :
      c ≠ '\n' → Escapes quote cs body → Escapes quote (c :: cs) ('\\' :: c :: body)

/-- A character that is neither the quote nor a backslash is taken as it is. -/
theorem readQuoted?_plain {quote c : Char} (hquote : c ≠ quote) (hbackslash : c ≠ '\\')
    (cs : List Char) :
    readQuoted? quote (c :: cs) = (readQuoted? quote cs).map fun (body, rest) => (c :: body, rest) := by
  cases cs with
  | nil => simp [readQuoted?, hquote]
  | cons d more => rw [readQuoted?, if_neg hquote, if_neg hbackslash]

/-- A backslash takes the next character along, unless this is a line feed. -/
theorem readQuoted?_backslash {quote : Char} (hquote : quote ≠ '\\') (c : Char) (cs : List Char) :
    readQuoted? quote ('\\' :: c :: cs) =
      if c = '\n' then none
      else (readQuoted? quote cs).map fun (body, rest) => ('\\' :: c :: body, rest) := by
  rw [readQuoted?, if_neg hquote.symm, if_pos rfl]

/-- A body is read up to the closing quote, whatever comes after it. -/
theorem readQuoted?_of_escapes {quote : Char} (hquote : quote ≠ '\\') {cs body : List Char}
    (h : Escapes quote cs body) (rest : List Char) :
    readQuoted? quote (body ++ quote :: rest) = some (body ++ [quote], rest) := by
  induction h with
  | nil => cases rest <;> simp [readQuoted?]
  | plain hc hbackslash _ ih =>
    rw [List.cons_append, readQuoted?_plain hc hbackslash, ih]
    rfl
  | escaped hc _ ih =>
    rw [List.cons_append, List.cons_append, readQuoted?_backslash hquote, if_neg hc, ih]
    rfl

/-- After a quote, a string is read or nothing. -/
theorem read?_of_quote {quote : Char} (hquote : quote = '"' ∨ quote = '\'') (cs : List Char) :
    read? (quote :: cs) = (readQuoted? quote cs).map fun (body, rest) =>
      (string (String.ofList (quote :: body)), rest) := by
  have hother : readNumber? (quote :: cs) = none ∧ readSymbol? (quote :: cs) = none ∧
      readName? (quote :: cs) = none := by
    rcases hquote with rfl | rfl
    all_goals exact ⟨readNumber?_eq_none (by decide) (by decide) cs,
      readSymbol?_eq_none (by decide) cs, readName?_eq_none (by decide) cs⟩
  obtain ⟨hnumber, hsymbol, hname⟩ := hother
  rw [read?, hnumber, hsymbol, hname, readString?, if_pos hquote]
  exact Option.or_none

/-- A quoted string is read up to its closing quote, whatever comes after it. -/
theorem read?_of_escapes {quote : Char} (hquote : quote = '"' ∨ quote = '\'') {cs body : List Char}
    (h : Escapes quote cs body) (rest : List Char) :
    read? (quote :: (body ++ quote :: rest)) =
      some (string (String.ofList (quote :: (body ++ [quote]))), rest) := by
  have hbackslash : quote ≠ '\\' := by rcases hquote with rfl | rfl <;> decide
  rw [read?_of_quote hquote, readQuoted?_of_escapes hbackslash h]
  rfl

theorem readsBack_string {quote : Char} (hquote : quote = '"' ∨ quote = '\'') {cs body : List Char}
    (h : Escapes quote cs body) :
    (string (String.ofList (quote :: (body ++ [quote])))).ReadsBack := by
  intro rest _
  show read? ((String.ofList (quote :: (body ++ [quote]))).toList ++ rest) = _
  rw [String.toList_ofList, List.cons_append, List.append_assoc, List.singleton_append]
  exact read?_of_escapes hquote h rest

/-! ### Numerals -/

/-- The characters of a fraction with its point; without digits there is none. -/
def pointed (fraction : List Char) : List Char := if fraction = [] then [] else '.' :: fraction

/-- `IsNumeral text`: a sign or none, digits, and a fraction or none. -/
inductive IsNumeral : String → Prop where
  | intro (negative : Bool) {whole fraction : List Char} :
      whole ≠ [] → (∀ c ∈ whole, Text.isDigit c = true) →
      (∀ c ∈ fraction, Text.isDigit c = true) →
      IsNumeral (String.ofList (NumberFormat.withSign negative (whole ++ pointed fraction)))

/-- A fraction is read where no digit continues it; where there is none, none may come next. -/
theorem readFraction_pointed {fraction rest : List Char}
    (h : ∀ c ∈ fraction, Text.isDigit c = true) (hdigit : ∀ c ∈ rest.head?, Text.isDigit c = false)
    (hpoint : fraction = [] → ∀ c more, rest = '.' :: c :: more → Text.isDigit c = false) :
    readFraction (pointed fraction ++ rest) = (pointed fraction, rest) := by
  cases fraction with
  | nil =>
    show readFraction rest = ([], rest)
    unfold readFraction
    split
    · rename_i c more
      rw [if_neg (by rw [hpoint rfl c more rfl]; exact nofun)]
    · rfl
  | cons c cs =>
    obtain ⟨hc, hcs⟩ := List.forall_mem_cons.mp h
    show readFraction ('.' :: c :: (cs ++ rest)) = ('.' :: c :: cs, rest)
    rw [readFraction, if_pos hc, List.takeWhile_append_of_pos hcs, List.dropWhile_append_of_pos hcs,
      Text.takeWhile_eq_nil_of_head? hdigit, Text.dropWhile_eq_self_of_head? hdigit, List.append_nil]

/-- A point is no digit. -/
theorem head?_pointed {fraction rest : List Char} (hdigit : ∀ c ∈ rest.head?, Text.isDigit c = false) :
    ∀ c ∈ (pointed fraction ++ rest).head?, Text.isDigit c = false := by
  cases fraction with
  | nil => exact hdigit
  | cons d more =>
    rintro c ⟨⟩
    decide

theorem readUnsigned?_of_digits {whole fraction rest : List Char} (hne : whole ≠ [])
    (hwhole : ∀ c ∈ whole, Text.isDigit c = true) (hfraction : ∀ c ∈ fraction, Text.isDigit c = true)
    (hdigit : ∀ c ∈ rest.head?, Text.isDigit c = false)
    (hpoint : fraction = [] → ∀ c more, rest = '.' :: c :: more → Text.isDigit c = false) :
    readUnsigned? (whole ++ (pointed fraction ++ rest)) = some (whole ++ pointed fraction, rest) := by
  have hafter : ∀ c ∈ (pointed fraction ++ rest).head?, Text.isDigit c = false := head?_pointed hdigit
  have hdigits : (whole ++ (pointed fraction ++ rest)).takeWhile Text.isDigit = whole := by
    rw [List.takeWhile_append_of_pos hwhole, Text.takeWhile_eq_nil_of_head? hafter, List.append_nil]
  unfold readUnsigned?
  rw [hdigits, List.dropWhile_append_of_pos hwhole, Text.dropWhile_eq_self_of_head? hafter,
    readFraction_pointed hfraction hdigit hpoint]
  split
  · exact absurd rfl hne
  · rfl

/-- A numeral without a fraction has no point. -/
theorem no_point_of_digits (negative : Bool) {whole : List Char}
    (h : ∀ c ∈ whole, Text.isDigit c = true) :
    '.' ∉ (String.ofList (NumberFormat.withSign negative (whole ++ pointed []))).toList := by
  have hpoint : '.' ∉ whole := by
    intro hmem
    cases h '.' hmem
  rw [String.toList_ofList]
  cases negative <;> simpa [NumberFormat.withSign, pointed] using hpoint

/-- A number is read where neither a digit continues it nor, if it has none, a fraction. -/
theorem read?_number_append {text : String} (h : IsNumeral text) {rest : List Char}
    (hdigit : ∀ c ∈ rest.head?, Text.isDigit c = false)
    (hpoint : '.' ∉ text.toList → ∀ c more, rest = '.' :: c :: more → Text.isDigit c = false) :
    read? (text.toList ++ rest) = some (number text, rest) := by
  obtain ⟨negative, hne, hwhole, hfraction⟩ := h
  rename_i whole fraction
  have hunsigned := readUnsigned?_of_digits hne hwhole hfraction hdigit
    fun hnil => hpoint (hnil ▸ no_point_of_digits negative hwhole)
  have hnumber : readNumber? (NumberFormat.withSign negative (whole ++ pointed fraction) ++ rest) =
      some (number (String.ofList (NumberFormat.withSign negative (whole ++ pointed fraction))),
        rest) := by
    cases negative with
    | true =>
      show readNumber? ('-' :: ((whole ++ pointed fraction) ++ rest)) = _
      rw [List.append_assoc, readNumber?, hunsigned]
      rfl
    | false =>
      show readNumber? ((whole ++ pointed fraction) ++ rest) = _
      rw [List.append_assoc]
      unfold readNumber?
      split
      · rename_i tail hminus
        -- the first digit is no minus sign
        obtain ⟨d, more, rfl⟩ := List.exists_cons_of_ne_nil hne
        have hdigit := hwhole d List.mem_cons_self
        cases (List.cons.inj hminus).1
        cases hdigit
      · rw [hunsigned]
        rfl
  rw [String.toList_ofList, read?, hnumber]
  rfl

theorem readsBack_number {text : String} (h : IsNumeral text) : (number text).ReadsBack := by
  intro rest hrest
  refine read?_number_append h (hrest.head? fun _ => Text.isDigit_of_isBlank) fun _ c more hpoint => ?_
  cases hrest '.' (c :: more) hpoint

end Lexeme

/-! ### Texts of lexemes -/

/-- `Spaced ls cs`: the text consists of the lexemes in this order, with white space between neighbours
and perhaps at both ends. -/
inductive Spaced : List Lexeme → List Char → Prop where
  | nil : Spaced [] []
  | blank {c : Char} {ls : List Lexeme} {cs : List Char} :
      Text.isBlank c = true → Spaced ls cs → Spaced ls (c :: cs)
  | lexeme {l : Lexeme} {ls : List Lexeme} {cs : List Char} :
      StartsBlank cs → Spaced ls cs → Spaced (l :: ls) (l.text.toList ++ cs)

/-- `Cuts cs ls`: the text is cut into these lexemes, wherever it stands. -/
inductive Cuts : List Char → List Lexeme → Prop where
  | nil : Cuts [] []
  | blank {c : Char} {cs : List Char} {ls : List Lexeme} :
      Text.isBlank c = true → Cuts cs ls → Cuts (c :: cs) ls
  | lexeme {l : Lexeme} {cs rest : List Char} {ls : List Lexeme} :
      Lexeme.read? cs = some (l, rest) → Cuts rest ls → Cuts cs (l :: ls)

/-- A text of lexemes is cut into these lexemes, if each of them is read back. -/
theorem Spaced.cuts {ls : List Lexeme} {cs : List Char} (h : Spaced ls cs)
    (hls : ∀ l ∈ ls, l.ReadsBack) : Cuts cs ls := by
  induction h with
  | nil => exact .nil
  | blank hc _ ih => exact .blank hc (ih hls)
  | @lexeme l ls cs hblank _ ih =>
    obtain ⟨hl, hmore⟩ := List.forall_mem_cons.mp hls
    exact .lexeme (hl cs hblank) (ih hmore)

namespace Token

theorem scan_of_blank {c : Char} (h : Text.isBlank c = true) (pos : Nat) (rest : List Char) :
    scan pos (c :: rest) = scan (pos + 1) rest := by
  rw [scan, if_pos h]

/-- One lexeme at the head of a text. -/
theorem scan_of_read? {l : Lexeme} {cs rest : List Char} (h : Lexeme.read? cs = some (l, rest))
    (pos : Nat) : scan pos cs = (scan (pos + l.text.length) rest).map (⟨l, pos⟩ :: ·) := by
  cases cs with
  | nil => cases h
  | cons c more =>
    have hblank : Text.isBlank c ≠ true := by
      intro hblank
      rw [Lexeme.read?_eq_none_of_isBlank hblank] at h
      cases h
    rw [scan, if_neg hblank]
    split
    · rename_i hnone
      rw [h] at hnone
      cases hnone
    · rename_i hsome
      rw [h] at hsome
      cases hsome
      cases scan (pos + l.text.length) rest <;> rfl

/-- Nothing that begins a token. -/
theorem scan_of_read?_eq_none {c : Char} {rest : List Char} (hblank : ¬Text.isBlank c = true)
    (h : Lexeme.read? (c :: rest) = none) (pos : Nat) : scan pos (c :: rest) = .error ⟨c, pos⟩ := by
  rw [scan, if_neg hblank]
  split
  · rfl
  · rename_i hsome
    rw [h] at hsome
    cases hsome

/-- **What a text is cut into are the lexemes of its tokens.** -/
theorem scan_of_cuts {cs : List Char} {ls : List Lexeme} (h : Cuts cs ls) (pos : Nat) :
    ∃ tokens, scan pos cs = .ok tokens ∧ tokens.map Token.lexeme = ls := by
  induction h generalizing pos with
  | nil => exact ⟨[], by rw [scan], rfl⟩
  | blank hc _ ih =>
    obtain ⟨tokens, hscan, htokens⟩ := ih (pos + 1)
    exact ⟨tokens, by rw [scan_of_blank hc, hscan], htokens⟩
  | @lexeme l cs rest ls hread _ ih =>
    obtain ⟨tokens, hscan, htokens⟩ := ih (pos + l.text.length)
    refine ⟨⟨l, pos⟩ :: tokens, ?_, congrArg (l :: ·) htokens⟩
    rw [scan_of_read? hread, hscan]
    rfl

/-- **A text of lexemes is cut into these lexemes**, if each of them is read back. -/
theorem scan_of_spaced {ls : List Lexeme} {cs : List Char} (h : Spaced ls cs)
    (hls : ∀ l ∈ ls, l.ReadsBack) (pos : Nat) :
    ∃ tokens, scan pos cs = .ok tokens ∧ tokens.map Token.lexeme = ls :=
  scan_of_cuts (h.cuts hls) pos

end Token

/-- Lexemes joined by single spaces are a text of these lexemes. -/
theorem spaced_intercalate (ls : List Lexeme) :
    Spaced ls (String.intercalate " " (ls.map Lexeme.text)).toList := by
  have hspace : Text.isBlank ' ' = true := by decide
  rw [String.toList_intercalate]
  induction ls with
  | nil => exact .nil
  | cons l more ih =>
    cases more with
    | nil =>
      have hlast := Spaced.lexeme (l := l) Text.startsBlank_nil .nil
      rw [List.append_nil] at hlast
      simpa using hlast
    | cons next more =>
      have hmore := Spaced.lexeme (l := l) (Text.startsBlank_cons hspace _) (.blank hspace ih)
      simpa using hmore

end DecisionFlow
