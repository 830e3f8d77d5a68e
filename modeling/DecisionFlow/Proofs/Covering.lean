import DecisionFlow.Proofs.Spacing

/-!
# What tokens cover

Tokenizing loses nothing: every character of a text belongs to just one token or is white space.  Each
token has a form of its kind and is as long as it can be.  Where tokenizing stops, no token begins.

* `Lexeme.Fits` — the characters of a lexeme have a form of its kind;
* `Lexeme.Ends` — a lexeme is not cut off where the rest begins;
* `Lexeme.read?_fits` — a lexeme that is read fits its kind and is not cut off;
* `Lexeme.read?_isSome` — where a lexeme stands that fits its kind, one is read;
* `Token.Stands`, `Covers` — a token stands at its position, and tokens cover a part of a text;
* `Scanned` — what may come of scanning a text; `Token.scanned_scan` says that this comes of it;
* `tokenize_covers` — all this for the tokens of a condition.
-/

namespace DecisionFlow

namespace Lexeme

/-! ### Forms and ends -/

/-- The characters of a lexeme have a form of its kind. -/
def Fits : Lexeme → Prop
  | number text => IsNumeral text
  | string text => ∃ quote cs body, (quote = '"' ∨ quote = '\'') ∧ Escapes quote cs body ∧
      text = String.ofList (quote :: (body ++ [quote]))
  | symbol s => s.text ∈ ["==", "!=", "<=", ">=", "&&", "||", "<", ">", "!", "(", ")"]
  | name text => IsName text

/-- No digit comes next. -/
def NoDigit (rest : List Char) : Prop := ∀ c ∈ rest.head?, Text.isDigit c = false

/-- No fraction comes next. -/
def NoFraction (rest : List Char) : Prop :=
  ∀ c more, rest = '.' :: c :: more → Text.isDigit c = false

/-- A lexeme is as long as it can be: no digit continues a number, nor does a fraction if it has none;
no letter continues a name; no equals sign makes a symbol of two characters out of one.  A string ends
with its own quote, so no other string stands there, neither a shorter nor a longer one. -/
def Ends (rest : List Char) : Lexeme → Prop
  | number text => NoDigit rest ∧ ('.' ∉ text.toList → NoFraction rest)
  | string text => ∀ other, (string other).Fits → other.toList <+: text.toList ++ rest → other = text
  | symbol s => s = .comparison .lt ∨ s = .comparison .gt ∨ s = .not → rest.head? ≠ some '='
  | name _ => ∀ c ∈ rest.head?, isNameChar c = false

/-! ### What is read fits and ends -/

/-- What is left after all characters of a class begins with none of it. -/
theorem head?_dropWhile {p : Char → Bool} {cs : List Char} :
    ∀ c ∈ (cs.dropWhile p).head?, p c = false := by
  intro c hc
  have hhead := List.head?_dropWhile_not p cs
  rw [Option.mem_def.mp hc] at hhead
  exact hhead

theorem of_mem_takeWhile {p : Char → Bool} {cs : List Char} :
    ∀ c ∈ cs.takeWhile p, p c = true := by
  intro c hc
  exact List.all_eq_true.mp (List.all_takeWhile) c hc

/-- After its digits, a number has a fraction or does not go on with one. -/
theorem readFraction_fits (cs : List Char) (hcs : NoDigit cs) :
    ∃ fraction, (readFraction cs).1 = pointed fraction ∧ (∀ c ∈ fraction, Text.isDigit c = true) ∧
      NoDigit (readFraction cs).2 ∧ (fraction = [] → NoFraction (readFraction cs).2) := by
  unfold readFraction
  split
  · rename_i c rest
    split
    · rename_i hdigit
      exact ⟨c :: rest.takeWhile Text.isDigit, rfl,
        List.forall_mem_cons.mpr ⟨hdigit, of_mem_takeWhile⟩, head?_dropWhile, fun h => nomatch h⟩
    · rename_i hdigit
      refine ⟨[], rfl, by simp, by simpa using hcs, ?_⟩
      rintro - _ _ ⟨⟩
      simpa using hdigit
  · rename_i hother
    refine ⟨[], rfl, by simp, hcs, ?_⟩
    rintro - c more rfl
    exact absurd rfl (hother c more)

/-- Digits are read with their fraction, and all of both. -/
theorem readUnsigned?_fits {cs digits rest : List Char}
    (h : readUnsigned? cs = some (digits, rest)) :
    ∃ whole fraction, digits = whole ++ pointed fraction ∧ whole ≠ [] ∧
      (∀ c ∈ whole, Text.isDigit c = true) ∧ (∀ c ∈ fraction, Text.isDigit c = true) ∧
      NoDigit rest ∧ (fraction = [] → NoFraction rest) := by
  obtain ⟨fraction, hpointed, hfraction, hhead, hpoint⟩ :=
    readFraction_fits (cs.dropWhile Text.isDigit) head?_dropWhile
  unfold readUnsigned? at h
  split at h
  · simp at h
  · rename_i hne
    simp only [Option.some.injEq, Prod.mk.injEq] at h
    obtain ⟨rfl, rfl⟩ := h
    exact ⟨_, fraction, congrArg _ hpointed, hne, of_mem_takeWhile, hfraction, hhead, hpoint⟩

/-- A number without a point has no fraction. -/
theorem eq_nil_of_no_point {negative : Bool} {whole fraction : List Char}
    (h : '.' ∉ (String.ofList (NumberFormat.withSign negative (whole ++ pointed fraction))).toList) :
    fraction = [] := by
  cases fraction with
  | nil => rfl
  | cons c more =>
    apply absurd _ h
    rw [String.toList_ofList]
    cases negative <;> simp [NumberFormat.withSign, pointed]

theorem readNumber?_fits {cs rest : List Char} {l : Lexeme} (h : readNumber? cs = some (l, rest)) :
    l.Fits ∧ l.Ends rest := by
  have hsigned (negative : Bool) {tail digits : List Char}
      (hread : readUnsigned? tail = some (digits, rest)) :
      (number (String.ofList (NumberFormat.withSign negative digits))).Fits ∧
        (number (String.ofList (NumberFormat.withSign negative digits))).Ends rest := by
    obtain ⟨whole, fraction, rfl, hne, hwhole, hfraction, hhead, hpoint⟩ := readUnsigned?_fits hread
    have hfits := IsNumeral.intro negative hne hwhole hfraction
    exact ⟨hfits, hhead, fun hno => hpoint (eq_nil_of_no_point hno)⟩
  unfold readNumber? at h
  split at h
  · simp only [Option.map_eq_some_iff, Prod.mk.injEq, Prod.exists] at h
    obtain ⟨digits, rest', hread, rfl, rfl⟩ := h
    exact hsigned true hread
  · simp only [Option.map_eq_some_iff, Prod.mk.injEq, Prod.exists] at h
    obtain ⟨digits, rest', hread, rfl, rfl⟩ := h
    exact hsigned false hread

/-- What is read up to a quote is a body with its quotes and backslashes escaped. -/
theorem readQuoted?_fits {quote : Char} {cs read rest : List Char}
    (h : readQuoted? quote cs = some (read, rest)) :
    ∃ chars body, read = body ++ [quote] ∧ Escapes quote chars body := by
  fun_induction readQuoted? quote cs generalizing read rest with
  | case1 => simp at h
  | case2 =>
    simp only [Option.some.injEq, Prod.mk.injEq] at h
    exact ⟨[], [], h.1.symm, .nil⟩
  | case3 => simp at h
  | case4 =>
    simp only [Option.some.injEq, Prod.mk.injEq] at h
    exact ⟨[], [], h.1.symm, .nil⟩
  | case5 => simp at h
  | case6 d rest' hline hne ih =>
    simp only [Option.map_eq_some_iff, Prod.mk.injEq, Prod.exists] at h
    obtain ⟨tail, more, hread, rfl, rfl⟩ := h
    obtain ⟨chars, body, rfl, hbody⟩ := ih hread
    exact ⟨d :: chars, '\\' :: d :: body, rfl, .escaped hline hbody⟩
  | case7 c d rest' hne hplain ih =>
    simp only [Option.map_eq_some_iff, Prod.mk.injEq, Prod.exists] at h
    obtain ⟨tail, more, hread, rfl, rfl⟩ := h
    obtain ⟨chars, body, rfl, hbody⟩ := ih hread
    exact ⟨c :: chars, c :: body, rfl, .plain hne hplain hbody⟩

/-- What fits a string is read, whatever comes after it. -/
theorem read?_of_fits_string {text : String} (h : (string text).Fits) (rest : List Char) :
    read? (text.toList ++ rest) = some (string text, rest) := by
  obtain ⟨quote, cs, body, hquote, hbody, rfl⟩ := h
  rw [String.toList_ofList, List.cons_append, List.append_assoc, List.singleton_append]
  exact read?_of_escapes hquote hbody rest

/-- **Strings end by themselves.** -/
theorem ends_string {text : String} (h : (string text).Fits) (rest : List Char) :
    (string text).Ends rest := by
  rintro other hother ⟨more, hmore⟩
  have hread := read?_of_fits_string h rest
  rw [← hmore, read?_of_fits_string hother more] at hread
  simp only [Option.some.injEq, Prod.mk.injEq, string.injEq] at hread
  exact hread.1

theorem readString?_fits {cs rest : List Char} {l : Lexeme} (h : readString? cs = some (l, rest)) :
    l.Fits ∧ l.Ends rest := by
  unfold readString? at h
  split at h
  · rename_i quote cs
    split at h
    · rename_i hquote
      simp only [Option.map_eq_some_iff, Prod.mk.injEq, Prod.exists] at h
      obtain ⟨read, more, hread, rfl, rfl⟩ := h
      obtain ⟨chars, body, rfl, hbody⟩ := readQuoted?_fits hread
      have hfits : (string (String.ofList (quote :: (body ++ [quote])))).Fits :=
        ⟨quote, chars, body, hquote, hbody, rfl⟩
      exact ⟨hfits, ends_string hfits more⟩
    · simp at h
  · simp at h

theorem fits_symbol (s : Symbol) : (symbol s).Fits := by
  cases s with
  | comparison c => cases c <;> simp [Fits, Symbol.text, Comparison.text]
  | connective c => cases c <;> simp [Fits, Symbol.text, Connective.text]
  | _ => simp [Fits, Symbol.text]

theorem readSymbol?_fits {cs rest : List Char} {s : Symbol} (h : readSymbol? cs = some (s, rest)) :
    (symbol s).Fits ∧ (symbol s).Ends rest := by
  refine ⟨fits_symbol s, fun hone hequals => ?_⟩
  -- With the equals sign there would be a symbol of two characters.
  obtain ⟨more, rfl⟩ := List.head?_eq_some_iff.mp hequals
  obtain ⟨rfl, -⟩ := readSymbol?_text h
  rcases hone with rfl | rfl | rfl
  · cases h
  · cases h
  · cases h

theorem readName?_fits {cs rest : List Char} {l : Lexeme} (h : readName? cs = some (l, rest)) :
    l.Fits ∧ l.Ends rest := by
  unfold readName? at h
  split at h
  · split at h
    · rename_i c cs hstart
      simp only [Option.some.injEq, Prod.mk.injEq] at h
      obtain ⟨rfl, rfl⟩ := h
      have hchars : ∀ d ∈ cs.takeWhile isNameChar, isNameChar d = true := of_mem_takeWhile
      exact ⟨IsName.intro hstart hchars, head?_dropWhile⟩
    · simp at h
  · simp at h

/-- **What is read fits its kind and ends where it should.** -/
theorem read?_fits {cs rest : List Char} {l : Lexeme} (h : read? cs = some (l, rest)) :
    l.Fits ∧ l.Ends rest := by
  unfold read? at h
  simp only [Option.or_eq_some_iff] at h
  rcases h with h | ⟨_, h | ⟨_, h | ⟨_, h⟩⟩⟩
  · exact readNumber?_fits h
  · exact readString?_fits h
  · simp only [Option.map_eq_some_iff, Prod.mk.injEq, Prod.exists] at h
    obtain ⟨s, more, hread, rfl, rfl⟩ := h
    exact readSymbol?_fits hread
  · exact readName?_fits h

/-! ### Where a lexeme stands, one is read -/

theorem readUnsigned?_isSome {c : Char} (h : Text.isDigit c = true) (cs : List Char) :
    (readUnsigned? (c :: cs)).isSome = true := by
  unfold readUnsigned?
  rw [List.takeWhile_cons_of_pos h]
  rfl

theorem readNumber?_isSome (negative : Bool) {c : Char} (h : Text.isDigit c = true) (cs : List Char) :
    (readNumber? (NumberFormat.withSign negative (c :: cs))).isSome = true := by
  have hunsigned := readUnsigned?_isSome h cs
  cases negative with
  | true =>
    show ((readUnsigned? (c :: cs)).map _).isSome = true
    rw [Option.isSome_map, hunsigned]
  | false =>
    show (readNumber? (c :: cs)).isSome = true
    unfold readNumber?
    split
    · rename_i hminus
      cases (List.cons.inj hminus).1
      cases h
    · rw [Option.isSome_map, hunsigned]

/-- Of the symbols that are the beginning of another one, at least this is read. -/
theorem readSymbol?_isSome (s : Symbol) (rest : List Char) :
    (readSymbol? (s.text.toList ++ rest)).isSome = true := by
  have hone {c : Char} (hc : c = '<' ∨ c = '>' ∨ c = '!') : (readSymbol? (c :: rest)).isSome = true := by
    unfold readSymbol?
    split <;> simp_all
  cases s with
  | comparison c =>
    cases c with
    | lt => exact hone (.inl rfl)
    | gt => exact hone (.inr (.inl rfl))
    | _ => rfl
  | connective c => cases c <;> rfl
  | not => exact hone (.inr (.inr rfl))
  | _ => rfl

/-- **Where a lexeme stands, one is read**, if perhaps a longer one. -/
theorem read?_isSome {l : Lexeme} (h : l.Fits) (rest : List Char) :
    (read? (l.text.toList ++ rest)).isSome = true := by
  cases l with
  | number text =>
    obtain ⟨negative, hne, hwhole, -⟩ := h
    rename_i whole fraction
    obtain ⟨c, more, rfl⟩ := List.exists_cons_of_ne_nil hne
    have hshape : (String.ofList (NumberFormat.withSign negative (c :: more ++ pointed fraction))).toList ++
        rest = NumberFormat.withSign negative (c :: (more ++ pointed fraction ++ rest)) := by
      rw [String.toList_ofList]
      cases negative <;> rfl
    have hread := readNumber?_isSome negative (hwhole c List.mem_cons_self)
      (more ++ pointed fraction ++ rest)
    show (read? ((String.ofList _).toList ++ rest)).isSome = true
    rw [hshape, read?, Option.isSome_or, hread]
    rfl
  | string text =>
    show (read? (text.toList ++ rest)).isSome = true
    rw [read?_of_fits_string h rest]
    rfl
  | symbol s =>
    have hread := readSymbol?_isSome s rest
    simp [read?, text, hread]
  | name text =>
    obtain ⟨hstart, -⟩ := h
    rename_i c cs
    show (read? ((String.ofList (c :: cs)).toList ++ rest)).isSome = true
    rw [String.toList_ofList, List.cons_append, read?_of_name hstart, readName?, if_pos hstart]
    rfl

end Lexeme

/-! ### Covering -/

/-- The position after a token. -/
def Token.stop (t : Token) : Nat := t.pos + t.lexeme.text.length

/-- A token stands in a text: from its position on come its characters, of which there are some; they
have a form of its kind and are not cut off. -/
structure Token.Stands (cs : List Char) (t : Token) : Prop where
  nonempty : t.lexeme.text.toList ≠ []
  spelled : cs.drop t.pos = t.lexeme.text.toList ++ cs.drop t.stop
  fits : t.lexeme.Fits
  ends : t.lexeme.Ends (cs.drop t.stop)

/-- The part of a text from one position to another is covered by tokens, which do not overlap, and by
white space. -/
structure Covers (cs : List Char) (start stop : Nat) (tokens : List Token) : Prop where
  le : start ≤ stop
  stands : ∀ t ∈ tokens, t.Stands cs
  within : ∀ t ∈ tokens, start ≤ t.pos ∧ t.stop ≤ stop
  apart : tokens.Pairwise fun t later => t.stop ≤ later.pos
  blank : ∀ i c, start ≤ i → i < stop → cs[i]? = some c → (∀ t ∈ tokens, i < t.pos ∨ t.stop ≤ i) →
    Text.isBlank c = true

/-- No token begins at the character where tokenizing stops, and it is no white space. -/
structure UnexpectedCharacter.Stops (cs : List Char) (e : UnexpectedCharacter) : Prop where
  found : cs[e.pos]? = some e.char
  no_blank : Text.isBlank e.char = false
  no_lexeme : ∀ l : Lexeme, l.Fits → ¬l.text.toList <+: cs.drop e.pos

namespace Token.Stands

variable {cs : List Char} {t : Token}

theorem pos_lt_stop (h : t.Stands cs) : t.pos < t.stop := by
  have hlength := List.length_pos_iff.mpr h.nonempty
  rw [String.length_toList] at hlength
  unfold Token.stop
  omega

theorem stop_le (h : t.Stands cs) : t.stop ≤ cs.length := by
  have hlength := congrArg List.length h.spelled
  have hpos := h.pos_lt_stop
  simp only [List.length_append, List.length_drop, String.length_toList] at hlength
  unfold Token.stop at *
  omega

/-- What is read in a text stands there. -/
theorem of_read? {l : Lexeme} {pos : Nat} {rest : List Char}
    (h : Lexeme.read? (cs.drop pos) = some (l, rest)) :
    Token.Stands cs ⟨l, pos⟩ ∧ cs.drop (Token.stop ⟨l, pos⟩) = rest := by
  obtain ⟨happend, hnonempty⟩ := Lexeme.read?_text h
  obtain ⟨hfits, hends⟩ := Lexeme.read?_fits h
  have hrest : cs.drop (Token.stop ⟨l, pos⟩) = rest := by
    show cs.drop (pos + l.text.length) = rest
    rw [← List.drop_drop, ← happend, ← String.length_toList, List.drop_left]
  rw [← hrest] at happend hends
  exact ⟨⟨hnonempty, happend.symm, hfits, hends⟩, hrest⟩

end Token.Stands

namespace Covers

variable {cs : List Char} {start stop : Nat} {tokens : List Token}

theorem nil (cs : List Char) (stop : Nat) : Covers cs stop stop [] where
  le := Nat.le_refl stop
  stands := nofun
  within := nofun
  apart := .nil
  blank _ _ hstart hstop := absurd hstart (Nat.not_le.mpr hstop)

/-- White space before what is covered. -/
theorem cons_blank {c : Char} (hc : cs[start]? = some c) (hblank : Text.isBlank c = true)
    (h : Covers cs (start + 1) stop tokens) : Covers cs start stop tokens where
  le := Nat.le_of_succ_le h.le
  stands := h.stands
  within t ht := ⟨Nat.le_of_succ_le (h.within t ht).1, (h.within t ht).2⟩
  apart := h.apart
  blank i d hstart hstop hd hout := by
    rcases Nat.eq_or_lt_of_le hstart with rfl | hlater
    · obtain rfl := Option.some.inj (hc.symm.trans hd)
      exact hblank
    · exact h.blank i d hlater hstop hd hout

/-- A token before what is covered. -/
theorem cons_token {t : Token} (ht : t.Stands cs) (h : Covers cs t.stop stop tokens) :
    Covers cs t.pos stop (t :: tokens) where
  le := Nat.le_trans (Nat.le_of_lt ht.pos_lt_stop) h.le
  stands := List.forall_mem_cons.mpr ⟨ht, h.stands⟩
  within := by
    have hlater : ∀ later ∈ tokens, t.pos ≤ later.pos ∧ later.stop ≤ stop := fun later hmem =>
      ⟨Nat.le_trans (Nat.le_of_lt ht.pos_lt_stop) (h.within later hmem).1, (h.within later hmem).2⟩
    exact List.forall_mem_cons.mpr ⟨⟨Nat.le_refl t.pos, h.le⟩, hlater⟩
  apart := List.pairwise_cons.mpr ⟨fun later hmem => (h.within later hmem).1, h.apart⟩
  blank i c hstart hstop hc hout := by
    obtain ⟨hfirst, hothers⟩ := List.forall_mem_cons.mp hout
    have hafter : t.stop ≤ i := hfirst.resolve_left (Nat.not_lt.mpr hstart)
    exact h.blank i c hafter hstop hc hothers

/-- Tokens come in the order of their positions. -/
theorem increasing (h : Covers cs start stop tokens) :
    tokens.Pairwise fun t later => t.pos < later.pos :=
  h.apart.imp_of_mem fun ht _ hapart => Nat.lt_of_lt_of_le (h.stands _ ht).pos_lt_stop hapart

end Covers

/-! ### Scanning -/

/-- What may come of scanning a text from a position on: tokens that cover the rest, or a character where
it stops, up to which there are tokens that cover the text. -/
inductive Scanned (cs : List Char) (start : Nat) : Except UnexpectedCharacter (List Token) → Prop where
  | done {tokens : List Token} : Covers cs start cs.length tokens → Scanned cs start (.ok tokens)
  | stopped {e : UnexpectedCharacter} {tokens : List Token} :
      Covers cs start e.pos tokens → e.Stops cs → Scanned cs start (.error e)

namespace Scanned

variable {cs : List Char} {result : Except UnexpectedCharacter (List Token)}

theorem cons_blank {start : Nat} {c : Char} (hc : cs[start]? = some c)
    (hblank : Text.isBlank c = true) (h : Scanned cs (start + 1) result) : Scanned cs start result := by
  cases h with
  | done hcovers => exact .done (hcovers.cons_blank hc hblank)
  | stopped hcovers hstops => exact .stopped (hcovers.cons_blank hc hblank) hstops

theorem cons_token {t : Token} (ht : t.Stands cs) (h : Scanned cs t.stop result) :
    Scanned cs t.pos (result.map (t :: ·)) := by
  cases h with
  | done hcovers => exact .done (hcovers.cons_token ht)
  | stopped hcovers hstops => exact .stopped (hcovers.cons_token ht) hstops

end Scanned

namespace Token

variable {cs : List Char} {pos : Nat} {rest : List Char}

/-- Scanning stops where no lexeme is read. -/
theorem stops_of_read?_eq_none {c : Char} (hrest : cs.drop pos = c :: rest)
    (hblank : Text.isBlank c = false) (hread : Lexeme.read? (c :: rest) = none) :
    UnexpectedCharacter.Stops cs ⟨c, pos⟩ where
  found := by
    rw [← List.head?_drop, hrest]
    rfl
  no_blank := hblank
  no_lexeme := by
    rintro l hfits ⟨more, hmore⟩
    have hsome := Lexeme.read?_isSome hfits more
    rw [hmore, hrest, hread] at hsome
    cases hsome

/-- A lexeme that is read is the first token, and scanning goes on after it. -/
theorem scanned_of_read? {l : Lexeme} {rest' : List Char} (hrest : cs.drop pos = rest)
    (hread : Lexeme.read? rest = some (l, rest'))
    (ih : cs.drop (pos + l.text.length) = rest' → pos + l.text.length ≤ cs.length →
      Scanned cs (pos + l.text.length) (scan (pos + l.text.length) rest')) :
    Scanned cs pos (scan pos rest) := by
  obtain ⟨hstands, hafter⟩ := Stands.of_read? (hrest ▸ hread)
  rw [scan_of_read? hread]
  exact (ih hafter hstands.stop_le).cons_token hstands

/-- **A text is covered by its tokens**, or else up to the character where scanning stops. -/
theorem scanned_scan (cs : List Char) (hrest : cs.drop pos = rest) (hpos : pos ≤ cs.length) :
    Scanned cs pos (scan pos rest) := by
  induction pos, rest using scan.induct with
  | case1 pos =>
    obtain rfl : pos = cs.length := Nat.le_antisymm hpos (List.drop_eq_nil_iff.mp hrest)
    rw [scan]
    exact .done (.nil cs cs.length)
  | case2 pos c rest hblank ih =>
    have hfound : cs[pos]? = some c := by
      rw [← List.head?_drop, hrest]
      rfl
    have hafter : cs.drop (pos + 1) = rest := by
      rw [← List.tail_drop, hrest]
      rfl
    have hlt : pos < cs.length := (List.getElem?_eq_some_iff.mp hfound).1
    rw [scan_of_blank hblank]
    exact (ih hafter hlt).cons_blank hfound hblank
  | case3 pos c rest hblank hread =>
    have hscan : scan pos (c :: rest) = .error ⟨c, pos⟩ := by
      rw [scan, if_neg hblank]
      split
      · rfl
      · simp_all
    rw [hscan]
    exact .stopped (.nil cs pos) (stops_of_read?_eq_none hrest (Bool.eq_false_iff.mpr hblank) hread)
  | case4 pos c rest hblank l rest' hread tokens hscan ih => exact scanned_of_read? hrest hread ih
  | case5 pos c rest hblank l rest' hread e hscan ih => exact scanned_of_read? hrest hread ih

end Token

/-- **Tokenizing loses nothing, and stops where it must.**  Either the whole text is covered by its tokens,
which come in order, do not overlap and are as long as they can be, and by white space between them.  Or
tokenizing stops at a character that is no white space and where no token begins, and up to there the text
is covered in the same way. -/
theorem tokenize_covers (text : String) :
    (∃ tokens, tokenize text = .ok tokens ∧ Covers text.toList 0 text.length tokens ∧
      tokens.Pairwise fun t later => t.pos < later.pos) ∨
    ∃ e tokens, tokenize text = .error e ∧ e.Stops text.toList ∧ Covers text.toList 0 e.pos tokens ∧
      tokens.Pairwise fun t later => t.pos < later.pos := by
  have hscanned : Scanned text.toList 0 (Token.scan 0 text.toList) :=
    Token.scanned_scan text.toList rfl (Nat.zero_le _)
  unfold tokenize
  generalize Token.scan 0 text.toList = result at hscanned
  cases hscanned with
  | done hcovers =>
    rw [String.length_toList] at hcovers
    exact .inl ⟨_, rfl, hcovers, hcovers.increasing⟩
  | stopped hcovers hstops => exact .inr ⟨_, _, rfl, hstops, hcovers, hcovers.increasing⟩

/-- Tokens of every kind, and a second fraction where there can be none. -/
theorem tokenize_covers_strings :
    let text : String := "!s=='it\\'s'&&x<=-1.5"
    let tokens : List Token := [⟨.symbol .not, 0⟩, ⟨.name "s", 1⟩, ⟨.symbol (.comparison .eq), 2⟩,
      ⟨.string "'it\\'s'", 4⟩, ⟨.symbol (.connective .and), 11⟩, ⟨.name "x", 13⟩,
      ⟨.symbol (.comparison .le), 14⟩, ⟨.number "-1.5", 16⟩]
    (tokenize text = .ok tokens ∧ Covers text.toList 0 text.length tokens) ∧
    ∃ e before, tokenize (text ++ ".5") = .error e ∧ e.Stops (text ++ ".5").toList ∧
      Covers (text ++ ".5").toList 0 e.pos before := by
  intro text tokens
  have hcut : (tokenize text).toOption = some tokens := by decide +kernel
  have hstops : (tokenize (text ++ ".5")).toOption = none := by decide +kernel
  constructor
  · rcases tokenize_covers text with ⟨found, hok, hcovers, -⟩ | ⟨e, before, herror, -⟩
    · rw [hok] at hcut
      obtain rfl : found = tokens := Option.some.inj hcut
      exact ⟨hok, hcovers⟩
    · rw [herror] at hcut
      cases hcut
  · rcases tokenize_covers (text ++ ".5") with ⟨found, hok, -⟩ | ⟨e, before, herror, hfound, hcovers, -⟩
    · rw [hok] at hstops
      cases hstops
    · exact ⟨e, before, herror, hfound, hcovers⟩

end DecisionFlow
