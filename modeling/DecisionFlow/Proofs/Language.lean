import DecisionFlow.Proofs.Cutting
import DecisionFlow.Proofs.Escaping

/-!
# The tokens of the language

In the language of conditions a backslash takes along whatever character comes next.  This module says how
a text is cut into the tokens of the language, and that this is what the tokenizer does, but for one thing:
it does not know the strings in which a line feed stands behind a backslash.

* `Lexeme.Formed` — the lexemes of the language; `Lexeme.EscapesLineFeed` those that the tokenizer misses;
* `Lexeme.Formed.unique` — a text begins with one lexeme at most that is not cut off;
* `Lexes` — the tokens of a text, and the character at which they stop before its end;
* `exists_lexes`, `Lexes.unique` — every text has just one list of tokens;
* `Lexes.scan_eq`, `Lexes.scan_of_escapesLineFeed` — what the tokenizer makes of it.
-/

namespace DecisionFlow

/-! ### Spelled strings -/

namespace Literal

/-- **A spelled string ends at its own closing quote**, and nowhere else. -/
theorem escaped_append_inj {quote : Char} (hquote : quote ≠ '\\') {marked others : Marked}
    {rest rest' : List Char}
    (h : escaped quote marked ++ quote :: rest = escaped quote others ++ quote :: rest') :
    escaped quote marked = escaped quote others ∧ rest = rest' := by
  -- a string that goes on does not begin with its quote
  have hgoesOn (p : Char × Bool) (more : Marked) (tail tail' : List Char) :
      escaped quote (p :: more) ++ tail ≠ quote :: tail' := by
    intro hsame
    by_cases hp : p.2 ∨ p.1 = quote ∨ p.1 = '\\'
    · rw [escaped_cons_of_pos hp] at hsame
      exact hquote (List.cons.inj hsame).1.symm
    · rw [escaped_cons_of_neg hp] at hsame
      exact hp (.inr (.inl (List.cons.inj hsame).1))
  induction marked generalizing others with
  | nil =>
    cases others with
    | nil => exact ⟨rfl, (List.cons.inj h).2⟩
    | cons p more => exact absurd h.symm (hgoesOn p more _ _)
  | cons p more ih =>
    cases others with
    | nil => exact absurd h (hgoesOn p more _ _)
    | cons p' more' =>
      by_cases hp : p.2 ∨ p.1 = quote ∨ p.1 = '\\' <;> by_cases hp' : p'.2 ∨ p'.1 = quote ∨ p'.1 = '\\'
      · rw [escaped_cons_of_pos hp, escaped_cons_of_pos hp'] at h ⊢
        simp only [List.cons_append, List.cons.injEq, true_and] at h
        obtain ⟨hbody, hrest⟩ := ih h.2
        exact ⟨by rw [h.1, hbody], hrest⟩
      · rw [escaped_cons_of_pos hp, escaped_cons_of_neg hp'] at h
        exact absurd (.inr (.inr (List.cons.inj h).1.symm)) hp'
      · rw [escaped_cons_of_neg hp, escaped_cons_of_pos hp'] at h
        exact absurd (.inr (.inr (List.cons.inj h).1)) hp
      · rw [escaped_cons_of_neg hp, escaped_cons_of_neg hp'] at h ⊢
        obtain ⟨hbody, hrest⟩ := ih (List.cons.inj h).2
        exact ⟨by rw [(List.cons.inj h).1, hbody], hrest⟩

/-- A spelled string in front of others. -/
theorem toList_spelled_append (quote : Char) (marked : Marked) (rest : List Char) :
    (spelled quote marked).toList ++ rest = quote :: (escaped quote marked ++ quote :: rest) := by
  rw [spelled, String.toList_ofList, List.cons_append, List.append_assoc]
  rfl

/-- Two spelled strings in front of others are the same. -/
theorem spelled_append_inj {quote quote' : Char} (hquote : quote = '"' ∨ quote = '\'')
    {marked others : Marked} {rest rest' : List Char}
    (h : (spelled quote marked).toList ++ rest = (spelled quote' others).toList ++ rest') :
    spelled quote marked = spelled quote' others ∧ rest = rest' := by
  rw [toList_spelled_append, toList_spelled_append] at h
  obtain ⟨rfl, hbody⟩ := List.cons.inj h
  have hbackslash : quote ≠ '\\' := by rcases hquote with rfl | rfl <;> decide
  obtain ⟨hescaped, hrest⟩ := escaped_append_inj hbackslash hbody
  exact ⟨by rw [spelled, hescaped, spelled], hrest⟩

end Literal

/-! ### Lexemes of the language -/

namespace Lexeme

open Literal (Marked escaped spelled)

/-- The characters of a lexeme have a form that the language gives to its kind.  In a string a backslash may
take along any character. -/
def Formed : Lexeme → Prop
  | string text => ∃ quote marked, (quote = '"' ∨ quote = '\'') ∧ text = spelled quote marked
  | number text => (number text).Fits
  | symbol s => (symbol s).Fits
  | name text => (name text).Fits

/-- A lexeme is a string in which a line feed stands behind a backslash. -/
def EscapesLineFeed : Lexeme → Prop
  | string text => ∃ quote marked, (quote = '"' ∨ quote = '\'') ∧ text = spelled quote marked ∧
      ('\n', true) ∈ marked
  | number _ | symbol _ | name _ => False

/-- Where no line feed is marked, what is escaped is so in the tokenizer's sense. -/
theorem escapes_escaped {quote : Char} (hquote : quote = '"' ∨ quote = '\'') {marked : Marked}
    (hmark : ('\n', true) ∉ marked) : Escapes quote (marked.map Prod.fst) (escaped quote marked) := by
  induction marked with
  | nil => exact .nil
  | cons p more ih =>
    have hmore := ih fun hmem => hmark (List.mem_cons_of_mem p hmem)
    obtain ⟨c, mark⟩ := p
    by_cases hp : mark ∨ c = quote ∨ c = '\\'
    · rw [Literal.escaped_cons_of_pos hp]
      refine .escaped ?_ hmore
      rintro rfl
      rcases hp with hp | hp | hp
      · exact hmark (hp ▸ List.mem_cons_self)
      · subst hp
        rcases hquote with hquote | hquote <;> cases hquote
      · cases hp
    · rw [Literal.escaped_cons_of_neg hp]
      simp only [not_or] at hp
      exact .plain hp.2.1 hp.2.2 hmore

/-- What the tokenizer takes for escaped can be marked, without a line feed. -/
theorem exists_marked_of_escapes {quote : Char} {cs body : List Char} (h : Escapes quote cs body) :
    ∃ marked : Marked, body = escaped quote marked ∧ ('\n', true) ∉ marked := by
  induction h with
  | nil => exact ⟨[], rfl, nofun⟩
  | @plain c cs body hquote hbackslash _ ih =>
    obtain ⟨marked, rfl, hmark⟩ := ih
    refine ⟨(c, false) :: marked, ?_, by simpa using hmark⟩
    rw [Literal.escaped_cons_of_neg (by simp [hquote, hbackslash])]
  | @escaped c cs body hfeed _ ih =>
    obtain ⟨marked, rfl, hmark⟩ := ih
    refine ⟨(c, true) :: marked, ?_, ?_⟩
    · rw [Literal.escaped_cons_of_pos (.inl rfl)]
    · simp [hmark, Ne.symm hfeed]

theorem Fits.formed {l : Lexeme} (h : l.Fits) : l.Formed := by
  cases l with
  | string text =>
    obtain ⟨quote, cs, body, hquote, hbody, rfl⟩ := h
    obtain ⟨marked, rfl, -⟩ := exists_marked_of_escapes hbody
    exact ⟨quote, marked, hquote, rfl⟩
  | number _ | symbol _ | name _ => exact h

/-- The lexemes of the language that escape no line feed are those of the tokenizer. -/
theorem Formed.fits {l : Lexeme} (h : l.Formed) (hfeed : ¬l.EscapesLineFeed) : l.Fits := by
  cases l with
  | string text =>
    obtain ⟨quote, marked, hquote, rfl⟩ := h
    have hmark : ('\n', true) ∉ marked := fun hmark => hfeed ⟨quote, marked, hquote, rfl, hmark⟩
    exact ⟨quote, _, _, hquote, escapes_escaped hquote hmark, rfl⟩
  | number _ | symbol _ | name _ => exact h

/-- Where a string stands that escapes a line feed, the tokenizer reads nothing. -/
theorem EscapesLineFeed.read?_eq_none {l : Lexeme} (h : l.EscapesLineFeed) (rest : List Char) :
    ∃ quote cs, (quote = '"' ∨ quote = '\'') ∧ l.text.toList ++ rest = quote :: cs ∧
      read? (quote :: cs) = none := by
  cases l with
  | string text =>
    obtain ⟨quote, marked, hquote, rfl, hmark⟩ := h
    refine ⟨quote, _, hquote, Literal.toList_spelled_append quote marked rest, ?_⟩
    rw [read?_of_quote hquote, readQuoted?_escaped hquote, if_pos hmark]
    rfl
  | number _ | symbol _ | name _ => exact h.elim

/-- A string of the language is not cut off by anything. -/
theorem Formed.ends_string {text : String} (h : (string text).Formed) (rest : List Char) :
    (string text).Ends rest := by
  rintro other hother ⟨more, hmore⟩
  obtain ⟨quote, marked, hquote, rfl⟩ := h
  obtain ⟨quote', others, hquote', rfl⟩ := Fits.formed hother
  exact (Literal.spelled_append_inj hquote' hmore).1

/-- No lexeme begins with white space. -/
theorem Formed.isBlank_eq_false {l : Lexeme} (h : l.Formed) {rest cs : List Char} {c : Char}
    (hhead : l.text.toList ++ rest = c :: cs) : Text.isBlank c = false := by
  by_cases hfeed : l.EscapesLineFeed
  · obtain ⟨quote, tail, hquote, htext, -⟩ := hfeed.read?_eq_none rest
    obtain ⟨rfl, -⟩ := List.cons.inj (hhead.symm.trans htext)
    rcases hquote with rfl | rfl <;> decide
  · have hread := read?_isSome (h.fits hfeed) rest
    rw [hhead] at hread
    cases hblank : Text.isBlank c with
    | false => rfl
    | true =>
      rw [read?_eq_none_of_isBlank hblank] at hread
      cases hread

theorem Formed.text_ne_nil {l : Lexeme} (h : l.Formed) : l.text.toList ≠ [] := by
  by_cases hfeed : l.EscapesLineFeed
  · obtain ⟨quote, cs, -, htext, -⟩ := hfeed.read?_eq_none []
    rw [List.append_nil] at htext
    rw [htext]
    exact List.cons_ne_nil quote cs
  · intro hnil
    have hread := read?_isSome (h.fits hfeed) []
    rw [hnil] at hread
    cases hread

/-- **A text begins with one lexeme at most**, if lexemes are not to be cut off. -/
theorem Formed.unique {l m : Lexeme} {rest rest' : List Char} (hl : l.Formed) (hm : m.Formed)
    (hends : l.Ends rest) (hends' : m.Ends rest')
    (hsame : l.text.toList ++ rest = m.text.toList ++ rest') : l = m ∧ rest = rest' := by
  by_cases hfeed : l.EscapesLineFeed <;> by_cases hfeed' : m.EscapesLineFeed
  · cases l with
    | string text =>
      cases m with
      | string other =>
        obtain ⟨quote, marked, hquote, rfl⟩ := hl
        obtain ⟨quote', others, -, rfl⟩ := hm
        obtain ⟨htext, hrest⟩ := Literal.spelled_append_inj hquote hsame
        exact ⟨by rw [htext], hrest⟩
      | number _ | symbol _ | name _ => exact hfeed'.elim
    | number _ | symbol _ | name _ => exact hfeed.elim
  · obtain ⟨quote, cs, -, htext, hnone⟩ := hfeed.read?_eq_none rest
    rw [← htext, hsame, read?_of_ends (hm.fits hfeed') hends'] at hnone
    cases hnone
  · obtain ⟨quote, cs, -, htext, hnone⟩ := hfeed'.read?_eq_none rest'
    rw [← htext, ← hsame, read?_of_ends (hl.fits hfeed) hends] at hnone
    cases hnone
  · have hread := read?_of_ends (hl.fits hfeed) hends
    rw [hsame, read?_of_ends (hm.fits hfeed') hends'] at hread
    obtain ⟨hlexeme, hrest⟩ := Prod.mk.inj (Option.some.inj hread)
    exact ⟨hlexeme.symm, hrest.symm⟩

end Lexeme

/-! ### Texts -/

/-- `Lexes pos cs tokens stop`: characters, of which the first has the given position, are the tokens with
white space between them, up to their end or to a character that begins no lexeme. -/
inductive Lexes : Nat → List Char → List Token → Option UnexpectedCharacter → Prop where
  | done (pos : Nat) : Lexes pos [] [] none
  | blank {pos : Nat} {c : Char} {rest : List Char} {tokens : List Token}
      {stop : Option UnexpectedCharacter} :
      Text.isBlank c = true → Lexes (pos + 1) rest tokens stop → Lexes pos (c :: rest) tokens stop
  | token {pos : Nat} {l : Lexeme} {rest : List Char} {tokens : List Token}
      {stop : Option UnexpectedCharacter} :
      l.Formed → l.Ends rest → Lexes (pos + l.text.length) rest tokens stop →
      Lexes pos (l.text.toList ++ rest) (⟨l, pos⟩ :: tokens) stop
  | stopped {pos : Nat} {c : Char} {rest : List Char} :
      Text.isBlank c = false → (∀ l : Lexeme, l.Formed → ¬l.text.toList <+: c :: rest) →
      Lexes pos (c :: rest) [] (some ⟨c, pos⟩)

/-- At a character that is no white space, a text begins with a lexeme that is not cut off, or with none. -/
theorem Lexeme.exists_formed_or (c : Char) (rest : List Char) :
    (∃ l : Lexeme, ∃ more, c :: rest = l.text.toList ++ more ∧ l.Formed ∧ l.Ends more) ∨
      ∀ l : Lexeme, l.Formed → ¬l.text.toList <+: c :: rest := by
  cases hread : read? (c :: rest) with
  | some found =>
    obtain ⟨l, more⟩ := found
    obtain ⟨htext, hfits, hends⟩ := read?_eq_some_iff.mp hread
    exact .inl ⟨l, more, htext, hfits.formed, hends⟩
  | none =>
    by_cases hsome : ∃ l : Lexeme, l.Formed ∧ l.text.toList <+: c :: rest
    · obtain ⟨l, hformed, more, hmore⟩ := hsome
      have hfeed : l.EscapesLineFeed := by
        refine Classical.byContradiction fun hfeed => ?_
        have hisSome := read?_isSome (hformed.fits hfeed) more
        rw [hmore, hread] at hisSome
        cases hisSome
      cases l with
      | string text => exact .inl ⟨.string text, more, hmore.symm, hformed, hformed.ends_string more⟩
      | number _ | symbol _ | name _ => exact hfeed.elim
    · exact .inr fun l hformed hstands => hsome ⟨l, hformed, hstands⟩

/-- **Every text has tokens**, up to its end or up to where they stop. -/
theorem exists_lexes (pos : Nat) (cs : List Char) : ∃ tokens stop, Lexes pos cs tokens stop := by
  induction hlength : cs.length using Nat.strongRecOn generalizing pos cs with
  | ind length ih =>
    cases cs with
    | nil => exact ⟨[], none, .done pos⟩
    | cons c rest =>
      subst hlength
      cases hblank : Text.isBlank c with
      | true =>
        obtain ⟨tokens, stop, hrest⟩ := ih rest.length (Nat.lt_succ_self _) (pos + 1) rest rfl
        exact ⟨tokens, stop, .blank hblank hrest⟩
      | false =>
        obtain ⟨l, more, htext, hformed, hends⟩ | hnone := Lexeme.exists_formed_or c rest
        · have hless : more.length < (c :: rest).length := by
            have hpos := List.length_pos_iff.mpr hformed.text_ne_nil
            rw [htext, List.length_append]
            omega
          obtain ⟨tokens, stop, hmore⟩ := ih more.length hless (pos + l.text.length) more rfl
          rw [htext]
          exact ⟨_, stop, .token hformed hends hmore⟩
        · exact ⟨[], _, .stopped hblank hnone⟩

namespace Lexes

variable {pos : Nat} {cs : List Char} {tokens others : List Token} {stop stop' : Option UnexpectedCharacter}

/-- **A text has its tokens in one way only**, by induction on the way. -/
theorem unique (h : Lexes pos cs tokens stop) (h' : Lexes pos cs others stop') :
    tokens = others ∧ stop = stop' := by
  induction h generalizing others with
  | done pos =>
    generalize hcs : ([] : List Char) = cs at h'
    cases h' with
    | done => exact ⟨rfl, rfl⟩
    | blank | stopped => cases hcs
    | token hformed =>
      exact absurd (List.append_eq_nil_iff.mp hcs.symm).1 hformed.text_ne_nil
  | @blank pos c rest tokens stop hblank _ ih =>
    generalize hcs : c :: rest = cs at h'
    cases h' with
    | done => cases hcs
    | blank _ hrest =>
      obtain ⟨-, rfl⟩ := List.cons.inj hcs
      exact ih hrest
    | token hformed =>
      rw [hformed.isBlank_eq_false hcs.symm] at hblank
      cases hblank
    | stopped hblank' =>
      obtain ⟨rfl, -⟩ := List.cons.inj hcs
      rw [hblank] at hblank'
      cases hblank'
  | @token pos l rest tokens stop hformed hends _ ih =>
    generalize hcs : l.text.toList ++ rest = cs at h'
    cases h' with
    | done => exact absurd (List.append_eq_nil_iff.mp hcs).1 hformed.text_ne_nil
    | blank hblank =>
      rw [hformed.isBlank_eq_false hcs] at hblank
      cases hblank
    | token hformed' hends' hrest =>
      obtain ⟨rfl, rfl⟩ := hformed.unique hformed' hends hends' hcs
      obtain ⟨rfl, hstop⟩ := ih hrest
      exact ⟨rfl, hstop⟩
    | stopped _ hnone => exact absurd ⟨rest, hcs⟩ (hnone l hformed)
  | @stopped pos c rest hblank hnone =>
    generalize hcs : c :: rest = cs at h'
    cases h' with
    | done => cases hcs
    | blank hblank' =>
      obtain ⟨rfl, -⟩ := List.cons.inj hcs
      rw [hblank] at hblank'
      cases hblank'
    | token hformed => exact absurd ⟨_, hcs.symm⟩ (hnone _ hformed)
    | stopped =>
      obtain ⟨rfl, -⟩ := List.cons.inj hcs
      exact ⟨rfl, rfl⟩

/-- **The tokenizer finds the tokens of the language**, if none of them escapes a line feed. -/
theorem scan_eq (h : Lexes pos cs tokens stop)
    (hfeeds : ∀ t ∈ tokens, ¬t.lexeme.EscapesLineFeed) :
    Token.scan pos cs = (stop.map Except.error).getD (.ok tokens) := by
  induction h with
  | done pos =>
    rw [Token.scan]
    rfl
  | blank hblank _ ih => rw [Token.scan_of_blank hblank, ih hfeeds]
  | @token pos l rest tokens stop hformed hends _ ih =>
    have hfits := hformed.fits (hfeeds ⟨l, pos⟩ List.mem_cons_self)
    rw [Token.scan_of_read? (Lexeme.read?_of_ends hfits hends),
      ih fun t ht => hfeeds t (List.mem_cons_of_mem _ ht)]
    cases stop <;> rfl
  | @stopped pos c rest hblank hnone =>
    refine Token.scan_of_read?_eq_none (by rw [hblank]; exact Bool.false_ne_true) ?_ pos
    cases hread : Lexeme.read? (c :: rest) with
    | none => rfl
    | some found =>
      obtain ⟨htext, hfits, -⟩ := Lexeme.read?_eq_some_iff.mp hread
      exact absurd ⟨found.2, htext.symm⟩ (hnone found.1 hfits.formed)

/-- **The tokenizer stops at the first string that escapes a line feed**: its quote begins no token there. -/
theorem scan_of_escapesLineFeed (h : Lexes pos cs tokens stop)
    (hfeeds : ∃ t ∈ tokens, t.lexeme.EscapesLineFeed) :
    ∃ t ∈ tokens, t.lexeme.EscapesLineFeed ∧
      ∃ quote, (quote = '"' ∨ quote = '\'') ∧ Token.scan pos cs = .error ⟨quote, t.pos⟩ := by
  induction h with
  | done | stopped =>
    obtain ⟨t, ht, -⟩ := hfeeds
    cases ht
  | blank hblank _ ih =>
    rw [Token.scan_of_blank hblank]
    exact ih hfeeds
  | @token pos l rest tokens stop hformed hends _ ih =>
    by_cases hfeed : l.EscapesLineFeed
    · obtain ⟨quote, more, hquote, htext, hnone⟩ := hfeed.read?_eq_none rest
      refine ⟨⟨l, pos⟩, List.mem_cons_self, hfeed, quote, hquote, ?_⟩
      have hblank := hformed.isBlank_eq_false htext
      rw [htext]
      exact Token.scan_of_read?_eq_none (by rw [hblank]; exact Bool.false_ne_true) hnone pos
    · obtain ⟨first, hfirst, hescapes⟩ := hfeeds
      have hlater : ∃ t ∈ tokens, t.lexeme.EscapesLineFeed := by
        rcases List.mem_cons.mp hfirst with rfl | hmem
        · exact absurd hescapes hfeed
        · exact ⟨first, hmem, hescapes⟩
      obtain ⟨t, ht, htfeed, quote, hquote, hscan⟩ := ih hlater
      refine ⟨t, List.mem_cons_of_mem _ ht, htfeed, quote, hquote, ?_⟩
      rw [Token.scan_of_read? (Lexeme.read?_of_ends (hformed.fits hfeed) hends), hscan]
      rfl

end Lexes

end DecisionFlow
