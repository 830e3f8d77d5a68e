import DecisionFlow.Proofs.Reach
import DecisionFlow.Proofs.Spacing

/-!
# Backslashes in strings

Between quotes, a quote of the same kind and a backslash take a backslash in front, and any other character
may.  However a string is written in this way, it is read back from one token, and no other string is
written so.  There is one exception: a line feed may stand between quotes, but not behind a backslash.

* `Literal.Marked` — a string with a mark at each character that is to take a backslash without need;
* `Literal.escaped`, `Literal.spelled` — such a string between quotes;
* `Literal.unescape_escaped` — what stands between the quotes is unescaped to the string;
* `Lexeme.readQuoted?_escaped` — it is read up to the closing quote, unless a line feed is marked;
* `parse_spelled` — how it is tokenized and parsed;
* `not_tokenize_spelled` — a line feed behind a backslash is no part of a token.
-/

namespace DecisionFlow

namespace Literal

/-- A string, character by character, with a mark at each that takes a backslash even without need. -/
abbrev Marked : Type := List (Char × Bool)

/-- The string without its marks. -/
def Marked.text (marked : Marked) : String := String.ofList (marked.map Prod.fst)

/-- The characters of a string between quotes of a kind: those that need a backslash take one, and so do
those that are marked. -/
def escaped (quote : Char) (marked : Marked) : List Char :=
  marked.flatMap fun p => if p.2 ∨ p.1 = quote ∨ p.1 = '\\' then ['\\', p.1] else [p.1]

/-- A string between quotes of a kind. -/
def spelled (quote : Char) (marked : Marked) : String :=
  String.ofList (quote :: (escaped quote marked ++ [quote]))

/-- A character that takes a backslash, in front of others. -/
theorem escaped_cons_of_pos {quote c : Char} {mark : Bool} (h : mark ∨ c = quote ∨ c = '\\')
    (marked : Marked) : escaped quote ((c, mark) :: marked) = '\\' :: c :: escaped quote marked := by
  rw [escaped, List.flatMap_cons, if_pos h]
  rfl

/-- A character that takes none, in front of others. -/
theorem escaped_cons_of_neg {quote c : Char} {mark : Bool} (h : ¬(mark ∨ c = quote ∨ c = '\\'))
    (marked : Marked) : escaped quote ((c, mark) :: marked) = c :: escaped quote marked := by
  rw [escaped, List.flatMap_cons, if_neg h]
  rfl

/-! ### Between the quotes -/

/-- **What is escaped is unescaped to what it was**, whatever is marked. -/
theorem unescape_escaped (quote : Char) (marked : Marked) :
    unescape (escaped quote marked) = marked.map Prod.fst := by
  induction marked with
  | nil => rfl
  | cons p more ih =>
    obtain ⟨c, mark⟩ := p
    by_cases h : mark ∨ c = quote ∨ c = '\\'
    · rw [escaped_cons_of_pos h, unescape, ih]
      rfl
    · have hbackslash : c ≠ '\\' := fun hc => h (.inr (.inr hc))
      rw [escaped_cons_of_neg h, unescape, ih]
      · rfl
      · exact fun _ _ hc _ => hbackslash hc

/-- The value of a spelled string is the string. -/
theorem stringValue_spelled (quote : Char) (marked : Marked) :
    stringValue (spelled quote marked) = marked.text := by
  rw [stringValue, spelled, String.toList_ofList, List.drop_succ_cons, List.drop_zero,
    List.dropLast_concat, unescape_escaped]
  rfl

end Literal

/-! ### Up to the closing quote -/

namespace Lexeme

open Literal (Marked escaped)

/-- **A spelled string is read up to its closing quote**, whatever comes after it, unless a line feed is
marked. -/
theorem readQuoted?_escaped {quote : Char} (hquote : quote = '"' ∨ quote = '\'') (marked : Marked)
    (rest : List Char) :
    readQuoted? quote (escaped quote marked ++ quote :: rest) =
      if ('\n', true) ∈ marked then none else some (escaped quote marked ++ [quote], rest) := by
  have hbackslash : quote ≠ '\\' := by rcases hquote with rfl | rfl <;> decide
  have hfeed : quote ≠ '\n' := by rcases hquote with rfl | rfl <;> decide
  induction marked with
  | nil => cases rest <;> simp [escaped, readQuoted?]
  | cons p more ih =>
    obtain ⟨c, mark⟩ := p
    by_cases h : mark ∨ c = quote ∨ c = '\\'
    · rw [Literal.escaped_cons_of_pos h, List.cons_append, List.cons_append,
        readQuoted?_backslash hbackslash, ih]
      by_cases hc : c = '\n'
      · -- neither the quote nor a backslash is a line feed, so it is there by its mark
        subst hc
        have hmark : mark = true := h.resolve_right (not_or.mpr ⟨hfeed.symm, by decide⟩)
        subst hmark
        rw [if_pos rfl, if_pos List.mem_cons_self]
      · have hmem : ('\n', true) ∈ (c, mark) :: more ↔ ('\n', true) ∈ more := by
          simp [Ne.symm hc]
        rw [if_neg hc]
        simp only [hmem]
        split <;> rfl
    · have hplain := h
      simp only [not_or] at hplain
      have hmem : ('\n', true) ∈ (c, mark) :: more ↔ ('\n', true) ∈ more := by
        simp [Ne.symm hplain.1]
      rw [Literal.escaped_cons_of_neg h, List.cons_append,
        readQuoted?_plain hplain.2.1 hplain.2.2, ih]
      simp only [hmem]
      split <;> rfl

end Lexeme

/-- A text that is read as one lexeme is one token. -/
theorem tokenize_of_read? {text : String} {l : Lexeme}
    (h : Lexeme.read? text.toList = some (l, [])) : tokenize text = .ok [⟨l, 0⟩] := by
  unfold tokenize
  rw [Token.scan_of_read? h, Token.scan]
  rfl

/-- A text at whose first character nothing is read has no token. -/
theorem tokenize_of_read?_eq_none {text : String} {c : Char} {cs : List Char}
    (htext : text.toList = c :: cs) (hblank : Text.isBlank c = false)
    (h : Lexeme.read? (c :: cs) = none) : tokenize text = .error ⟨c, 0⟩ := by
  unfold tokenize
  rw [htext]
  exact Token.scan_of_read?_eq_none (by rw [hblank]; exact nofun) h 0

/-- A string token is a literal by itself, at any depth. -/
theorem ofTokensWithin_string (depth : Nat) (text : String) :
    Expr.ofTokensWithin depth [⟨.string text, 0⟩] =
      .ok (.literal (.string (Literal.stringValue text))) := by
  rw [Expr.ofTokensWithin_eq]
  have hreach : ParseState.start.reach [⟨.string text, 0⟩] = 0 := rfl
  rw [hreach, Bounded.within_of_le _ (Nat.zero_le depth)]
  rfl

open Literal (Marked spelled)

/-- **A backslash escapes the next character, unless it is a line feed.**  Let a string be written between
quotes of a kind, with a backslash where one is needed and wherever else it is marked.  If no line feed is
marked, the text is one token, and parses to the string at any depth.  If one is, there is no token at all.
In both cases no other string is written as this text, between quotes of whatever kind. -/
theorem parse_spelled {quote : Char} (hquote : quote = '"' ∨ quote = '\'') (marked : Marked) :
    (('\n', true) ∉ marked →
      tokenize (spelled quote marked) = .ok [⟨.string (spelled quote marked), 0⟩] ∧
      Expr.parse (spelled quote marked) = .ok (.literal (.string marked.text)) ∧
      ∀ depth, Expr.parseWithin depth (spelled quote marked) = .ok (.literal (.string marked.text))) ∧
    (('\n', true) ∈ marked → tokenize (spelled quote marked) = .error ⟨quote, 0⟩) ∧
    ∀ quote' marked', spelled quote' marked' = spelled quote marked →
      Marked.text marked' = Marked.text marked := by
  have htext : (spelled quote marked).toList = quote :: (Literal.escaped quote marked ++ [quote]) :=
    String.toList_ofList
  have hread := Lexeme.read?_of_quote hquote (Literal.escaped quote marked ++ [quote])
  rw [Lexeme.readQuoted?_escaped hquote marked []] at hread
  refine ⟨fun hmark => ?_, fun hmark => ?_, fun quote' marked' hsame => ?_⟩
  · rw [if_neg hmark] at hread
    have hlexeme : Lexeme.read? (spelled quote marked).toList =
        some (.string (spelled quote marked), []) := by
      rw [htext]
      exact hread
    have htokens := tokenize_of_read? hlexeme
    refine ⟨htokens, ?_, fun depth => ?_⟩
    · rw [← Literal.stringValue_spelled quote marked]
      simp only [Expr.parse, htokens]
      rfl
    · rw [← Literal.stringValue_spelled quote marked]
      simp only [Expr.parseWithin, htokens]
      exact ofTokensWithin_string depth _
  · rw [if_pos hmark] at hread
    have hblank : Text.isBlank quote = false := by rcases hquote with rfl | rfl <;> decide
    exact tokenize_of_read?_eq_none htext hblank hread
  · rw [← Literal.stringValue_spelled quote' marked', hsame, Literal.stringValue_spelled]

/-- In `'\it\'s \\'` a letter takes a backslash without need. -/
theorem parse_spelled_apostrophe :
    let marked : Marked := [('i', true), ('t', false), ('\'', false), ('s', false), (' ', false), ('\\', false)]
    ('\n', true) ∉ marked ∧ spelled '\'' marked = "'\\it\\'s \\\\'" ∧
      Expr.parse (spelled '\'' marked) = .ok (.literal (.string "it's \\")) := by
  intro marked
  have hmark : ('\n', true) ∉ marked := by decide
  have hspelled : spelled '\'' marked = "'\\it\\'s \\\\'" := by decide +kernel
  have htext : Marked.text marked = "it's \\" := by decide +kernel
  exact ⟨hmark, hspelled, htext ▸ ((parse_spelled (.inr rfl) marked).1 hmark).2.1⟩

/-- **Not every character may follow a backslash**: a line feed that takes one is no part of a token, and
the quote in front of it begins none. -/
theorem not_tokenize_spelled :
    (¬∀ quote marked, quote = '"' ∨ quote = '\'' →
      tokenize (spelled quote marked) = .ok [⟨.string (spelled quote marked), 0⟩]) ∧
    spelled '"' [('\n', true)] = "\"\\\n\"" ∧ tokenize "\"\\\n\"" = .error ⟨'"', 0⟩ := by
  have hspelled : spelled '"' [('\n', true)] = "\"\\\n\"" := by decide +kernel
  have htext : "\"\\\n\"".toList = ['"', '\\', '\n', '"'] := by decide +kernel
  have herror : tokenize "\"\\\n\"" = .error ⟨'"', 0⟩ :=
    tokenize_of_read?_eq_none htext (by decide) (by decide)
  refine ⟨fun h => ?_, hspelled, herror⟩
  have hok := h '"' [('\n', true)] (.inl rfl)
  rw [hspelled, herror] at hok
  cases hok

end DecisionFlow
