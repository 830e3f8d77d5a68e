import DecisionFlow.Text.Hex
import DecisionFlow.Text.Printable

/-!
# Quoted texts in messages

A message that cites a text shows it between quotes on one line: the quote, backslashes and line
controls are escaped by a letter, and every other unprintable character by its code point.

* `quoteFor` — single quotes, unless the text holds a single quote and no double quote;
* `showChar` — one character inside the given quotes;
* `quoted` — the whole text.
-/

namespace DecisionFlow.Text

/-- The quote around a text: single, unless the text holds a single quote and no double one. -/
def quoteFor (cs : List Char) : Char :=
  if cs.contains '\'' && !cs.contains '"' then '"' else '\''

/-- A character by its code point, in the shortest of the three widths. -/
def codePointEscape (c : Char) : List Char :=
  if c.toNat < 0x100 then '\\' :: 'x' :: hexDigits 2 c.toNat
  else if c.toNat < 0x10000 then '\\' :: 'u' :: hexDigits 4 c.toNat
  else '\\' :: 'U' :: hexDigits 8 c.toNat

/-- One character as it stands between the given quotes. -/
def showChar (quote c : Char) : List Char :=
  if c = quote ∨ c = '\\' then ['\\', c]
  else if c = '\n' then ['\\', 'n']
  else if c = '\r' then ['\\', 'r']
  else if c = '\t' then ['\\', 't']
  else if isPrintable c then [c]
  else codePointEscape c

/-- A text between quotes, on one line. -/
def quoted (s : String) : String :=
  let quote := quoteFor s.toList
  String.ofList (quote :: s.toList.flatMap (showChar quote) ++ [quote])

/-! ### A quoted text stands on one line -/

theorem hexDigit_ne_newline : ∀ d, d < 16 → hexDigit d ≠ '\n' := by decide

theorem newline_not_mem_hexDigits (width n : Nat) : '\n' ∉ hexDigits width n := by
  induction width generalizing n with
  | zero => exact List.not_mem_nil
  | succ width ih =>
    simp only [hexDigits, List.mem_append, List.mem_singleton, not_or]
    exact ⟨ih (n / 16), (hexDigit_ne_newline _ (Nat.mod_lt _ (by decide))).symm⟩

theorem newline_not_mem_showChar {quote : Char} (hquote : quote ≠ '\n') (c : Char) :
    '\n' ∉ showChar quote c := by
  unfold showChar
  split
  · rename_i hc
    have hne : c ≠ '\n' := by
      rcases hc with rfl | rfl
      · exact hquote
      · decide
    simpa using hne.symm
  · split
    · decide
    · rename_i hne
      split
      · decide
      · split
        · decide
        · split
          · simpa using Ne.symm hne
          · unfold codePointEscape
            split
            · simpa using newline_not_mem_hexDigits 2 c.toNat
            · split
              · simpa using newline_not_mem_hexDigits 4 c.toNat
              · simpa using newline_not_mem_hexDigits 8 c.toNat

theorem newline_not_mem_quoted (s : String) : '\n' ∉ (quoted s).toList := by
  have hquote : quoteFor s.toList ≠ '\n' := by
    unfold quoteFor
    split <;> decide
  simp only [quoted, String.toList_ofList, List.mem_append, List.mem_cons, List.mem_flatMap,
    List.not_mem_nil, or_false, not_or]
  refine ⟨⟨hquote.symm, ?_⟩, hquote.symm⟩
  rintro ⟨c, -, hc⟩
  exact newline_not_mem_showChar hquote c hc

example : quoted "it's" = "\"it's\"" := by decide +kernel
example : quoted "both'\"\n" = "'both\\'\"\\n'" := by decide +kernel

end DecisionFlow.Text
