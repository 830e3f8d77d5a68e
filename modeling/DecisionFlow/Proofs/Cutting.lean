import DecisionFlow.Proofs.Covering

/-!
# Where one text ends and another begins

What is read at the head of a text depends on the first characters behind it only, and not at all if
white space or a closing parenthesis comes there.  So a text that is cut into lexemes is cut into the
same ones in front of such a character, wherever it stands.

* `Lexeme.read?_eq_some_iff` — a lexeme is read exactly where its characters stand and are not cut off;
* `Lexeme.Delimits` — a text begins with nothing that continues a lexeme;
* `cuts_of_tokenize` — the lexemes of the tokens of a text are what it is cut into;
* `Cuts.append` — two texts one after the other are cut into the lexemes of both.
-/

namespace DecisionFlow

open Text (StartsBlank)

namespace Lexeme

variable {l : Lexeme} {cs rest tail : List Char}

/-! ### Reading is decided by what comes next -/

/-- A lexeme that is not cut off is read back. -/
theorem read?_of_ends (hfits : l.Fits) (hends : l.Ends rest) :
    read? (l.text.toList ++ rest) = some (l, rest) := by
  cases l with
  | number text => exact read?_number_append hfits hends.1 hends.2
  | string text => exact read?_of_fits_string hfits rest
  | symbol s => exact read?_symbol_append s hends
  | name text => exact read?_name_append hfits hends

/-- **A lexeme is read exactly where it stands and is not cut off.** -/
theorem read?_eq_some_iff :
    read? cs = some (l, rest) ↔ cs = l.text.toList ++ rest ∧ l.Fits ∧ l.Ends rest := by
  constructor
  · intro h
    exact ⟨(read?_text h).1.symm, read?_fits h⟩
  · rintro ⟨rfl, hfits, hends⟩
    exact read?_of_ends hfits hends

/-- A text is empty or begins with white space or with a closing parenthesis. -/
def Delimits (tail : List Char) : Prop := ∀ c ∈ tail.head?, Text.isBlank c = true ∨ c = ')'

theorem delimits_closing (tail : List Char) : Delimits (')' :: tail) := by
  rintro c ⟨⟩
  exact .inr rfl

theorem delimits_of_startsBlank (h : StartsBlank tail) : Delimits tail := by
  intro c hc
  obtain ⟨more, rfl⟩ := List.head?_eq_some_iff.mp hc
  exact .inl (h c more rfl)

/-- What delimits a text continues no lexeme. -/
theorem Delimits.not_continues (h : Delimits tail) :
    ∀ c ∈ tail.head?, Text.isDigit c = false ∧ isNameChar c = false ∧ c ≠ '.' ∧ c ≠ '=' := by
  intro c hc
  rcases h c hc with hblank | rfl
  · refine ⟨Text.isDigit_of_isBlank hblank, isNameChar_of_isBlank hblank, ?_, ?_⟩
    · rintro rfl
      cases hblank
    · rintro rfl
      cases hblank
  · decide

theorem NoDigit.append (h : NoDigit rest) (htail : Delimits tail) : NoDigit (rest ++ tail) := by
  cases rest with
  | nil => exact fun c hc => (htail.not_continues c hc).1
  | cons c more => exact h

theorem NoFraction.append (h : NoFraction rest) (htail : Delimits tail) :
    NoFraction (rest ++ tail) := by
  intro c more hpoint
  rcases List.append_eq_cons_iff.mp hpoint with ⟨rfl, rfl⟩ | ⟨after, rfl, happend⟩
  · exact absurd rfl (htail.not_continues '.' rfl).2.2.1
  · rcases List.cons_eq_append_iff.mp happend with ⟨rfl, rfl⟩ | ⟨last, rfl, rfl⟩
    · exact (htail.not_continues c rfl).1
    · exact h c last rfl

/-- **A delimiter cuts nothing off.**  A lexeme that is not cut off where a text goes on is not cut off
either where a delimiter comes after this text. -/
theorem Ends.append (hfits : l.Fits) (hends : l.Ends rest) (htail : Delimits tail) :
    l.Ends (rest ++ tail) := by
  cases l with
  | number text => exact ⟨hends.1.append htail, fun hpoint => (hends.2 hpoint).append htail⟩
  | string text => exact ends_string hfits (rest ++ tail)
  | symbol s =>
    intro hone hequals
    cases rest with
    | nil => exact (htail.not_continues '=' hequals).2.2.2 rfl
    | cons c more => exact hends hone hequals
  | name text =>
    cases rest with
    | nil => exact fun c hc => (htail.not_continues c hc).2.1
    | cons c more => exact hends

/-- What is read at the head of a text is also read where a delimiter comes after the text. -/
theorem read?_append (h : read? cs = some (l, rest)) (htail : Delimits tail) :
    read? (cs ++ tail) = some (l, rest ++ tail) := by
  obtain ⟨rfl, hfits, hends⟩ := read?_eq_some_iff.mp h
  rw [List.append_assoc]
  exact read?_of_ends hfits (Ends.append hfits hends htail)

/-- At the end of a text nothing is cut off. -/
theorem ends_nil (h : l.Fits) : l.Ends [] := by
  cases l with
  | number text => exact ⟨nofun, fun _ => nofun⟩
  | string text => exact ends_string h []
  | symbol s => exact fun _ => nofun
  | name text => exact nofun

theorem readsBack_of_fits (h : l.Fits) : l.ReadsBack := fun _ hblank =>
  read?_of_ends h (Ends.append h (ends_nil h) (delimits_of_startsBlank hblank))

end Lexeme

/-! ### Texts one after the other -/

theorem cuts_of_scan {pos : Nat} {cs : List Char} {tokens : List Token}
    (h : Token.scan pos cs = .ok tokens) : Cuts cs (tokens.map Token.lexeme) := by
  induction pos, cs using Token.scan.induct generalizing tokens with
  | case1 pos =>
    rw [Token.scan] at h
    cases h
    exact .nil
  | case2 pos c rest hblank ih =>
    rw [Token.scan_of_blank hblank] at h
    exact .blank hblank (ih h)
  | case3 pos c rest hblank hread =>
    rw [Token.scan_of_read?_eq_none hblank hread] at h
    cases h
  | case4 pos c rest hblank l rest' hread more hscan ih =>
    rw [Token.scan_of_read? hread, hscan] at h
    cases h
    exact .lexeme hread (ih hscan)
  | case5 pos c rest hblank l rest' hread e hscan ih =>
    rw [Token.scan_of_read? hread, hscan] at h
    cases h

/-- The lexemes of the tokens of a text are what the text is cut into. -/
theorem cuts_of_tokenize {text : String} {tokens : List Token} (h : tokenize text = .ok tokens) :
    Cuts text.toList (tokens.map Token.lexeme) := cuts_of_scan h

namespace Cuts

variable {cs tail : List Char} {ls ms : List Lexeme}

theorem fits (h : Cuts cs ls) : ∀ l ∈ ls, l.Fits := by
  induction h with
  | nil => exact nofun
  | blank _ _ ih => exact ih
  | lexeme hread _ ih => exact List.forall_mem_cons.mpr ⟨(Lexeme.read?_fits hread).1, ih⟩

/-- **Two texts one after the other** are cut into the lexemes of both, if the second one begins with
nothing that continues a lexeme. -/
theorem append (h : Cuts cs ls) (htail : Lexeme.Delimits tail) (hms : Cuts tail ms) :
    Cuts (cs ++ tail) (ls ++ ms) := by
  induction h with
  | nil => exact hms
  | blank hblank _ ih => exact .blank hblank ih
  | lexeme hread _ ih => exact .lexeme (Lexeme.read?_append hread htail) ih

end Cuts

end DecisionFlow
