import DecisionFlow.Number.Basic
import DecisionFlow.Text.Blank

/-!
# Tokens of conditions

A condition is read as a list of tokens, each with its position, between optional white space. Every
token is as long as it can be.

* `Lexeme`, `Token` — numbers, quoted strings, symbols and names;
* `Lexeme.read?` — the lexeme at the head of a text, and the rest;
* `Lexeme.read?_text` — a lexeme is not empty and stands at the head of the text it was read from;
* `Token.scan`, `tokenize` — the tokens of a text, or the first character that begins none.
-/

namespace DecisionFlow

/-- The two connectives. -/
inductive Connective where
  /-- Conjunction. -/
  | and
  /-- Disjunction. -/
  | or
deriving DecidableEq, Repr

/-- The operator of a connective. -/
def Connective.text : Connective → String
  | and => "&&"
  | or => "||"

/-- Operators and parentheses. -/
inductive Symbol where
  /-- A comparison operator. -/
  | comparison (c : Comparison)
  /-- A connective. -/
  | connective (c : Connective)
  /-- Negation. -/
  | not
  /-- An opening parenthesis. -/
  | opening
  /-- A closing parenthesis. -/
  | closing
deriving DecidableEq, Repr

/-- The text of a symbol. -/
def Symbol.text : Symbol → String
  | comparison c => c.text
  | connective c => c.text
  | not => "!"
  | opening => "("
  | closing => ")"

/-- A token without its position. -/
inductive Lexeme where
  /-- A number, with its sign and fraction. -/
  | number (text : String)
  /-- A string, with its quotes and backslashes. -/
  | string (text : String)
  /-- An operator or a parenthesis. -/
  | symbol (s : Symbol)
  /-- A name. -/
  | name (text : String)
deriving DecidableEq, Repr

/-- A lexeme at a position, counted in characters from the beginning of the text. -/
structure Token where
  /-- The lexeme. -/
  lexeme : Lexeme
  /-- The position of its first character. -/
  pos : Nat
deriving DecidableEq, Repr

namespace Lexeme

/-- The characters that a lexeme stands for. -/
def text : Lexeme → String
  | number text => text
  | string text => text
  | symbol s => s.text
  | name text => text

/-! ### Reading one lexeme -/

/-- The fraction at the head of a text, point included, if a digit follows the point. -/
def readFraction : List Char → List Char × List Char
  | '.' :: c :: rest =>
    if Text.isDigit c then ('.' :: c :: rest.takeWhile Text.isDigit, rest.dropWhile Text.isDigit)
    else ([], '.' :: c :: rest)
  | cs => ([], cs)

/-- The digits at the head of a text with a fraction if there is one, and the rest. -/
def readUnsigned? (cs : List Char) : Option (List Char × List Char) :=
  match cs.takeWhile Text.isDigit with
  | [] => none
  | digits =>
    let (fraction, rest) := readFraction (cs.dropWhile Text.isDigit)
    some (digits ++ fraction, rest)

/-- The number at the head of a text. -/
def readNumber? : List Char → Option (Lexeme × List Char)
  | '-' :: cs =>
    (readUnsigned? cs).map fun (digits, rest) => (number (String.ofList ('-' :: digits)), rest)
  | cs => (readUnsigned? cs).map fun (digits, rest) => (number (String.ofList digits), rest)

/-- The characters of a quoted string up to the closing quote, included. A backslash takes the next
character along, which may be the quote but not a line feed. -/
def readQuoted? (quote : Char) : List Char → Option (List Char × List Char)
  | [] => none
  | [c] => if c = quote then some ([c], []) else none
  | c :: d :: rest =>
    if c = quote then some ([c], d :: rest)
    else if c = '\\' then
      if d = '\n' then none
      else (readQuoted? quote rest).map fun (body, rest) => (c :: d :: body, rest)
    else (readQuoted? quote (d :: rest)).map fun (body, rest) => (c :: body, rest)

/-- The quoted string at the head of a text. -/
def readString? : List Char → Option (Lexeme × List Char)
  | c :: cs =>
    if c = '"' ∨ c = '\'' then
      (readQuoted? c cs).map fun (body, rest) => (string (String.ofList (c :: body)), rest)
    else none
  | [] => none

/-- The symbol at the head of a text; of two that fit, the longer one. -/
def readSymbol? : List Char → Option (Symbol × List Char)
  | '=' :: '=' :: rest => some (.comparison .eq, rest)
  | '!' :: '=' :: rest => some (.comparison .ne, rest)
  | '<' :: '=' :: rest => some (.comparison .le, rest)
  | '>' :: '=' :: rest => some (.comparison .ge, rest)
  | '&' :: '&' :: rest => some (.connective .and, rest)
  | '|' :: '|' :: rest => some (.connective .or, rest)
  | '<' :: rest => some (.comparison .lt, rest)
  | '>' :: rest => some (.comparison .gt, rest)
  | '!' :: rest => some (.not, rest)
  | '(' :: rest => some (.opening, rest)
  | ')' :: rest => some (.closing, rest)
  | _ => none

/-- Whether a character begins a name: an ASCII letter or an underscore. -/
def isNameStart (c : Char) : Bool := c.isAlpha || c = '_'

/-- Whether a character continues a name: also an ASCII digit. -/
def isNameChar (c : Char) : Bool := c.isAlphanum || c = '_'

/-- The name at the head of a text. -/
def readName? : List Char → Option (Lexeme × List Char)
  | c :: rest =>
    if isNameStart c then
      some (name (String.ofList (c :: rest.takeWhile isNameChar)), rest.dropWhile isNameChar)
    else none
  | [] => none

/-- The lexeme at the head of a text, and the rest. -/
def read? (cs : List Char) : Option (Lexeme × List Char) :=
  (readNumber? cs).or <| (readString? cs).or <|
    ((readSymbol? cs).map fun (s, rest) => (symbol s, rest)).or (readName? cs)

/-! ### A lexeme stands at the head of its text -/

theorem readFraction_append (cs : List Char) : (readFraction cs).1 ++ (readFraction cs).2 = cs := by
  unfold readFraction
  split
  · split <;> simp
  · simp

theorem readUnsigned?_append {cs digits rest : List Char}
    (h : readUnsigned? cs = some (digits, rest)) : digits ++ rest = cs ∧ digits ≠ [] := by
  unfold readUnsigned? at h
  split at h
  · simp at h
  · rename_i hne
    simp only [Option.some.injEq, Prod.mk.injEq] at h
    obtain ⟨rfl, rfl⟩ := h
    refine ⟨?_, fun h => hne (List.append_eq_nil_iff.mp h).1⟩
    rw [List.append_assoc, readFraction_append, List.takeWhile_append_dropWhile]

theorem readNumber?_text {cs rest : List Char} {l : Lexeme} (h : readNumber? cs = some (l, rest)) :
    l.text.toList ++ rest = cs ∧ l.text.toList ≠ [] := by
  unfold readNumber? at h
  split at h <;> simp only [Option.map_eq_some_iff, Prod.mk.injEq, Prod.exists] at h <;>
    obtain ⟨digits, r, hread, rfl, rfl⟩ := h <;> obtain ⟨happ, hne⟩ := readUnsigned?_append hread
  · simp [text, happ]
  · simp [text, happ, hne]

theorem readQuoted?_append {quote : Char} {cs body rest : List Char}
    (h : readQuoted? quote cs = some (body, rest)) : body ++ rest = cs := by
  fun_induction readQuoted? quote cs generalizing body rest with
  | case1 => simp at h
  | case2 => simp only [Option.some.injEq, Prod.mk.injEq] at h; simp [← h.1, ← h.2]
  | case3 => simp at h
  | case4 => simp only [Option.some.injEq, Prod.mk.injEq] at h; simp [← h.1, ← h.2]
  | case5 => simp at h
  | case6 _ _ _ _ ih =>
    simp only [Option.map_eq_some_iff, Prod.mk.injEq, Prod.exists] at h
    obtain ⟨b, s, hread, rfl, rfl⟩ := h
    simp [ih hread]
  | case7 _ _ _ _ _ ih =>
    simp only [Option.map_eq_some_iff, Prod.mk.injEq, Prod.exists] at h
    obtain ⟨b, s, hread, rfl, rfl⟩ := h
    simp [ih hread]

theorem readString?_text {cs rest : List Char} {l : Lexeme} (h : readString? cs = some (l, rest)) :
    l.text.toList ++ rest = cs ∧ l.text.toList ≠ [] := by
  unfold readString? at h
  split at h
  · split at h
    · simp only [Option.map_eq_some_iff, Prod.mk.injEq, Prod.exists] at h
      obtain ⟨b, s, hread, rfl, rfl⟩ := h
      simp [text, readQuoted?_append hread]
    · simp at h
  · simp at h

theorem readSymbol?_text {cs rest : List Char} {s : Symbol} (h : readSymbol? cs = some (s, rest)) :
    s.text.toList ++ rest = cs ∧ s.text.toList ≠ [] := by
  unfold readSymbol? at h
  split at h <;> simp_all [Symbol.text, Comparison.text, Connective.text] <;> simp [← h.1]

theorem readName?_text {cs rest : List Char} {l : Lexeme} (h : readName? cs = some (l, rest)) :
    l.text.toList ++ rest = cs ∧ l.text.toList ≠ [] := by
  unfold readName? at h
  split at h
  · split at h
    · simp only [Option.some.injEq, Prod.mk.injEq] at h
      obtain ⟨rfl, rfl⟩ := h
      simp [text]
    · simp at h
  · simp at h

/-- **A lexeme is read from the head of its text.** Its characters are not empty and, followed by the
rest, are the text. -/
theorem read?_text {cs rest : List Char} {l : Lexeme} (h : read? cs = some (l, rest)) :
    l.text.toList ++ rest = cs ∧ l.text.toList ≠ [] := by
  unfold read? at h
  simp only [Option.or_eq_some_iff] at h
  rcases h with h | ⟨_, h | ⟨_, h | ⟨_, h⟩⟩⟩
  · exact readNumber?_text h
  · exact readString?_text h
  · simp only [Option.map_eq_some_iff, Prod.mk.injEq, Prod.exists] at h
    obtain ⟨s, r, hread, rfl, rfl⟩ := h
    exact readSymbol?_text hread
  · exact readName?_text h

theorem length_read? {cs rest : List Char} {l : Lexeme} (h : read? cs = some (l, rest)) :
    rest.length < cs.length := by
  obtain ⟨happ, hne⟩ := read?_text h
  have := congrArg List.length happ
  have hpos := List.length_pos_iff.mpr hne
  simp only [List.length_append] at this
  omega

end Lexeme

/-- A character that is neither white space nor the beginning of a token. -/
structure UnexpectedCharacter where
  /-- The character. -/
  char : Char
  /-- Its position. -/
  pos : Nat
deriving DecidableEq, Repr

/-- The tokens of a text whose first character has the given position. -/
def Token.scan (pos : Nat) (cs : List Char) : Except UnexpectedCharacter (List Token) :=
  match cs with
  | [] => .ok []
  | c :: rest =>
    if Text.isBlank c then scan (pos + 1) rest
    else
      match _hread : Lexeme.read? (c :: rest) with
      | none => .error ⟨c, pos⟩
      | some (lexeme, rest') =>
        match scan (pos + lexeme.text.length) rest' with
        | .ok tokens => .ok (⟨lexeme, pos⟩ :: tokens)
        | .error e => .error e
termination_by cs.length
decreasing_by
  · simp
  · exact Lexeme.length_read? (by assumption)

/-- The tokens of a condition. -/
def tokenize (text : String) : Except UnexpectedCharacter (List Token) := Token.scan 0 text.toList

end DecisionFlow
