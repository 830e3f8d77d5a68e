import DecisionFlow.Entries
import DecisionFlow.Text.CodeUnit
import DecisionFlow.Text.Hex
import DecisionFlow.Value.Basic

/-!
# Reading JSON

The reader accepts JSON texts and, beyond the standard, the numbers `NaN`, `Infinity` and
`-Infinity`. A number with a point or an exponent is a double, any other an integer. A name that
occurs again in an object keeps its first place and takes the last value.

* `Json.readString`, `Json.readNumber` — strings and numbers, each with the rest of the text;
* `Json.readValue` — any value, with the rest of the text;
* `Json.readWithin`, `Json.read` — the value of a whole text, with and without a bound on nesting.
-/

namespace DecisionFlow.Json

/-- The white space of JSON. -/
def isSpace (c : Char) : Bool := c = ' ' || c = '\n' || c = '\r' || c = '\t'

/-- A text without its leading white space. -/
def skipSpace (cs : List Char) : List Char := cs.dropWhile isSpace

/-- Whether a character is one of the ten digits of numbers. -/
def isDigit (c : Char) : Bool := '0' ≤ c && c ≤ '9'

/-! ### Strings -/

/-- The character that a letter after the backslash stands for. -/
def unescapeLetter? : Char → Option Char
  | '"' => some '"'
  | '\\' => some '\\'
  | '/' => some '/'
  | 'b' => some (Char.ofNat 8)
  | 'f' => some (Char.ofNat 12)
  | 'n' => some '\n'
  | 'r' => some '\r'
  | 't' => some '\t'
  | _ => none

/-- The characters of a string up to its closing quote, and the rest. Characters below U+0020 and
halves of pairs that stand alone are refused. -/
def readString : List Char → Option (List Char × List Char)
  | '"' :: rest => some ([], rest)
  | '\\' :: 'u' :: a :: b :: c :: d :: rest => do
    let unit ← Text.readHex? [a, b, c, d]
    if Text.isFirstHalf unit then
      match rest with
      | '\\' :: 'u' :: e :: f :: g :: h :: rest =>
        let second ← Text.readHex? [e, f, g, h]
        if Text.isSecondHalf second then
          let (cs, rest) ← readString rest
          some (Text.joinHalves unit second :: cs, rest)
        else none
      | _ => none
    else if Text.isSecondHalf unit then none
    else
      let (cs, rest) ← readString rest
      some (Char.ofNat unit :: cs, rest)
  | '\\' :: letter :: rest => do
    let c ← unescapeLetter? letter
    let (cs, rest) ← readString rest
    some (c :: cs, rest)
  | c :: rest =>
    if c.toNat < 0x20 then none
    else do
      let (cs, rest) ← readString rest
      some (c :: cs, rest)
  | [] => none

/-! ### Numbers -/

/-- The digits at the head of a text, and the rest. -/
def spanDigits (cs : List Char) : List Char × List Char := (cs.takeWhile isDigit, cs.dropWhile isDigit)

/-- The digits after a point, if a point with a digit after it stands at the head. -/
def readFraction : List Char → List Char × List Char
  | '.' :: c :: rest => if isDigit c then spanDigits (c :: rest) else ([], '.' :: c :: rest)
  | cs => ([], cs)

/-- The exponent at the head of a text, if a complete one stands there. -/
def readExponent? (cs : List Char) : Option (Int × List Char) :=
  match cs with
  | e :: rest =>
    if e = 'e' ∨ e = 'E' then
      let (negative, rest) := match rest with
        | '-' :: rest => (true, rest)
        | '+' :: rest => (false, rest)
        | rest => (false, rest)
      match spanDigits rest with
      | ([], _) => none
      | (digits, rest) => some (Double.signed negative (Text.digitsValue digits), rest)
    else none
  | [] => none

/-- An unsigned number after its sign, and the rest. A number does not begin with a zero that is
followed by a digit, and an integer has no more digits than integers may have. -/
def readNumber (negative : Bool) (cs : List Char) : Option (Number × List Char) :=
  match spanDigits cs with
  | ([], _) => none
  | (digits, rest) =>
    let (digits, rest) :=
      match digits with
      | '0' :: d :: more => (['0'], d :: more ++ rest)
      | digits => (digits, rest)
    let (fraction, rest) := readFraction rest
    match fraction, readExponent? rest with
    | [], none =>
      if Numeral.maxDigits < digits.length then none
      else some (.integer (Double.signed negative (Text.digitsValue digits)), rest)
    | fraction, none =>
      some (.double (Double.ofDecimal negative ⟨Text.digitsValue (digits ++ fraction),
        -(fraction.length : Int)⟩), rest)
    | fraction, some (exponent, rest) =>
      some (.double (Double.ofDecimal negative ⟨Text.digitsValue (digits ++ fraction),
        exponent - fraction.length⟩), rest)

/-- The text after a given word, if the word stands at the head. -/
def afterWord? (word : String) (cs : List Char) : Option (List Char) :=
  if word.toList.isPrefixOf cs then some (cs.drop word.length) else none

/-- A word or a number, and the rest. -/
def readScalar (cs : List Char) : Option (Value × List Char) :=
  match cs with
  | 'n' :: _ => (afterWord? "null" cs).map fun rest => (.null, rest)
  | 't' :: _ => (afterWord? "true" cs).map fun rest => (.boolean true, rest)
  | 'f' :: _ => (afterWord? "false" cs).map fun rest => (.boolean false, rest)
  | 'N' :: _ => (afterWord? "NaN" cs).map fun rest => (.double .nan, rest)
  | 'I' :: _ => (afterWord? "Infinity" cs).map fun rest => (.double (.infinite false), rest)
  | '-' :: 'I' :: _ => (afterWord? "-Infinity" cs).map fun rest => (.double (.infinite true), rest)
  | '-' :: rest => (readNumber true rest).map fun p => (.number p.1, p.2)
  | cs => (readNumber false cs).map fun p => (.number p.1, p.2)

/-! ### Values -/

mutual

/-- A value without white space in front of it, and the rest. The first argument bounds the number of
steps, each of which reads at least one character; the second bounds the lists and objects inside one
another. -/
def readValue : Nat → Nat → List Char → Option (Value × List Char)
  | 0, _, _ => none
  | _ + 1, _, '"' :: rest => (readString rest).map fun p => (.string (String.ofList p.1), p.2)
  | _ + 1, 0, '[' :: _ => none
  | _ + 1, 0, '{' :: _ => none
  | steps + 1, depth + 1, '[' :: rest =>
    match skipSpace rest with
    | ']' :: rest => some (.list [], rest)
    | rest => (readItems steps depth rest).map fun p => (.list p.1, p.2)
  | steps + 1, depth + 1, '{' :: rest =>
    match skipSpace rest with
    | '}' :: rest => some (.object [], rest)
    | rest => (readFields steps depth rest).map fun p => (.object (Entries.ofList p.1), p.2)
  | _ + 1, _, cs => readScalar cs

/-- The items of a list that is not empty, up to its closing bracket. -/
def readItems : Nat → Nat → List Char → Option (List Value × List Char)
  | 0, _, _ => none
  | steps + 1, depth, cs => do
    let (item, rest) ← readValue steps depth cs
    match skipSpace rest with
    | ',' :: rest =>
      let (items, rest) ← readItems steps depth (skipSpace rest)
      some (item :: items, rest)
    | ']' :: rest => some ([item], rest)
    | _ => none

/-- The fields of an object that is not empty, up to its closing brace. -/
def readFields : Nat → Nat → List Char → Option (List (String × Value) × List Char)
  | 0, _, _ => none
  | steps + 1, depth, cs =>
    match cs with
    | '"' :: rest => do
      let (name, rest) ← readString rest
      match skipSpace rest with
      | ':' :: rest =>
        let (value, rest) ← readValue steps depth (skipSpace rest)
        match skipSpace rest with
        | ',' :: rest =>
          let (fields, rest) ← readFields steps depth (skipSpace rest)
          some ((String.ofList name, value) :: fields, rest)
        | '}' :: rest => some ([(String.ofList name, value)], rest)
        | _ => none
      | _ => none
    | _ => none

end

/-- The value of a text that holds one value between white space, unless more lists and objects stand
inside one another than the given depth. -/
def readWithin (depth : Nat) (s : String) : Option Value :=
  let cs := s.toList
  match readValue (cs.length + 1) depth (skipSpace cs) with
  | some (v, rest) => if rest.all isSpace then some v else none
  | none => none

/-- The value of a text that holds one value between white space. A text nests no deeper than it is
long. -/
def read (s : String) : Option Value := readWithin s.length s

example : read "\x7b\"a\": 1, \"b\": true, \"a\": [null]\x7d" =
    some (.object [("a", .list [.null]), ("b", .boolean true)]) := by decide +kernel
example : readWithin 1 "[[1]]" = none ∧ readWithin 2 "[[1]]" = some (.list [.list [.integer 1]]) := by
  decide +kernel

end DecisionFlow.Json
