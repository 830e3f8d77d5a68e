import DecisionFlow.Text.Hex
import DecisionFlow.Value.Basic

/-!
# Writing JSON

Values are written on one line: a comma and a space between items, a colon and a space after a name. In
place of a thing of another type stands its text, as a string.
Inside strings only the quote, the backslash and the characters below U+0020 are escaped;
everything else stands for itself.

* `Json.escape` — one character of a string;
* `Json.write` — the text of a value in front of a given text;
* `Json.render` — the text of a value.
-/

namespace DecisionFlow.Json

/-- The letter after the backslash for the characters that have one. -/
def escapeLetter? (c : Char) : Option Char :=
  if c = '"' then some '"'
  else if c = '\\' then some '\\'
  else if c = '\n' then some 'n'
  else if c = '\r' then some 'r'
  else if c = '\t' then some 't'
  else if c.toNat = 8 then some 'b'
  else if c.toNat = 12 then some 'f'
  else none

/-- One character as it stands inside a string. -/
def escape (c : Char) : List Char :=
  match escapeLetter? c with
  | some letter => ['\\', letter]
  | none => if c.toNat < 0x20 then '\\' :: 'u' :: Text.hexDigits 4 c.toNat else [c]

/-- The characters of a string, escaped, and its closing quote, in front of `rest`. -/
def writeChars (cs rest : List Char) : List Char := cs.flatMap escape ++ '"' :: rest

/-- A string between quotes, in front of `rest`. -/
def writeString (s : String) (rest : List Char) : List Char := '"' :: writeChars s.toList rest

/-- A scalar, in front of `rest`. -/
def writeScalar : Scalar → List Char → List Char
  | .boolean b, rest => (if b then "true" else "false").toList ++ rest
  | .number n, rest => (n.render .json).toList ++ rest
  | .string s, rest => writeString s rest

mutual

/-- A value, in front of `rest`. -/
def write : Value → List Char → List Char
  | .null, rest => "null".toList ++ rest
  | .scalar s, rest => writeScalar s rest
  | .list [], rest => '[' :: ']' :: rest
  | .list (item :: more), rest => '[' :: write item (writeItems more rest)
  | .object [], rest => '{' :: '}' :: rest
  | .object ((name, value) :: more), rest =>
    '{' :: writeString name (':' :: ' ' :: write value (writeFields more rest))
  | .foreign type place, rest => writeString (Value.foreignText type place) rest

/-- The items after the first and the closing bracket, in front of `rest`. -/
def writeItems : List Value → List Char → List Char
  | [], rest => ']' :: rest
  | item :: more, rest => ',' :: ' ' :: write item (writeItems more rest)

/-- The fields after the first and the closing brace, in front of `rest`. -/
def writeFields : List (String × Value) → List Char → List Char
  | [], rest => '}' :: rest
  | (name, value) :: more, rest =>
    ',' :: ' ' :: writeString name (':' :: ' ' :: write value (writeFields more rest))

end

/-- The text of a value. -/
def render (v : Value) : String := String.ofList (write v [])

example : render (.object [("a", .integer 1), ("b", .list [.boolean true, .null])])
    = "\x7b\"a\": 1, \"b\": [true, null]\x7d" := by decide +kernel

end DecisionFlow.Json
