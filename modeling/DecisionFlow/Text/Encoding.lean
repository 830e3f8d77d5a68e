import DecisionFlow.Text.CodeUnit

/-!
# Encodings of JSON texts

A JSON text begins with an ASCII character and, unless it is a single digit, goes on with another. So
the zeros among its first four bytes tell in which of five ways it is stored.

* `Encoding`, `Encoding.detect` — the five ways, and how to tell them apart;
* `Encoding.decode?` — the text that bytes stand for, given as the text that they would be in UTF-8.
-/

namespace DecisionFlow.Text

/-- A way to store a text. -/
inductive Encoding where
  /-- One to four bytes for a character. -/
  | utf8
  /-- Units of two bytes. -/
  | utf16 (bigEndian : Bool)
  /-- Units of four bytes. -/
  | utf32 (bigEndian : Bool)
deriving DecidableEq, Repr

namespace Encoding

/-- The encoding of the given bytes. -/
def detect : List UInt8 → Encoding
  | a :: b :: c :: d :: _ =>
    if a = 0 then (if b = 0 then utf32 true else utf16 true)
    else if b = 0 then (if c = 0 ∧ d = 0 then utf32 false else utf16 false)
    else utf8
  | [a, b] =>
    if a = 0 then utf16 true
    else if b = 0 then utf16 false
    else utf8
  | _ => utf8

/-- The number that bytes stand for. -/
def unit (bigEndian : Bool) (bytes : List UInt8) : Nat :=
  (if bigEndian then bytes else bytes.reverse).foldl (fun n b => n * 256 + b.toNat) 0

/-- The units of two bytes each. -/
def units16? (bigEndian : Bool) : List UInt8 → Option (List Nat)
  | [] => some []
  | a :: b :: rest => (units16? bigEndian rest).map (unit bigEndian [a, b] :: ·)
  | _ => none

/-- The units of four bytes each. -/
def units32? (bigEndian : Bool) : List UInt8 → Option (List Nat)
  | [] => some []
  | a :: b :: c :: d :: rest => (units32? bigEndian rest).map (unit bigEndian [a, b, c, d] :: ·)
  | _ => none

/-- The characters of units of sixteen bits. -/
def chars16? : List Nat → Option (List Char)
  | [] => some []
  | [n] => (charOf? n).map ([·])
  | m :: n :: rest =>
    if isFirstHalf m && isSecondHalf n then (chars16? rest).map (joinHalves m n :: ·)
    else
      match charOf? m with
      | some c => (chars16? (n :: rest)).map (c :: ·)
      | none => none

/-- The characters of units of thirty-two bits. -/
def chars32? (units : List Nat) : Option (List Char) := units.mapM charOf?

/-- The characters without a byte order mark at their head. -/
def withoutMark : List Char → List Char
  | '\uFEFF' :: rest => rest
  | cs => cs

/-- The text that bytes stand for. They are given as a text whose UTF-8 form they are. A byte order
mark at the head of a text in UTF-8 is not part of it. -/
def decode? (stored : String) : Option String :=
  let bytes := stored.toUTF8.toList
  match detect bytes with
  | utf8 => some (String.ofList (withoutMark stored.toList))
  | utf16 bigEndian => ((units16? bigEndian bytes).bind chars16?).map String.ofList
  | utf32 bigEndian => ((units32? bigEndian bytes).bind chars32?).map String.ofList

example : decode? "5\x00" = some "5" ∧ decode? "\x00\x00\x005" = some "5" := by decide +kernel
example : decode? "\uFEFFnull" = some "null" ∧ decode? "n\x00u\x00l\x00l\x00" = some "null" := by
  decide +kernel

end Encoding

end DecisionFlow.Text
