/-!
# White space

Which characters separate the tokens of a condition and are trimmed from settings, and the
operations that remove them.

* `isBlank` — the 25 characters of the Unicode property White_Space together with the four
  information separators U+001C to U+001F;
* `trim` — a text without the white space at both of its ends;
* `isBlankText` — a text that holds nothing but white space.
-/

namespace DecisionFlow.Text

/-- Whether a code point lies in one of the given closed ranges. -/
def inRanges (ranges : List (Nat × Nat)) (n : Nat) : Bool :=
  ranges.any fun r => r.1 ≤ n && n ≤ r.2

/-- The code points of white space, as closed ranges in ascending order. -/
def blankRanges : List (Nat × Nat) :=
  [(0x09, 0x0D), (0x1C, 0x20), (0x85, 0x85), (0xA0, 0xA0), (0x1680, 0x1680), (0x2000, 0x200A),
   (0x2028, 0x2029), (0x202F, 0x202F), (0x205F, 0x205F), (0x3000, 0x3000)]

/-- Whether a character is white space. -/
def isBlank (c : Char) : Bool := inRanges blankRanges c.toNat

/-- A letter, a digit and the zero-width space are not white space. -/
example : isBlank 'a' = false ∧ isBlank '0' = false ∧ isBlank '\u200b' = false := by decide

/-! ### Trimming -/

/-- Drops the white space at the end. -/
def dropBlankEnd : List Char → List Char
  | [] => []
  | c :: rest =>
    match dropBlankEnd rest with
    | [] => if isBlank c then [] else [c]
    | kept => c :: kept

/-- Drops the white space at both ends. -/
def trimChars (cs : List Char) : List Char := dropBlankEnd (cs.dropWhile isBlank)

/-- The text without the white space at its ends. -/
def trim (s : String) : String := String.ofList (trimChars s.toList)

/-- Whether a text is empty or holds white space only. -/
def isBlankText (s : String) : Bool := s.toList.all isBlank

theorem dropBlankEnd_eq_nil_iff (cs : List Char) :
    dropBlankEnd cs = [] ↔ cs.all isBlank = true := by
  induction cs with
  | nil => simp [dropBlankEnd]
  | cons c rest ih =>
    simp only [dropBlankEnd, List.all_cons, Bool.and_eq_true]
    split
    · rename_i hnil
      rw [← ih]
      by_cases hc : isBlank c = true <;> simp [hc, hnil]
    · rename_i hcons
      rw [← ih]
      simp only [reduceCtorEq, false_iff, not_and]
      intro _ hnil
      exact hcons hnil

end DecisionFlow.Text
