/-!
# Lines

A text is split into lines at line feeds only; no other control or separator ends a line. A text
that is printed with a closing line feed occupies exactly the lines of `splitLines`.
-/

namespace DecisionFlow.Text

/-- The pieces of a text between its line feeds. There is always at least one. -/
def splitLines : List Char → List (List Char)
  | [] => [[]]
  | '\n' :: rest => [] :: splitLines rest
  | c :: rest =>
    match splitLines rest with
    | [] => [[c]]
    | line :: more => (c :: line) :: more

/-- The lines that a printed text occupies. -/
def lines (s : String) : List String := (splitLines s.toList).map String.ofList

theorem splitLines_of_not_mem {cs : List Char} (h : '\n' ∉ cs) : splitLines cs = [cs] := by
  induction cs with
  | nil => rfl
  | cons c rest ih =>
    simp only [List.mem_cons, not_or] at h
    rw [splitLines, ih h.2]
    exact fun hc => h.1 hc.symm

/-- A text without a line feed occupies one line, itself. -/
theorem lines_of_not_mem {s : String} (h : '\n' ∉ s.toList) : lines s = [s] := by
  simp [lines, splitLines_of_not_mem h]

end DecisionFlow.Text
