/-!
# Lines and columns

Program text has its lines ended by line feeds. A text with `n` line feeds has `n + 1` lines, the
last of which may be empty.
-/

namespace Scriptlet.Text

/-- The lines of a text, without their line feeds. -/
def lines : List Char → List (List Char)
  | [] => [[]]
  | c :: cs =>
    if c = '\n' then [] :: lines cs
    else
      match lines cs with
      | [] => [[c]]
      | line :: rest => (c :: line) :: rest

/-- A text has one line more than it has line feeds. -/
theorem length_lines (text : List Char) : (lines text).length = text.count '\n' + 1 := by
  induction text with
  | nil => rfl
  | cons c cs ih =>
    simp only [lines]
    split
    · simp_all
    · cases h : lines cs with
      | nil => simp [h] at ih
      | cons line rest => simp_all

/-- Carriage returns, alone or before a line feed, become line feeds. -/
def unifyNewlines : List Char → List Char
  | '\r' :: '\n' :: cs => '\n' :: unifyNewlines cs
  | '\r' :: cs => '\n' :: unifyNewlines cs
  | c :: cs => c :: unifyNewlines cs
  | [] => []

/-- Writes each tab as spaces up to the next multiple of `width` columns. The text starts at
`column`; a line feed or a carriage return starts again at the left margin. -/
def expandTabs (width : Nat) : (column : Nat) → List Char → List Char
  | _, [] => []
  | column, c :: cs =>
    if c = '\t' then
      let gap := width - column % width
      List.replicate gap ' ' ++ expandTabs width (column + gap) cs
    else if c = '\n' ∨ c = '\r' then c :: expandTabs width 0 cs
    else c :: expandTabs width (column + 1) cs

/-- Text set flush right in a field of at least `width` columns. -/
def flushRight (width : Nat) (text : String) : String :=
  String.ofList (List.replicate (width - text.length) ' ') ++ text

end Scriptlet.Text
