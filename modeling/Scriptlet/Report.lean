import Scriptlet.Diagnostic

/-!
# Reports

A report shows a diagnostic and the lines of the text around it. A reporter keeps the diagnostics
of one text, so that it can be asked afterwards whether anything went wrong, and when.
-/

namespace Scriptlet

namespace Report

/-- A numbered line of a text, with a mark on the line asked for. -/
def markedLine (asked number : Int) (line : List Char) : String :=
  (if number = asked then ">" else " ") ++ Text.flushRight 5 (toString number) ++ ": " ++
    String.ofList line

/-- The lines within `size` of a line, that one marked. There are none if the text has no such line
or the size is negative. -/
def window (source : String) (line size : Int) : String :=
  let lines := Text.lines source.toList
  if line < 1 ∨ lines.length < line then ""
  else
    let near := lines.zipIdx.filter fun (_, index) => line - size - 1 ≤ index ∧ index < line + size
    "\n".intercalate (near.map fun (text, index) => markedLine line (index + 1) text)

end Report

/-- A diagnostic with the lines around it; `none` if there is no text to show. -/
structure Report where
  kind : String
  line : Int
  place : String
  message : String
  context : Option String
  deriving DecidableEq, Repr

namespace Report

/-- How many lines are shown on each side, unless said otherwise. -/
def usualSize : Int := 1

/-- The report of a diagnostic in a text. -/
def ofDiagnostic (d : Diagnostic) (source : String) (size : Int) : Report where
  kind := d.kind.label
  line := d.line
  place := d.place
  message := d.message
  context := if source.isEmpty then none else some (window source d.line size)

/-- The text of a report: the diagnostic, then the lines around it if there are any. -/
def text (r : Report) : String :=
  let head := "[line " ++ toString r.line ++ "] " ++ r.kind ++ r.place ++ ": " ++ r.message
  match r.context with
  | none => head
  | some context => if context.isEmpty then head else head ++ "\n" ++ context

end Report

/-- The diagnostics of one text. -/
structure Reporter where
  source : String := ""
  errors : List Diagnostic := []
  deriving DecidableEq, Repr

namespace Reporter

/-- The text that a reporter writes for a diagnostic. -/
def wording (reporter : Reporter) (d : Diagnostic) : String :=
  (Report.ofDiagnostic d reporter.source Report.usualSize).text

/-- Takes note of a diagnostic. -/
def record (reporter : Reporter) (d : Diagnostic) : Reporter :=
  { reporter with errors := reporter.errors ++ [d] }

/-- Whether something was wrong before a program ran. -/
def hadError (reporter : Reporter) : Bool := reporter.errors.any (·.kind != .runtime)

/-- Whether something went wrong while a program ran. -/
def hadRuntimeError (reporter : Reporter) : Bool := reporter.errors.any (·.kind == .runtime)

end Reporter

end Scriptlet
