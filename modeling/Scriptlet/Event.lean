/-!
# Events

Everything that is written is a line on one of three channels. A log is the list of lines in the
order in which they were written; what a stream shows is the text of the channels it carries.
-/

namespace Scriptlet

/-- Where a line of text goes. -/
inductive Channel where
  /-- What programs print. -/
  | output
  /-- What shows a run from inside. -/
  | trace
  /-- What is wrong. -/
  | report
  deriving DecidableEq, Repr

/-- A line of text that was written. -/
structure Event where
  channel : Channel
  line : String
  deriving DecidableEq, Repr

/-- The text of the events on some channels, each line with its line feed. -/
def Event.text (channels : List Channel) (events : List Event) : String :=
  String.join ((events.filter (channels.contains ·.channel)).map (·.line ++ "\n"))

end Scriptlet
