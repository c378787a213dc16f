import Scriptlet.Prompt.MetaCommand
import Scriptlet.Session

/-!
# The prompt

The prompt reads lines until one says to leave or there are no more. A line is blank, a meta command
or program text; program text runs in the one session of the prompt, with the values of single
expressions echoed.
-/

namespace Scriptlet

/-- The name and version of the language. -/
def versionText : String := "JBread v0.1.0 (Tree-walking Interpreter)"

/-- What was written to the two streams of a process. -/
structure Written where
  stdout : String := ""
  stderr : String := ""
  deriving DecidableEq, Repr

namespace Written

/-- Programs print to the first stream; traces and reports go to the second. -/
def ofEvents (events : List Event) : Written where
  stdout := Event.text [.output] events
  stderr := Event.text [.trace, .report] events

/-- Adds text to the first stream, without a line feed. -/
def prompting (written : Written) (text : String) : Written :=
  { written with stdout := written.stdout ++ text }

end Written

namespace Prompt

/-- Lines for the first stream. -/
def printed (lines : List String) : List Event := lines.map (⟨.output, ·⟩)

/-- What the prompt writes before it reads a line. -/
def text : String := "jbread> "

/-- What the prompt writes when there are no more lines. -/
def farewell : String := "\nGoodbye!"

/-- What the prompt writes at its start, which depends on whether typed lines can be edited. -/
def banner (debug lineEditing : Bool) : List Event :=
  printed ([versionText ++ " - Interactive Mode", "Type 'exit' to quit, ':help' for commands"] ++
    (if lineEditing then ["Readline enabled: Use ↑/↓ for history, Tab for completion"] else []) ++
    (if debug then ["Debug mode enabled"] else []) ++ [""])

def help : List String :=
  ["REPL Commands:",
    "  :tokens <source>  - Show the tokens of some source",
    "  :ast <source>     - Show the syntax tree of some source",
    "  :env              - Show current environment",
    "  :help             - Show this help",
    "  exit              - Exit REPL",
    "",
    "Language features:",
    "  var a = 1;                - Declare a variable",
    "  a = a + 1;                - Assign to a declared variable",
    "  print \"hi \" + \"there\";    - Print a value",
    "  \x7b var a = 2; print a; \x7d   - Block with its own scope",
    "  1 + 2 * 3;                - Expressions echo their value"]

def environment (scope : Scope) : List String :=
  let entries := scope.bindings.entries
  "Current environment:" ::
    if entries.isEmpty then ["  (no user-defined bindings)"]
    else entries.map fun (name, value) => "  " ++ name ++ " = " ++ value.display

/-- The prompt's answer to a line. -/
inductive Response where
  /-- The next line is read, in this session. -/
  | stay (session : Session) (log : List Event)
  /-- The prompt is left. -/
  | leave
  /-- The prompt breaks down, because a tree was too deep to be shown. -/
  | breakDown (log : List Event)

/-- What `:ast` shows: what is wrong with a text, or its tree. -/
def tree (session : Session) (source : String) : Response :=
  match Program.diagnose source with
  | .error faults => .stay session (Reporter.reportAll { source } faults).2
  | .ok program =>
    let log := program.notice session.debug
    match Program.text? program with
    | none => .breakDown log
    | some text => .stay session (log ++ printed [text])

/-- Carries out a meta command. None changes the session. -/
def command (session : Session) (asked : MetaCommand) : Response :=
  match asked.name with
  | .help => .stay session (printed help)
  | .env => .stay session (printed (environment session.scope))
  | .tokens =>
    let scan := Scan.ofText asked.argument
    let (_, reports) := Reporter.reportAll { source := asked.argument } scan.diagnostics
    .stay session (reports ++ printed [Token.listing scan.tokens])
  | .ast => tree session asked.argument
  | .unknown =>
    .stay session (printed
      ["Unknown command: " ++ asked.argument, "  Hint: Type ':help' for the list of commands"])

/-- Answers a line. -/
def respond (session : Session) (line : String) : Response :=
  let stripped := Text.strip line.toList
  if stripped = "exit".toList then .leave
  else if stripped.isEmpty then .stay session []
  else
    match MetaCommand.ofLine? line with
    | some asked => command session asked
    | none =>
      let run := session.run line true
      match run.result with
      | some _ => .stay run.session run.log
      | none => .breakDown run.log

/-- What was written up to each reading of a line and after the last, and whether the prompt broke
down. -/
structure Transcript where
  segments : List Written
  brokeDown : Bool := false
  deriving DecidableEq, Repr

/-- Reads the typed lines, with `written` on the streams since the last one. A line `none` is an
interrupt, which ends the prompt like the end of the lines does. -/
def loop (session : Session) (written : Written) : List (Option String) → Transcript
  | [] | none :: _ =>
    { segments := [written.prompting text, .ofEvents (printed [farewell])] }
  | some line :: rest =>
    let before := written.prompting text
    match respond session line with
    | .leave => { segments := [before, {}] }
    | .breakDown log => { segments := [before, .ofEvents log], brokeDown := true }
    | .stay session log =>
      let transcript := loop session (.ofEvents log) rest
      { transcript with segments := before :: transcript.segments }

/-- The whole of a prompt, after `before` was written. -/
def interact (before : List Event) (debug lineEditing : Bool) (lines : List (Option String)) :
    Transcript :=
  loop { debug } (.ofEvents (before ++ banner debug lineEditing)) lines

end Prompt

end Scriptlet
