import Scriptlet.CommandLine.Arguments
import Scriptlet.FileStore
import Scriptlet.Prompt

/-!
# The command line

A command line runs a script, shows its tokens or its tree, starts the prompt, or explains itself.
What it does is a value: the text on the two streams, cut where a line was read, and how it ended.
-/

namespace Scriptlet

namespace CommandLine

/-- What a command line can break down on. -/
inductive Failure where
  | treeTooDeep
  | unreadable (fault : ReadFault)
  deriving DecidableEq, Repr

/-- What a command line did. There is an exit code if it ended the process itself. -/
structure Outcome where
  exit : Option Nat := none
  segments : List Written
  failure : Option Failure := none
  deriving DecidableEq, Repr

open Prompt (printed)

/-- Lines for the second stream. -/
def complaint (lines : List String) : List Event := lines.map (⟨.report, ·⟩)

/-- A command line that read no lines. -/
def once (log : List Event) : Outcome := { segments := [.ofEvents log] }

/-- A command line that ended the process. -/
def ending (code : Nat) (log : List Event) : Outcome := { once log with exit := some code }

/-- A command line that broke down. -/
def failing (failure : Failure) (log : List Event) : Outcome :=
  { once log with failure := some failure }

/-- The exit code when a script cannot be read. -/
def unreadableCode : Nat := 1

/-- The exit code when the arguments make no sense. -/
def usageCode : Nat := 2

/-- The line under a heading. -/
def rule : String := String.ofList (List.replicate 50 '=')

def usage : String :=
  "usage: jbread [-h] [-i] [--tokens] [--parse] [--debug] [--version] [script]"

def help : List String :=
  [usage,
    "",
    "JBread Programming Language - a small dynamically typed scripting language",
    "",
    "positional arguments:",
    "  script             JBread script file to execute",
    "",
    "options:",
    "  -h, --help         show this help message and exit",
    "  -i, --interactive  Start interactive mode",
    "  --tokens           Scan file and show tokens (for debugging)",
    "  --parse            Parse file and show the syntax tree (for debugging)",
    "  --debug            Enable debug output for all stages",
    "  --version          show program's version number and exit",
    "",
    "Examples:",
    "  jbread script.jb              # Run a JBread script",
    "  jbread -i                     # Interactive mode",
    "  jbread --tokens script.jb     # Scan and show tokens",
    "  jbread --parse script.jb      # Parse and show the syntax tree",
    "  jbread --debug script.jb      # Run with debug output",
    "        "]

def info : List String :=
  ["JBread Programming Language",
    rule,
    "A small dynamically typed scripting language with:",
    "• Numbers, strings, booleans and nil",
    "• Global and block-scoped variables",
    "• Arithmetic, comparison and equality operators",
    ""]

/-- What is said of a script that cannot be read. Three reasons are expected; any other breaks the
command line down. -/
def unreadable (path : String) (fault : ReadFault) : Outcome :=
  match fault with
  | .notFound => ending unreadableCode (complaint
    ["Error: Script file '" ++ path ++ "' not found",
      "  Hint: Check the file path and make sure the file exists"])
  | .permissionDenied => ending unreadableCode (complaint
    ["Error: Permission denied reading '" ++ path ++ "'",
      "  Hint: Make sure you have read permissions for this file"])
  | .undecodable bytes => ending unreadableCode (complaint
    ["Error: Cannot decode file '" ++ path ++ "': " ++ bytes.message,
      "  Hint: Make sure the file is a text file with UTF-8 encoding"])
  | .isDirectory | .notDirectory | .other => failing (.unreadable fault) []

/-- Shows the tokens of a script, and what is wrong with them. -/
def showTokens (source : String) : Outcome :=
  let scan := Scan.ofText source
  let (_, reports) := Reporter.reportAll { source } scan.diagnostics
  let log := reports ++ printed
    ["Scanned " ++ toString scan.tokens.length ++ " tokens:", rule, Token.listing scan.tokens]
  if scan.faults.isEmpty then once log else ending Status.failureCode log

/-- Shows the tree of a script, or what is wrong with it. -/
def showTree (source : String) (debug : Bool) : Outcome :=
  match Program.diagnose source with
  | .error faults => ending Status.failureCode (Reporter.reportAll { source } faults).2
  | .ok program =>
    let log := program.notice debug ++
      printed ["Parsed " ++ toString program.length ++ " top-level statements:", rule]
    match Program.text? program with
    | none => failing .treeTooDeep log
    | some tree => once (log ++ printed [tree])

/-- Runs a script. -/
def runScript (path source : String) (debug : Bool) : Outcome :=
  let run := ({ debug } : Session).run source false
  let note (line : String) : List Event := if debug then [⟨.trace, line⟩] else []
  let log := note ("Running " ++ path ++ "...") ++ run.log
  match run.result with
  | none => failing .treeTooDeep log
  | some result =>
    let log := log ++ note ("Finished with status " ++ result.status.name)
    if result.status = .ok then once log else ending result.status.exitCode log

/-- What is done with a script, given its path and its text. -/
def script (options : Arguments.Options) (path : String) (text : Except ReadFault String) :
    Outcome :=
  match text with
  | .error fault => unreadable path fault
  | .ok source =>
    if options.tokens then showTokens source
    else if options.parse then showTree source options.debug
    else runScript path source options.debug

/-- What a prompt comes to as a command line. -/
def ofTranscript (transcript : Prompt.Transcript) : Outcome where
  segments := transcript.segments
  failure := if transcript.brokeDown then some .treeTooDeep else none

/-- What is done when there is no script. -/
def withoutScript (options : Arguments.Options) (lines : List (Option String)) (lineEditing : Bool) :
    Outcome :=
  if options.interactive then ofTranscript (Prompt.interact [] options.debug lineEditing lines)
  else once (printed (help ++ [""] ++ info))

/-- Runs the command line with these arguments, these contents of paths and these typed lines. An
empty script name is no script. -/
def run (arguments : List String) (contents : String → Except ReadFault String)
    (lines : List (Option String)) (lineEditing : Bool) : Outcome :=
  match Arguments.read arguments with
  | .help => ending 0 (printed help)
  | .version => ending 0 (printed [versionText])
  | .invalid fault =>
    ending usageCode (complaint [usage, "jbread: error: " ++ fault.message])
  | .proceed options =>
    if arguments.isEmpty then ofTranscript (Prompt.interact (printed info) false lineEditing lines)
    else
      match options.script with
      | none | some "" => withoutScript options lines lineEditing
      | some path => script options path (contents path)

end CommandLine

end Scriptlet
