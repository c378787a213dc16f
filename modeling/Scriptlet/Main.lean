import Scriptlet.CommandLine

/-!
# The program

The outer layer: it takes the arguments of the process, reads the script or the lines that are
typed, and writes what the library answers.
-/

namespace Scriptlet.Main

/-- Writes to the two streams of the process. -/
def emit (written : Written) : IO Unit := do
  IO.print written.stdout
  (← IO.getStdout).flush
  IO.eprint written.stderr

/-- The text of a script on disk. A directory opens and then cannot be read, so that fault names no
path; one on the way to the path does. -/
def fetch (path : String) : IO (Except ReadFault String) := do
  try
    return ReadFault.decode (← IO.FS.readBinFile path).toList
  catch
    | .noFileOrDirectory .. => return .error .notFound
    | .permissionDenied .. => return .error .permissionDenied
    | .inappropriateType none .. => return .error .isDirectory
    | .inappropriateType (some _) .. => return .error .notDirectory
    | _ => return .error .other

/-- Reads and answers lines until the prompt is left. -/
partial def converse (session : Session) : IO UInt32 := do
  emit (({} : Written).prompting Prompt.text)
  let line ← (← IO.getStdin).getLine
  if line.isEmpty then
    emit (.ofEvents (Prompt.printed [Prompt.farewell]))
    return 0
  let typed := if line.endsWith "\n" then (line.dropEnd 1).copy else line
  match Prompt.respond session typed with
  | .leave => return 0
  | .breakDown log =>
    emit (.ofEvents log)
    return 1
  | .stay session log =>
    emit (.ofEvents log)
    converse session

/-- Starts the prompt. -/
def interact (before : List Event) (debug : Bool) : IO UInt32 := do
  emit (.ofEvents (before ++ Prompt.banner debug false))
  converse { debug }

/-- Writes what a command line did and gives its exit code. -/
def conclude (done : CommandLine.Outcome) : IO UInt32 := do
  done.segments.forM emit
  return (done.exit.getD (if done.failure.isSome then 1 else 0)).toUInt32

end Scriptlet.Main

open Scriptlet in
def main (arguments : List String) : IO UInt32 := do
  let answer (contents : String → Except ReadFault String) : IO UInt32 :=
    Main.conclude (CommandLine.run arguments contents [] false)
  match Arguments.read arguments with
  | .proceed options =>
    match options.script with
    | none | some "" =>
      if arguments.isEmpty then Main.interact (Prompt.printed CommandLine.info) false
      else if options.interactive then Main.interact [] options.debug
      else answer fun _ => .error .notFound
    | some path =>
      let text ← Main.fetch path
      answer fun _ => text
  | _ => answer fun _ => .error .notFound
