import Scriptlet.Execution
import Scriptlet.Program.Reading
import Scriptlet.Program.Sexp
import Scriptlet.Report

/-!
# Sessions

A session runs one text after the other against the same globals. Each run starts with a clean
reporter, goes through scanning, reading and running, and stops at the first of them that finds
something wrong. A session that debugs also shows the tokens, the tree and the statements as they
run; it cannot go on with a tree that is too deep to be shown.
-/

namespace Scriptlet

/-- How a run ended. -/
inductive Status where
  | ok
  | scanError
  | parseError
  | runtimeError
  deriving DecidableEq, Repr

def Status.name : Status → String
  | ok => "ok"
  | scanError => "scan_error"
  | parseError => "parse_error"
  | runtimeError => "runtime_error"

/-- The exit code of a process after a failed run. -/
def Status.failureCode : Nat := 65

/-- The exit code of a process that ran one text. -/
def Status.exitCode (status : Status) : Nat := if status = ok then 0 else failureCode

/-- How a run ended, and what was wrong. -/
structure RunResult where
  status : Status
  errors : List Diagnostic := []
  deriving DecidableEq, Repr

/-- Globals and a reporter that outlive a run. -/
structure Session where
  debug : Bool := false
  scope : Scope := .empty
  reporter : Reporter := {}
  deriving DecidableEq

/-- A run: the session after it, what was written, and the result. There is no result if the run
was given up because its tree is too deep to be shown. -/
structure Run where
  session : Session
  log : List Event
  result : Option RunResult
  deriving DecidableEq

namespace Reporter

/-- Writes and notes several diagnostics, in order. -/
def reportAll (reporter : Reporter) (errors : List Diagnostic) : Reporter × List Event :=
  (errors.foldl record reporter, errors.map fun d => ⟨.report, reporter.wording d⟩)

end Reporter

/-- What a debugging run shows of its tokens. -/
def Scan.dump (scan : Scan) : List Event :=
  [⟨.trace, "Tokens:"⟩, ⟨.trace, Token.listing scan.tokens⟩]

/-- What is said once a program has been read, if that is asked for. -/
def Program.notice (debug : Bool) (program : Program) : List Event :=
  if debug then [⟨.trace, "Parsed " ++ toString program.length ++ " statements"⟩] else []

namespace Session

/-- Runs a program. With `echo`, a program that is one expression prints its value instead of
dropping it. -/
def perform (debug echo : Bool) : Program → Execution Unit
  | [.expression value] =>
    if echo then do
      let value ← Execution.evaluating (value.evaluate Nesting.running)
      Execution.write .output ("=> " ++ value.display)
    else Program.execute debug Nesting.running [.expression value]
  | program => Program.execute debug Nesting.running program

/-- Ends a run of a text that has written `log` so far. -/
def finish (session : Session) (source : String) (log : List Event) (status : Status)
    (errors : List Diagnostic) : Run :=
  let (reporter, reports) := Reporter.reportAll { source } errors
  { session := { session with reporter }, log := log ++ reports, result := some ⟨status, errors⟩ }

/-- Runs a program that has been read, after `log` was written. -/
def runProgram (session : Session) (source : String) (echo : Bool) (log : List Event)
    (program : Program) : Run :=
  match perform session.debug echo program { scope := session.scope, log } with
  | .ok _ state => finish { session with scope := state.scope } source state.log .ok []
  | .error stop state =>
    finish { session with scope := state.scope } source state.log .runtimeError [stop.diagnostic]

/-- Runs a text. -/
def run (session : Session) (source : String) (echo : Bool) : Run :=
  let scan := Scan.ofText source
  if scan.faults.isEmpty then
    let log := if session.debug then scan.dump else []
    match Program.ofTokens scan.tokens with
    | .error fault => finish session source log .parseError [fault]
    | .ok program =>
      if session.debug then
        let log := log ++ program.notice true ++ [⟨.trace, "AST:"⟩]
        match Program.text? program with
        | none => { session := { session with reporter := { source } }, log, result := none }
        | some tree => runProgram session source echo (log ++ [⟨.trace, tree⟩]) program
      else runProgram session source echo log program
  else finish session source [] .scanError scan.diagnostics

end Session

end Scriptlet
