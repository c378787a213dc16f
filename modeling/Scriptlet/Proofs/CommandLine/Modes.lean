import Scriptlet.CommandLine
import Scriptlet.Proofs.Session.Composition

/-!
# What the modes say of a script

A script can be run, or its tree or its tokens can be shown. Each of the three goes to work in its
own way, but they agree on what is wrong with a script: the lexical faults of its text, or else the
fault of its syntax, each of them reported once and in order. Showing the tokens does not look at
the syntax.
-/

namespace Scriptlet

/-! ## What is written to a stream -/

/-- The reports of some diagnostics of a text, one after the other. -/
def Report.texts (source : String) (errors : List Diagnostic) : String :=
  String.join (errors.map fun d => (ofDiagnostic d source usualSize).text ++ "\n")

theorem Reporter.text_output_reportAll (source : String) (errors : List Diagnostic) :
    Event.text [.output] (reportAll { source } errors).2 = "" := by
  refine Event.text_eq_empty fun event hevent => ?_
  obtain ⟨d, -, rfl⟩ := List.mem_map.1 hevent
  rfl

/-- Each report ends up on the second stream once, in the order of the diagnostics. -/
theorem Reporter.text_reportAll (source : String) (errors : List Diagnostic) :
    Event.text [.trace, .report] (reportAll { source } errors).2 = Report.texts source errors := by
  have hall : (reportAll { source } errors).2.filter ([Channel.trace, .report].contains ·.channel) =
      (reportAll { source } errors).2 := by
    refine List.filter_eq_self.2 fun event hevent => ?_
    obtain ⟨d, -, rfl⟩ := List.mem_map.1 hevent
    rfl
  rw [Event.text, hall]
  exact congrArg String.join List.map_map

theorem Prompt.text_printed (lines : List String) :
    Event.text [.trace, .report] (printed lines) = "" := by
  refine Event.text_eq_empty fun event hevent => ?_
  obtain ⟨line, -, rfl⟩ := List.mem_map.1 hevent
  rfl

namespace CommandLine

open Prompt (printed text_printed)

namespace Outcome

/-- What a command line wrote to the first stream. -/
def stdout (outcome : Outcome) : String := String.join (outcome.segments.map (·.stdout))

def stderr (outcome : Outcome) : String := String.join (outcome.segments.map (·.stderr))

/-- A command line came to its end without an exit code and without a word on the second stream. -/
structure Succeeds (outcome : Outcome) : Prop where
  exit : outcome.exit = none
  failure : outcome.failure = none
  stderr : outcome.stderr = ""

/-- A command line ended the process with the exit code of a failed run, and these diagnostics of a
text are all that it wrote to the second stream. -/
structure Rejects (outcome : Outcome) (source : String) (errors : List Diagnostic) : Prop where
  exit : outcome.exit = some Status.failureCode
  failure : outcome.failure = none
  stderr : outcome.stderr = Report.texts source errors

end Outcome

section

variable {source path : String} {log : List Event} {errors : List Diagnostic}

theorem stdout_ending (code : Nat) : (ending code log).stdout = Event.text [.output] log :=
  String.empty_append

theorem stderr_ending (code : Nat) :
    (ending code log).stderr = Event.text [.trace, .report] log :=
  String.empty_append

theorem succeeds_once (h : Event.text [.trace, .report] log = "") : (once log).Succeeds :=
  ⟨rfl, rfl, String.empty_append.trans h⟩

theorem rejects_ending (h : Event.text [.trace, .report] log = Report.texts source errors) :
    (ending Status.failureCode log).Rejects source errors :=
  ⟨rfl, rfl, (stderr_ending _).trans h⟩

/-- Ending with reports and nothing else. -/
theorem rejects_ending_reportAll (source : String) (errors : List Diagnostic) :
    let outcome := ending Status.failureCode (Reporter.reportAll { source } errors).2
    outcome.Rejects source errors ∧ outcome.stdout = "" :=
  ⟨rejects_ending (Reporter.text_reportAll source errors),
    (stdout_ending _).trans (Reporter.text_output_reportAll source errors)⟩

/-! ## The modes one by one -/

theorem runScript_of_run_eq_finish {session : Session} {status : Status}
    (hrun : ({} : Session).run source false = session.finish source [] status errors)
    (hstatus : status ≠ .ok) :
    runScript path source false =
      ending Status.failureCode (Reporter.reportAll { source } errors).2 := by
  unfold runScript
  dsimp only
  rw [hrun, Session.result_finish]
  dsimp only
  rw [if_neg hstatus, Status.exitCode, if_neg hstatus, if_neg Bool.false_ne_true,
    if_neg Bool.false_ne_true, List.nil_append, List.append_nil]
  rfl

/-- A script that cannot be read is reported and nothing of it runs. -/
theorem runScript_of_diagnose_eq_error (path : String)
    (h : Program.diagnose source = .error errors) :
    runScript path source false =
      ending Status.failureCode (Reporter.reportAll { source } errors).2 := by
  have hends : Session.Ends {} source false (({} : Session).run source false) :=
    Session.ends_run rfl
  by_cases hfaults : (Scan.ofText source).faults = []
  · rw [Program.diagnose_of_faults_eq_nil hfaults] at h
    cases hread : Program.ofTokens (Scan.ofText source).tokens with
    | ok body =>
      rw [hread] at h
      cases h
    | error d =>
      rw [hread] at h
      cases h
      exact runScript_of_run_eq_finish (hends.unique (.parseError hfaults hread)) (by decide)
  · rw [Program.diagnose_of_faults_ne_nil hfaults] at h
    cases h
    exact runScript_of_run_eq_finish (hends.unique (.scanError hfaults)) (by decide)

/-- Showing the tree of such a script writes what running it writes. -/
theorem showTree_of_diagnose_eq_error (debug : Bool) (h : Program.diagnose source = .error errors) :
    showTree source debug = ending Status.failureCode (Reporter.reportAll { source } errors).2 := by
  unfold showTree
  rw [h]

theorem succeeds_showTree {body : Program} (h : Program.diagnose source = .ok body)
    (htext : Program.text? body ≠ none) : (showTree source false).Succeeds := by
  obtain ⟨tree, htree⟩ := Option.ne_none_iff_exists'.1 htext
  unfold showTree
  rw [h]
  dsimp only
  rw [htree]
  refine succeeds_once ?_
  rw [Event.text_append, Event.text_append, text_printed, text_printed]
  rfl

/-- The tokens that could be scanned are shown all the same, on the first stream. -/
theorem rejects_showTokens (h : (Scan.ofText source).faults ≠ []) :
    (showTokens source).Rejects source (Scan.ofText source).diagnostics := by
  unfold showTokens
  dsimp only
  rw [if_neg (by rwa [List.isEmpty_iff])]
  refine rejects_ending ?_
  rw [Event.text_append, Reporter.text_reportAll, text_printed, String.append_empty]

theorem succeeds_showTokens (h : (Scan.ofText source).faults = []) :
    (showTokens source).Succeeds := by
  unfold showTokens Scan.diagnostics
  dsimp only
  rw [h]
  exact succeeds_once (text_printed _)

end

/-! ## The modes side by side -/

/-- What can be done with a script. -/
inductive Mode where
  | run
  | tree
  | tokens
  deriving DecidableEq, Repr

/-- What options ask for; tokens come before the tree. -/
def Mode.ofOptions (options : Arguments.Options) : Mode :=
  if options.tokens then tokens else if options.parse then tree else run

/-- The arguments name a script and ask for a mode, and not for debugging. -/
def Asks (arguments : List String) (mode : Mode) (path : String) : Prop :=
  path ≠ "" ∧ ∃ options, Arguments.read arguments = .proceed options ∧
    options.script = some path ∧ options.debug = false ∧ Mode.ofOptions options = mode

def Mode.outcome (path source : String) : Mode → Outcome
  | run => runScript path source false
  | tree => showTree source false
  | tokens => showTokens source

/-- Arguments that name a script come down to what is done with it. -/
theorem run_eq_script {arguments : List String} {options : Arguments.Options} {path : String}
    (hrequest : Arguments.read arguments = .proceed options) (hscript : options.script = some path)
    (hpath : path ≠ "") (contents : String → Except ReadFault String)
    (lines : List (Option String)) (lineEditing : Bool) :
    run arguments contents lines lineEditing = script options path (contents path) := by
  have hsome : arguments.isEmpty = false := by
    cases arguments with
    | nil =>
      cases hrequest
      cases hscript
    | cons _ _ => rfl
  unfold run
  rw [hrequest]
  dsimp only
  rw [hsome, if_neg Bool.false_ne_true, hscript]
  split
  case h_1 h => cases h
  case h_2 h =>
    cases h
    exact absurd rfl hpath
  case h_3 h =>
    cases h
    rfl

/-- Arguments that ask for a mode have it at work on what is read at the path. -/
theorem run_eq_outcome {arguments : List String} {mode : Mode} {path source : String}
    {contents : String → Except ReadFault String} (h : Asks arguments mode path)
    (hread : contents path = .ok source) (lines : List (Option String)) (lineEditing : Bool) :
    run arguments contents lines lineEditing = mode.outcome path source := by
  obtain ⟨hpath, options, hrequest, hscript, hdebug, rfl⟩ := h
  rw [run_eq_script hrequest hscript hpath, hread]
  unfold script Mode.ofOptions
  dsimp only
  rw [hdebug]
  by_cases htokens : options.tokens
  · rw [if_pos htokens, if_pos htokens]
    rfl
  · rw [if_neg htokens, if_neg htokens]
    by_cases hparse : options.parse
    · rw [if_pos hparse, if_pos hparse]
      rfl
    · rw [if_neg hparse, if_neg hparse]
      rfl

/-- The modes agree on what is wrong with a script that can be read. Lexical faults end all three of
them with the same reports; a fault of the syntax ends the run and the tree with the same report,
and is nothing to the tokens; a script that can be read as a program has its tokens shown, and its
tree as well unless that is too deep to be written. -/
theorem run_modes_agree {plain parse scan : List String} {path source : String}
    {contents : String → Except ReadFault String} (hplain : Asks plain .run path)
    (hparse : Asks parse .tree path) (hscan : Asks scan .tokens path)
    (hread : contents path = .ok source) (lines : List (Option String)) (lineEditing : Bool) :
    let ran := run plain contents lines lineEditing
    let parsed := run parse contents lines lineEditing
    let scanned := run scan contents lines lineEditing
    ((Scan.ofText source).faults ≠ [] →
      (∀ outcome ∈ [ran, parsed, scanned], outcome.Rejects source (Scan.ofText source).diagnostics) ∧
        ran.stdout = "" ∧ parsed.stdout = "") ∧
    (∀ d, (Scan.ofText source).faults = [] → Program.ofText source = .error d →
      (∀ outcome ∈ [ran, parsed], outcome.Rejects source [d] ∧ outcome.stdout = "") ∧
        scanned.Succeeds) ∧
    (∀ body, Program.ofText source = .ok body →
      scanned.Succeeds ∧ (Program.text? body ≠ none → parsed.Succeeds)) := by
  intro ran parsed scanned
  have hran : ran = runScript path source false := run_eq_outcome hplain hread lines lineEditing
  have hparsed : parsed = showTree source false := run_eq_outcome hparse hread lines lineEditing
  have hscanned : scanned = showTokens source := run_eq_outcome hscan hread lines lineEditing
  refine ⟨fun hfaults => ?_, fun d hfaults htext => ?_, fun body htext => ?_⟩
  · have hdiagnose := Program.diagnose_of_faults_ne_nil hfaults
    rw [hran, hparsed, hscanned, runScript_of_diagnose_eq_error path hdiagnose,
      showTree_of_diagnose_eq_error false hdiagnose]
    obtain ⟨hrejects, hstdout⟩ := rejects_ending_reportAll source (Scan.ofText source).diagnostics
    refine ⟨?_, hstdout, hstdout⟩
    simp only [List.forall_mem_cons]
    exact ⟨hrejects, hrejects, rejects_showTokens hfaults, List.forall_mem_nil _⟩
  · have hdiagnose := Program.diagnose_of_ofText_eq_error hfaults htext
    rw [hran, hparsed, hscanned, runScript_of_diagnose_eq_error path hdiagnose,
      showTree_of_diagnose_eq_error false hdiagnose]
    have hrejects := rejects_ending_reportAll source [d]
    refine ⟨?_, succeeds_showTokens hfaults⟩
    simp only [List.forall_mem_cons]
    exact ⟨hrejects, hrejects, List.forall_mem_nil _⟩
  · rw [hparsed, hscanned]
    have hfaults := Program.faults_eq_nil_of_ofText htext
    exact ⟨succeeds_showTokens hfaults, succeeds_showTree (Program.diagnose_of_ofText htext)⟩

/-- A script with two stray characters, told to a run, to a tree and to tokens. -/
theorem run_modes_agree_stray :
    let files : FileStore := { entries := [(["s.jb"], .file [64, 59, 36])] }
    let ran := run ["s.jb"] files.read [] false
    let parsed := run ["--parse", "s.jb"] files.read [] false
    let scanned := run ["--tok", "-i", "s.jb"] files.read [] false
    (Scan.ofText "@;$").diagnostics.length = 2 ∧ ran.exit = some 65 ∧ ran.stderr = parsed.stderr ∧
      parsed.stderr = scanned.stderr ∧ parsed.stdout = "" := by
  intro files ran parsed scanned
  have hplain : Asks ["s.jb"] .run "s.jb" :=
    ⟨by decide, { script := some "s.jb" }, by decide +kernel, rfl, rfl, rfl⟩
  have hparse : Asks ["--parse", "s.jb"] .tree "s.jb" :=
    ⟨by decide, { parse := true, script := some "s.jb" }, by decide +kernel, rfl, rfl, rfl⟩
  have hscan : Asks ["--tok", "-i", "s.jb"] .tokens "s.jb" :=
    ⟨by decide, { interactive := true, tokens := true, script := some "s.jb" }, by decide +kernel,
      rfl, rfl, rfl⟩
  have hread : files.read "s.jb" = .ok "@;$" := by decide +kernel
  have hagree := run_modes_agree hplain hparse hscan hread [] false
  obtain ⟨hall, -, hstdout⟩ := hagree.1 (by decide +kernel)
  simp only [List.forall_mem_cons] at hall
  obtain ⟨hran, hparsed, hscanned, -⟩ := hall
  exact ⟨by decide +kernel, hran.exit, hran.stderr.trans hparsed.stderr.symm,
    hparsed.stderr.trans hscanned.stderr.symm, hstdout⟩

end CommandLine

end Scriptlet
