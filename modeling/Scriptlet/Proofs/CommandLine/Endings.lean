import Scriptlet.Proofs.CommandLine.Arguments
import Scriptlet.Proofs.CommandLine.Modes
import Scriptlet.Proofs.Session.Debugging

/-!
# How a command line with a script ends

A script that is missing, may not be opened or is not UTF-8 ends the process with one code, a script on
which a stage fails with another, and with any other script the command line returns. That is so unless
the command line breaks down, which it does in two cases: the script cannot be read for another reason,
of which a directory at the path and a plain file on the way to it are two, or the tree of the program
has to be written and is too high for that. The second case is about trees, not about texts: a long
chain of operators is read without opening a level for each of them, and makes a high tree. What is
read at a path is a parameter of all this (`CommandLine.run`), so the results hold of any files.
-/

namespace Scriptlet

theorem Program.sexps_eq_map (body : Program) : Program.sexps body = body.map Stmt.sexp := by
  induction body with
  | nil => rfl
  | cons statement rest ih => rw [Program.sexps, ih, List.map_cons]

/-- Trees cannot be written if one of them is too high. -/
theorem Sexp.textLines?_eq_none_iff {ss : List Sexp} :
    textLines? ss = none ↔ ∃ s ∈ ss, Nesting.writing < s.height := by
  unfold textLines?
  rw [Option.map_eq_none_iff]
  induction ss with
  | nil => simp
  | cons s ss ih =>
    simp only [List.mapM_cons, List.mem_cons, exists_eq_or_imp, ← ih]
    by_cases hs : s.height ≤ Nesting.writing
    · have hwritten : text? s = some s.text := if_pos hs
      cases ss.mapM text? <;> simp [hwritten, Nat.not_lt.2 hs]
    · have hunwritten : text? s = none := if_neg hs
      simp [hunwritten, Nat.not_le.1 hs]

/-- The statements are written one by one, so one of them that is too high is enough. -/
theorem Program.text?_eq_none_iff {body : Program} :
    Program.text? body = none ↔ ∃ statement ∈ body, Nesting.writing < statement.sexp.height := by
  unfold Program.text?
  rw [Sexp.textLines?_eq_none_iff, Program.sexps_eq_map]
  simp only [List.mem_map, exists_exists_and_eq_and]

namespace Session

/-- A run from a new session is given up if it debugs and its tree is too high to be shown, and ends
as a run that does not debug otherwise. -/
theorem result_run_debug (debug : Bool) (source : String) :
    (debug = true ∧ (∃ body, Program.ofText source = .ok body ∧ Program.text? body = none) ∧
      (run { debug } source false).result = none) ∨
    ((debug = true → ∀ body, Program.ofText source = .ok body → Program.text? body ≠ none) ∧
      (run { debug } source false).result = (run {} source false).result) := by
  cases debug with
  | false => exact .inr ⟨fun h => absurd h Bool.false_ne_true, rfl⟩
  | true =>
    have hshows : Shows { debug := true } source false (run { debug := true } source false) :=
      shows_run rfl
    by_cases hresult : (run { debug := true } source false).result = none
    · refine .inl ⟨rfl, ?_, hresult⟩
      generalize run { debug := true } source false = debugging at *
      cases hshows with
      | scanError _ => cases hresult
      | parseError _ _ => cases hresult
      | @unshown body hfaults hread htree =>
        exact ⟨body, (Program.ofText_of_faults_eq_nil hfaults).trans hread, htree⟩
      | performed _ _ _ =>
        unfold runProgram at hresult
        split at hresult <;> cases hresult
    · refine .inr ⟨?_, (shadows_run {} source false hresult).result⟩
      intro _ body hbody htree
      have hfaults := Program.faults_eq_nil_of_ofText hbody
      rw [Program.ofText_of_faults_eq_nil hfaults] at hbody
      apply hresult
      unfold run
      simp only [hfaults, List.isEmpty_nil, hbody, htree, ↓reduceIte]

end Session

namespace CommandLine

open Arguments (IsScript isScript_of_head? read_flags_script script_of_read_flags scriptFlags)

/-- A stage that options ask for fails on a script. -/
inductive Fails (options : Arguments.Options) (source : String) : Prop
  | scanning : (Scan.ofText source).faults ≠ [] → Fails options source
  | reading {d : Diagnostic} : options.tokens = false → Program.ofText source = .error d →
      Fails options source
  | running {body : Program} {stop : Stop} {state : State} : options.tokens = false →
      options.parse = false → Program.ofText source = .ok body →
      Session.perform false false body {} = .error stop state → Fails options source

/-- A script has a tree that options ask for and that is too high to be written. -/
def Overwhelms (options : Arguments.Options) (source : String) : Prop :=
  options.tokens = false ∧ (options.parse = true ∨ options.debug = true) ∧
    ∃ body, Program.ofText source = .ok body ∧
      ∃ statement ∈ body, Nesting.writing < statement.sexp.height

/-- How an outcome ends, by whether the command line can cope and whether a stage fails. -/
inductive Settles (overwhelmed fails : Prop) (outcome : Outcome) : Prop
  | brokenDown : overwhelmed → outcome.failure ≠ none → outcome.exit = none →
      Settles overwhelmed fails outcome
  | failed : ¬overwhelmed → fails → outcome.failure = none →
      outcome.exit = some Status.failureCode → Settles overwhelmed fails outcome
  | returned : ¬overwhelmed → ¬fails → outcome.failure = none → outcome.exit = none →
      Settles overwhelmed fails outcome

section Stages

variable {options : Arguments.Options} (source : String)

/-- Showing tokens writes no tree and so never breaks down. -/
theorem settles_showTokens (htokens : options.tokens = true) :
    Settles (Overwhelms options source) (Fails options source) (showTokens source) := by
  have hcopes : ¬Overwhelms options source := by
    rintro ⟨hother, -⟩
    rw [htokens] at hother
    cases hother
  unfold showTokens
  by_cases hfaults : (Scan.ofText source).faults = []
  · simp only [hfaults, List.isEmpty_nil, ↓reduceIte]
    refine .returned hcopes ?_ rfl rfl
    rintro (hscan | ⟨hother, -⟩ | ⟨hother, -, -, -⟩)
    · exact hscan hfaults
    · rw [htokens] at hother
      cases hother
    · rw [htokens] at hother
      cases hother
  · simp only [List.isEmpty_iff, hfaults, ↓reduceIte]
    exact .failed hcopes (.scanning hfaults) rfl rfl

variable (htokens : options.tokens = false)
include htokens

theorem fails_of_diagnose_eq_error {errors : List Diagnostic}
    (h : Program.diagnose source = .error errors) : Fails options source := by
  cases hread : Program.ofText source with
  | ok body =>
    rw [Program.diagnose_of_ofText hread] at h
    cases h
  | error d => exact .reading htokens hread

/-- A text that is at fault has no tree to write, so the two cases exclude each other. -/
theorem settles_showTree (hparse : options.parse = true) :
    Settles (Overwhelms options source) (Fails options source)
      (showTree source options.debug) := by
  unfold showTree
  cases hdiagnose : Program.diagnose source with
  | error errors =>
    have hcopes : ¬Overwhelms options source := by
      rintro ⟨-, -, body, hbody, -⟩
      rw [Program.diagnose_of_ofText hbody] at hdiagnose
      cases hdiagnose
    exact .failed hcopes (fails_of_diagnose_eq_error source htokens hdiagnose) rfl rfl
  | ok body =>
    have hbody := Program.ofText_of_diagnose hdiagnose
    dsimp only
    cases htree : Program.text? body with
    | none =>
      have hhigh := Program.text?_eq_none_iff.1 htree
      exact .brokenDown ⟨htokens, .inl hparse, body, hbody, hhigh⟩ (Option.some_ne_none _) rfl
    | some tree =>
      refine .returned ?_ ?_ rfl rfl
      · rintro ⟨-, -, body', hbody', hhigh⟩
        cases hbody.symm.trans hbody'
        rw [Program.text?_eq_none_iff.2 hhigh] at htree
        cases htree
      · rintro (hscan | ⟨-, herror⟩ | ⟨-, hother, -, -⟩)
        · exact hscan (Program.faults_eq_nil_of_ofText hbody)
        · cases hbody.symm.trans herror
        · rw [hparse] at hother
          cases hother

/-- A run that does not debug ends well unless a stage fails. -/
theorem result_run_ok_iff (hparse : options.parse = false) :
    ∃ result, (({} : Session).run source false).result = some result ∧
      (result.status = .ok ↔ ¬Fails options source) := by
  have hends : Session.Ends {} source false (({} : Session).run source false) :=
    Session.ends_run rfl
  generalize ({} : Session).run source false = run at *
  cases hends with
  | scanError hfaults =>
    refine ⟨_, rfl, iff_of_false ?_ (not_not.2 (.scanning hfaults))⟩
    exact Status.noConfusion
  | parseError hfaults hread =>
    rw [← Program.ofText_of_faults_eq_nil hfaults] at hread
    refine ⟨_, rfl, iff_of_false ?_ (not_not.2 (.reading htokens hread))⟩
    exact Status.noConfusion
  | runtimeError hfaults hread hstop =>
    rw [← Program.ofText_of_faults_eq_nil hfaults] at hread
    refine ⟨_, rfl, iff_of_false ?_ (not_not.2 (.running htokens hparse hread hstop))⟩
    exact Status.noConfusion
  | ok hfaults hread hdone =>
    rw [← Program.ofText_of_faults_eq_nil hfaults] at hread
    refine ⟨_, rfl, iff_of_true rfl ?_⟩
    rintro (hscan | ⟨-, herror⟩ | ⟨-, -, hbody, hstop⟩)
    · exact hscan hfaults
    · cases hread.symm.trans herror
    · cases hread.symm.trans hbody
      cases hdone.symm.trans hstop

/-- Running writes a tree only when it debugs, before it executes anything. -/
theorem settles_runScript (hparse : options.parse = false) (path : String) :
    Settles (Overwhelms options source) (Fails options source)
      (runScript path source options.debug) := by
  unfold runScript
  dsimp only
  rcases Session.result_run_debug options.debug source with
    ⟨hdebug, ⟨body, hbody, htree⟩, hresult⟩ | ⟨hshown, hresult⟩
  · rw [hresult]
    have hhigh := Program.text?_eq_none_iff.1 htree
    exact .brokenDown ⟨htokens, .inr hdebug, body, hbody, hhigh⟩ (Option.some_ne_none _) rfl
  · have hcopes : ¬Overwhelms options source := by
      rintro ⟨-, hparse' | hdebug, body, hbody, hhigh⟩
      · rw [hparse] at hparse'
        cases hparse'
      · exact hshown hdebug body hbody (Program.text?_eq_none_iff.2 hhigh)
    obtain ⟨result, hplain, hok⟩ := result_run_ok_iff source htokens hparse
    rw [hresult, hplain]
    dsimp only
    by_cases hstatus : result.status = .ok
    · rw [if_pos hstatus]
      exact .returned hcopes (hok.1 hstatus) rfl rfl
    · rw [if_neg hstatus, Status.exitCode, if_neg hstatus]
      exact .failed hcopes (not_not.1 fun h => hstatus (hok.2 h)) rfl rfl

end Stages

theorem settles_script (options : Arguments.Options) (path source : String) :
    Settles (Overwhelms options source) (Fails options source)
      (script options path (.ok source)) := by
  unfold script
  dsimp only
  cases htokens : options.tokens with
  | true => exact settles_showTokens source htokens
  | false =>
    cases hparse : options.parse with
    | true => exact settles_showTree source htokens hparse
    | false => exact settles_runScript source htokens hparse path

/-- How a command line ends, by what is read at the path of its script. -/
structure Concludes (options : Arguments.Options) (text : Except ReadFault String)
    (outcome : Outcome) : Prop where
  /-- It breaks down on what it does not expect at the path, and on a tree that is too high. -/
  failure_iff : outcome.failure ≠ none ↔
    text = .error .isDirectory ∨ text = .error .notDirectory ∨ text = .error .other ∨
      ∃ source, text = .ok source ∧ Overwhelms options source
  exit_of_failure : outcome.failure ≠ none → outcome.exit = none
  /-- It exits with 1 on what it does expect there. -/
  unreadable_iff : outcome.exit = some 1 ↔
    text = .error .notFound ∨ text = .error .permissionDenied ∨
      ∃ fault, text = .error (.undecodable fault)
  /-- It exits with 65 if a stage fails. -/
  failed_iff : outcome.exit = some 65 ↔
    ∃ source, text = .ok source ∧ Fails options source ∧ ¬Overwhelms options source
  /-- It returns if none does. -/
  returned_iff : outcome.exit = none ∧ outcome.failure = none ↔
    ∃ source, text = .ok source ∧ ¬Fails options source ∧ ¬Overwhelms options source

/-- What is read at the path decides first, and only a text that could be read goes on to a mode. -/
theorem concludes_script (options : Arguments.Options) (path : String)
    (text : Except ReadFault String) : Concludes options text (script options path text) := by
  cases text with
  | error fault =>
    cases fault <;> constructor <;> simp [script, unreadable, ending, failing, once, unreadableCode]
  | ok source =>
    have hsettles := settles_script options path source
    generalize script options path (.ok source) = outcome at hsettles
    rcases hsettles with ⟨hbreaks, hfailure, hexit⟩ | ⟨hcopes, hfails, hfailure, hexit⟩ |
      ⟨hcopes, hfails, hfailure, hexit⟩
    · constructor <;> simp [hbreaks, hfailure, hexit]
    · constructor <;> simp [hcopes, hfails, hfailure, hexit, Status.failureCode]
    · constructor <;> simp [hcopes, hfails, hfailure, hexit]

/-- Without a script, nothing is read. -/
theorem run_congr_of_no_script {arguments : List String}
    (h : ∀ options, Arguments.read arguments = .proceed options →
      options.script = none ∨ options.script = some "")
    (contents other : String → Except ReadFault String) (lines : List (Option String))
    (lineEditing : Bool) :
    run arguments other lines lineEditing = run arguments contents lines lineEditing := by
  unfold run
  cases hread : Arguments.read arguments with
  | help | version | invalid _ => rfl
  | proceed options =>
    dsimp only
    rcases h options hread with hscript | hscript
    · rewrite [hscript]
      rfl
    · rewrite [hscript]
      rfl

end CommandLine

end Scriptlet
