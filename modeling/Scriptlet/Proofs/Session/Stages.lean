import Scriptlet.Session

/-!
# The stages of a run

A run that does not debug ends in one of four ways, at the first stage that finds something wrong or
after the last one. A run that debugs shows what each stage makes of the text, and may have to give up
at the tree. What a run is, is said here once; the rest is about the stages.
-/

namespace Scriptlet

/-! ## Reading a text -/

/-- Scanning without faults leaves all that can go wrong to the syntax. -/
theorem Program.ofText_of_faults_eq_nil {source : String} (h : (Scan.ofText source).faults = []) :
    Program.ofText source = Program.ofTokens (Scan.ofText source).tokens := by
  unfold Program.ofText Grammar.readText Scan.diagnostics
  dsimp only
  rw [h]
  rfl

/-- A text with lexical faults is not read, even if its tokens would make a program. -/
theorem Program.exists_ofText_eq_error {source : String} (h : (Scan.ofText source).faults ≠ []) :
    ∃ d, Program.ofText source = .error d := by
  obtain ⟨fault, faults, hfaults⟩ := List.exists_cons_of_ne_nil h
  refine ⟨fault.diagnostic, ?_⟩
  unfold Program.ofText Grammar.readText Scan.diagnostics
  dsimp only
  rw [hfaults]
  rfl

theorem Program.diagnose_of_faults_eq_nil {source : String} (h : (Scan.ofText source).faults = []) :
    Program.diagnose source =
      (Program.ofTokens (Scan.ofText source).tokens).mapError fun fault => [fault] := by
  unfold Program.diagnose Scan.diagnostics
  dsimp only
  rw [h]
  rfl

/-- Lexical faults are reported all together, and the syntax is not looked at. -/
theorem Program.diagnose_of_faults_ne_nil {source : String} (h : (Scan.ofText source).faults ≠ []) :
    Program.diagnose source = .error (Scan.ofText source).diagnostics := by
  obtain ⟨fault, faults, hfaults⟩ := List.exists_cons_of_ne_nil h
  unfold Program.diagnose Scan.diagnostics
  dsimp only
  rw [hfaults]
  rfl

theorem Program.faults_eq_nil_of_ofText {source : String} {body : Program}
    (h : Program.ofText source = .ok body) : (Scan.ofText source).faults = [] := by
  by_cases hfaults : (Scan.ofText source).faults = []
  · exact hfaults
  · obtain ⟨d, hd⟩ := Program.exists_ofText_eq_error hfaults
    rw [hd] at h
    cases h

theorem Program.diagnose_of_ofText {source : String} {body : Program}
    (h : Program.ofText source = .ok body) : Program.diagnose source = .ok body := by
  have hfaults := Program.faults_eq_nil_of_ofText h
  rw [Program.ofText_of_faults_eq_nil hfaults] at h
  rw [Program.diagnose_of_faults_eq_nil hfaults, h]
  rfl

theorem Program.diagnose_of_ofText_eq_error {source : String} {d : Diagnostic}
    (hfaults : (Scan.ofText source).faults = []) (h : Program.ofText source = .error d) :
    Program.diagnose source = .error [d] := by
  rw [Program.ofText_of_faults_eq_nil hfaults] at h
  rw [Program.diagnose_of_faults_eq_nil hfaults, h]
  rfl

/-- The two ways to read a text differ only in how many faults they give. -/
theorem Program.ofText_of_diagnose {source : String} {body : Program}
    (h : Program.diagnose source = .ok body) : Program.ofText source = .ok body := by
  by_cases hfaults : (Scan.ofText source).faults = []
  · rw [Program.diagnose_of_faults_eq_nil hfaults] at h
    rw [Program.ofText_of_faults_eq_nil hfaults]
    cases hread : Program.ofTokens (Scan.ofText source).tokens with
    | ok found =>
      rw [hread] at h
      cases h
      rfl
    | error d =>
      rw [hread] at h
      cases h
  · rw [Program.diagnose_of_faults_ne_nil hfaults] at h
    cases h

/-! ## Running a text -/

/-- What a debugging run shows before it runs a program: its tokens, how many statements it has, and
its tree. -/
def Program.shown (scan : Scan) (body : Program) (tree : String) : List Event :=
  scan.dump ++ body.notice true ++ [⟨.trace, "AST:"⟩] ++ [⟨.trace, tree⟩]

namespace Session

variable {session : Session} {source : String} {echo : Bool}

/-- The ways in which a run of a text may end. -/
inductive Ends (session : Session) (source : String) (echo : Bool) : Run → Prop
  | scanError : (Scan.ofText source).faults ≠ [] →
      Ends session source echo
        (finish session source [] .scanError (Scan.ofText source).diagnostics)
  | parseError {d : Diagnostic} : (Scan.ofText source).faults = [] →
      Program.ofTokens (Scan.ofText source).tokens = .error d →
      Ends session source echo (finish session source [] .parseError [d])
  | runtimeError {program : Program} {stop : Stop} {state : State} :
      (Scan.ofText source).faults = [] →
      Program.ofTokens (Scan.ofText source).tokens = .ok program →
      perform false echo program { scope := session.scope } = .error stop state →
      Ends session source echo
        (finish { session with scope := state.scope } source state.log .runtimeError
          [stop.diagnostic])
  | ok {program : Program} {state : State} : (Scan.ofText source).faults = [] →
      Program.ofTokens (Scan.ofText source).tokens = .ok program →
      perform false echo program { scope := session.scope } = .ok () state →
      Ends session source echo
        (finish { session with scope := state.scope } source state.log .ok [])

theorem ends_run (hdebug : session.debug = false) :
    Ends session source echo (session.run source echo) := by
  unfold run
  by_cases hfaults : (Scan.ofText source).faults = []
  · simp only [hfaults, List.isEmpty_nil, hdebug, Bool.false_eq_true, ↓reduceIte]
    cases hread : Program.ofTokens (Scan.ofText source).tokens with
    | error d => exact .parseError hfaults hread
    | ok program =>
      dsimp only [runProgram]
      cases hperform : perform session.debug echo program { scope := session.scope } with
      | ok _ state => exact .ok hfaults hread (hdebug ▸ hperform)
      | error stop state => exact .runtimeError hfaults hread (hdebug ▸ hperform)
  · simp only [List.isEmpty_iff, hfaults, ↓reduceIte]
    exact .scanError hfaults

/-- Without debugging, every run comes to a result. -/
theorem Ends.exists_result {run : Run} (h : Ends session source echo run) :
    ∃ result, run.result = some result := by
  cases h <;> exact ⟨_, rfl⟩

theorem Ends.debug_session {run : Run} (h : Ends session source echo run) :
    run.session.debug = session.debug := by
  cases h <;> rfl

/-- A run ends in one way. -/
theorem Ends.unique {run other : Run} (h : Ends session source echo run)
    (h' : Ends session source echo other) : run = other := by
  cases h <;> cases h' <;> simp_all

/-- The ways in which a run of a text may go in a session that debugs. -/
inductive Shows (session : Session) (source : String) (echo : Bool) : Run → Prop
  | scanError : (Scan.ofText source).faults ≠ [] →
      Shows session source echo
        (finish session source [] .scanError (Scan.ofText source).diagnostics)
  | parseError {d : Diagnostic} : (Scan.ofText source).faults = [] →
      Program.ofTokens (Scan.ofText source).tokens = .error d →
      Shows session source echo
        (finish session source (Scan.ofText source).dump .parseError [d])
  | unshown {program : Program} : (Scan.ofText source).faults = [] →
      Program.ofTokens (Scan.ofText source).tokens = .ok program →
      Program.text? program = none →
      Shows session source echo
        { session := { session with reporter := { source } }
          log := (Scan.ofText source).dump ++ program.notice true ++ [⟨.trace, "AST:"⟩]
          result := none }
  | performed {program : Program} {tree : String} : (Scan.ofText source).faults = [] →
      Program.ofTokens (Scan.ofText source).tokens = .ok program →
      Program.text? program = some tree →
      Shows session source echo
        (runProgram session source echo (Program.shown (Scan.ofText source) program tree) program)

/-- The same stages with what they show. Only here a tree may be too high to go on. -/
theorem shows_run (hdebug : session.debug = true) :
    Shows session source echo (session.run source echo) := by
  obtain ⟨debug, scope, reporter⟩ := session
  obtain rfl : debug = true := hdebug
  unfold run
  by_cases hfaults : (Scan.ofText source).faults = []
  · simp only [hfaults, List.isEmpty_nil, ↓reduceIte]
    cases hread : Program.ofTokens (Scan.ofText source).tokens with
    | error d => exact .parseError hfaults hread
    | ok program =>
      dsimp only
      cases htree : Program.text? program with
      | none => exact .unshown hfaults hread htree
      | some tree => exact .performed hfaults hread htree
  · simp only [List.isEmpty_iff, hfaults, ↓reduceIte]
    exact .scanError hfaults

/-- The session after texts were run one after the other, each with or without echo. -/
def after (session : Session) : (history : List (String × Bool)) → Session
  | [] => session
  | (source, echo) :: later => after (session.run source echo).session later

theorem debug_after (hdebug : session.debug = false) (history : List (String × Bool)) :
    (session.after history).debug = false := by
  induction history generalizing session with
  | nil => exact hdebug
  | cons text later ih =>
    apply ih
    rw [(ends_run hdebug).debug_session, hdebug]

@[simp]
theorem result_finish (log : List Event) (status : Status) (errors : List Diagnostic) :
    (finish session source log status errors).result = some ⟨status, errors⟩ := rfl

@[simp]
theorem log_finish (log : List Event) (status : Status) (errors : List Diagnostic) :
    (finish session source log status errors).log =
      log ++ errors.map fun d => ⟨.report, Reporter.wording { source } d⟩ := rfl

end Session

end Scriptlet
