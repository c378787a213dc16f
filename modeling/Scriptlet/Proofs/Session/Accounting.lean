import Scriptlet.Proofs.Execution.Effect
import Scriptlet.Proofs.Grammar.Location
import Scriptlet.Proofs.Session.Stages
import Scriptlet.Proofs.Token.LongestMatch

/-!
# The account of a run

What is wrong with a text reaches the reporter on several ways, and the reporter has seen earlier
texts. After every run the result, the reporter, the reports that were written and the scopes still
tell one story (`Accounts`), whatever was run before.
-/

namespace Scriptlet

namespace Reporter

/-- The reporter keeps diagnostics in the order in which they reach it. -/
theorem errors_foldl_record (reporter : Reporter) (errors : List Diagnostic) :
    (errors.foldl record reporter).errors = reporter.errors ++ errors := by
  induction errors generalizing reporter with
  | nil => simp
  | cons d errors ih =>
    rw [List.foldl_cons, ih]
    simp [record]

theorem hadError_iff {reporter : Reporter} :
    reporter.hadError = true ↔ ∃ d ∈ reporter.errors, d.kind ≠ .runtime := by
  simp [hadError]

theorem hadRuntimeError_iff {reporter : Reporter} :
    reporter.hadRuntimeError = true ↔ ∃ d ∈ reporter.errors, d.kind = .runtime := by
  simp [hadRuntimeError]

end Reporter

/-- Each stage has a kind of diagnostics of its own, by which its errors can be told. -/
theorem Scan.kind_of_mem_diagnostics {scan : Scan} {d : Diagnostic} (h : d ∈ scan.diagnostics) :
    d.kind = .scan := by
  obtain ⟨fault, -, rfl⟩ := List.mem_map.1 h
  cases fault <;> rfl

theorem Stop.kind_diagnostic (stop : Stop) : stop.diagnostic.kind = .runtime := by
  cases stop <;> rfl

namespace Session

/-- The result of a run of `source`, the reporter, what was written and the scopes agree. -/
structure Accounts (before : Session) (source : String) (run : Run) (result : RunResult) :
    Prop where
  /-- Lexical faults alone make a scan error. -/
  scanError_iff : result.status = .scanError ↔ (Scan.ofText source).faults ≠ []
  /-- All lexical faults are given, in the order of the text's elements. -/
  scanError : result.status = .scanError →
    result.errors = (Scan.ofText source).diagnostics ∧
      result.errors.map (fun d => (d.message, d.lexeme)) =
        (Element.split source.toList).filterMap Element.complaint?
  parseError : result.status = .parseError → ∃ d, result.errors = [d] ∧ d.kind = .parse
  runtimeError : result.status = .runtimeError → ∃ d, result.errors = [d] ∧ d.kind = .runtime
  ok_iff : result.status = .ok ↔ result.errors = []
  /-- The reporter has noted the errors of this run and no others. -/
  reporter : run.session.reporter.errors = result.errors
  /-- Each error was reported once, in order. -/
  reports : run.log.filter (·.channel = .report) =
    result.errors.map fun d => ⟨.report, (Report.ofDiagnostic d source Report.usualSize).text⟩
  hadError_iff : run.session.reporter.hadError = true ↔
    result.status = .scanError ∨ result.status = .parseError
  hadRuntimeError_iff : run.session.reporter.hadRuntimeError = true ↔
    result.status = .runtimeError
  /-- A text that cannot be read prints nothing and changes nothing. -/
  untouched : result.status = .scanError ∨ result.status = .parseError →
    run.log.filter (·.channel = .output) = [] ∧ run.session.scope = before.scope

/-- The errors that a status may come with. -/
inductive Fits : Status → List Diagnostic → Prop
  | scanError {errors : List Diagnostic} :
      errors ≠ [] → (∀ d ∈ errors, d.kind = .scan) → Fits .scanError errors
  | parseError {d : Diagnostic} : d.kind = .parse → Fits .parseError [d]
  | runtimeError {d : Diagnostic} : d.kind = .runtime → Fits .runtimeError [d]
  | ok : Fits .ok []

namespace Fits

variable {status : Status} {errors : List Diagnostic}

theorem ok_iff (h : Fits status errors) : status = .ok ↔ errors = [] := by
  cases h with
  | scanError hne _ => exact iff_of_false (by decide) hne
  | parseError _ => exact iff_of_false (by decide) (List.cons_ne_nil _ _)
  | runtimeError _ => exact iff_of_false (by decide) (List.cons_ne_nil _ _)
  | ok => exact iff_of_true rfl rfl

/-- The flags of the reporter follow from the status, as errors of two stages never come
together. -/
theorem exists_kind_ne_iff (h : Fits status errors) :
    (∃ d ∈ errors, d.kind ≠ .runtime) ↔ status = .scanError ∨ status = .parseError := by
  cases h with
  | scanError hne hkind =>
    obtain ⟨d, hd⟩ := List.exists_mem_of_ne_nil _ hne
    exact iff_of_true ⟨d, hd, by rw [hkind d hd]; decide⟩ (.inl rfl)
  | parseError hkind => exact iff_of_true ⟨_, List.mem_cons_self, by rw [hkind]; decide⟩ (.inr rfl)
  | runtimeError hkind => exact iff_of_false (by simp [hkind]) (by decide)
  | ok => exact iff_of_false (by simp) (by decide)

theorem exists_kind_eq_iff (h : Fits status errors) :
    (∃ d ∈ errors, d.kind = .runtime) ↔ status = .runtimeError := by
  cases h with
  | scanError _ hkind =>
    refine iff_of_false ?_ (by decide)
    rintro ⟨d, hd, hruntime⟩
    rw [hkind d hd] at hruntime
    cases hruntime
  | parseError hkind => exact iff_of_false (by simp [hkind]) (by decide)
  | runtimeError hkind => exact iff_of_true ⟨_, List.mem_cons_self, hkind⟩ rfl
  | ok => exact iff_of_false (by simp) (by decide)

end Fits

variable {session : Session} {source : String} {echo : Bool}

theorem errors_finish (log : List Event) (status : Status) (errors : List Diagnostic) :
    (finish session source log status errors).session.reporter.errors = errors :=
  (Reporter.errors_foldl_record { source } errors).trans (List.nil_append errors)

/-- Reports are written after what was written before, and on a channel of their own. -/
theorem filter_report_finish {log : List Event} (status : Status) (errors : List Diagnostic)
    (hlog : ∀ e ∈ log, e.channel ≠ .report) :
    (finish session source log status errors).log.filter (·.channel = .report) =
      errors.map fun d => ⟨.report, (Report.ofDiagnostic d source Report.usualSize).text⟩ := by
  have hnone : log.filter (·.channel = .report) = [] := by simpa using hlog
  rw [log_finish, List.filter_append, hnone, List.nil_append]
  refine List.filter_eq_self.2 fun e he => ?_
  obtain ⟨d, -, rfl⟩ := List.mem_map.1 he
  rfl

theorem filter_output_finish (status : Status) (errors : List Diagnostic) :
    (finish session source [] status errors).log.filter (·.channel = .output) = [] := by
  rw [log_finish, List.nil_append, List.filter_eq_nil_iff]
  simp

/-- A program that is not traced writes no reports. -/
theorem channel_ne_report_of_perform (echo : Bool) (body : Program) (scope : Scope) :
    ∀ e ∈ (Ending.state (perform false echo body { scope })).log, e.channel ≠ .report := by
  intro e he
  obtain ⟨-, written, hlog, hwritten⟩ := leads_perform false echo body { scope }
  rw [hlog, List.nil_append] at he
  obtain hchannel | ⟨hfalse, -⟩ := hwritten e he
  · rw [hchannel]
    decide
  · cases hfalse

/-- Every run that ends goes through here, so one lemma accounts for all ways to end. -/
theorem accounts_finish {ended : Session} {log : List Event} {status : Status}
    {errors : List Diagnostic} (hfits : Fits status errors)
    (hlog : ∀ e ∈ log, e.channel ≠ .report)
    (hscan : status = .scanError ↔ (Scan.ofText source).faults ≠ [])
    (herrors : status = .scanError → errors = (Scan.ofText source).diagnostics)
    (hscope : status = .scanError ∨ status = .parseError → log = [] ∧ ended.scope = session.scope) :
    Accounts session source (finish ended source log status errors) ⟨status, errors⟩ where
  scanError_iff := hscan
  scanError hstatus := by
    obtain rfl := herrors hstatus
    -- The diagnostics are the complaints of the elements; the kind is left out of the comparison.
    have hcomplaints := congrArg (List.map Prod.snd)
      (Scan.diagnostics_ofElements 1 (Element.split source.toList))
    rw [List.map_map, List.map_map] at hcomplaints
    exact ⟨rfl, hcomplaints.trans (List.map_id _)⟩
  parseError hstatus := by
    cases hfits with
    | parseError hkind => exact ⟨_, rfl, hkind⟩
    | _ => cases hstatus
  runtimeError hstatus := by
    cases hfits with
    | runtimeError hkind => exact ⟨_, rfl, hkind⟩
    | _ => cases hstatus
  ok_iff := hfits.ok_iff
  reporter := errors_finish log status errors
  reports := filter_report_finish status errors hlog
  hadError_iff := by
    rw [Reporter.hadError_iff, errors_finish]
    exact hfits.exists_kind_ne_iff
  hadRuntimeError_iff := by
    rw [Reporter.hadRuntimeError_iff, errors_finish]
    exact hfits.exists_kind_eq_iff
  untouched hstatus := by
    obtain ⟨rfl, hsame⟩ := hscope hstatus
    exact ⟨filter_output_finish status errors, hsame⟩

theorem Ends.accounts {run : Run} (h : Ends session source echo run) :
    ∃ result, run.result = some result ∧ Accounts session source run result := by
  cases h with
  | scanError hfaults =>
    have hfits : Fits .scanError (Scan.ofText source).diagnostics :=
      .scanError (by simpa [Scan.diagnostics] using hfaults) fun d => Scan.kind_of_mem_diagnostics
    exact ⟨_, rfl, accounts_finish hfits (by simp) (iff_of_true rfl hfaults) (fun _ => rfl)
      fun _ => ⟨rfl, rfl⟩⟩
  | parseError hfaults hread =>
    obtain ⟨site, message, -, rfl⟩ := Program.eq_atToken_of_ofTokens hread
    exact ⟨_, rfl, accounts_finish (.parseError rfl) (by simp) (by simp [hfaults]) (by simp)
      fun _ => ⟨rfl, rfl⟩⟩
  | @runtimeError body stop state hfaults _ hstop =>
    have hlog := channel_ne_report_of_perform echo body session.scope
    rw [hstop] at hlog
    exact ⟨_, rfl, accounts_finish (.runtimeError stop.kind_diagnostic) hlog (by simp [hfaults])
      (by simp) (by simp)⟩
  | @ok body state hfaults _ hdone =>
    have hlog := channel_ne_report_of_perform echo body session.scope
    rw [hdone] at hlog
    exact ⟨_, rfl, accounts_finish .ok hlog (by simp [hfaults]) (by simp) (by simp)⟩

/-- After any runs, a run gives a result, and its result, its reports, the reporter and the scopes
agree. -/
theorem run_accounts (session : Session) (history : List (String × Bool)) (source : String)
    (echo : Bool) (hdebug : session.debug = false) :
    ∃ result, ((session.after history).run source echo).result = some result ∧
      Accounts (session.after history) source ((session.after history).run source echo) result :=
  (ends_run (debug_after hdebug history)).accounts

/-- Two lexical faults, after a run that stopped and a run that could not be read. -/
theorem run_accounts_two_faults :
    let session := after {} [("var a = 1; print a - b;", false), ("a = ;", true)]
    let run := session.run "a @ a;\n#" true
    session.reporter.errors.map (·.kind) = [.parse] ∧
    run.result.map (·.errors.map fun d => (d.line, d.lexeme)) =
      some [(1, some "@"), (2, some "#")] ∧
    ∃ result, run.result = some result ∧ Accounts session "a @ a;\n#" run result :=
  ⟨by decide +kernel, by decide +kernel, run_accounts {} _ _ _ rfl⟩

end Session

end Scriptlet
