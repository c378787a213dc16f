import Scriptlet.Proofs.Execution.Tracing
import Scriptlet.Proofs.Operator.Results
import Scriptlet.Proofs.Report.Window
import Scriptlet.Proofs.Session.Composition

/-!
# Debugging changes nothing else

A session that debugs shows the tokens, the tree and the statements of what it runs. Apart from these
lines each of its runs is the run of a session that does not debug: it ends in the same way, writes
the same output and the same reports, and leaves the same globals (`Run.Shadows`). This lasts for as
long as every tree can be shown, since a debugging session does not run a tree that cannot.

The events that announce statements are told apart from the rest of the trace by their first word. No
listing and no tree starts like that, although a line within one may.
-/

namespace Scriptlet

open Event (untraced announcement isAnnouncement)

/-! ## What is shown before a program runs -/

/-- The first character is enough to tell an announcement from a listing or a tree. -/
theorem Event.isAnnouncement_eq_false {e : Event} (h : e.line.toList.head? ≠ some 'E') :
    e.isAnnouncement = false := by
  have hword : "Executing: ".toList = 'E' :: "xecuting: ".toList := by decide
  rw [isAnnouncement, Bool.and_eq_false_iff, hword]
  right
  cases hline : e.line.toList with
  | nil => rfl
  | cons c rest =>
    rw [hline, List.head?_cons] at h
    have hne : 'E' ≠ c := by
      rintro rfl
      exact h rfl
    simp [List.isPrefixOf, hne]

/-- Joined texts start as the first of them does. -/
theorem Text.head?_intercalate {separator first : String} {c : Char} (rest : List String)
    (h : first.toList.head? = some c) :
    (separator.intercalate (first :: rest)).toList.head? = some c := by
  obtain ⟨cs, hfirst⟩ := List.head?_eq_some_iff.1 h
  rw [String.toList_intercalate, List.map_cons, hfirst]
  cases rest with
  | nil => rfl
  | cons next rest => rfl

/-- A listing starts with the line of its first token, flush right. -/
theorem Token.head?_listing (tokens : List Token) :
    (listing tokens).toList.head? ≠ some 'E' := by
  unfold listing
  cases tokens with
  | nil => decide
  | cons t rest =>
    have hline : ∀ c ∈ (Text.flushRight 4 (toString t.line)).toList, c ≠ 'E' := by
      intro c hc
      rw [Text.flushRight, String.toList_append, String.toList_ofList, List.mem_append] at hc
      rintro rfl
      rcases hc with hc | hc
      · exact absurd (List.eq_of_mem_replicate hc) (by decide)
      · exact absurd (Text.mem_toString hc) (by decide)
    have hfirst : ∃ c, (Text.flushRight 4 (toString t.line) ++ "  ").toList.head? = some c ∧
        c ≠ 'E' := by
      rw [String.toList_append]
      cases hflush : (Text.flushRight 4 (toString t.line)).toList with
      | nil => exact ⟨' ', rfl, by decide⟩
      | cons c cs => exact ⟨c, rfl, hline c (hflush ▸ List.mem_cons_self)⟩
    obtain ⟨c, hc, hne⟩ := hfirst
    rw [List.map_cons, Text.head?_intercalate _ (Text.head?_append_of_head? hc)]
    exact fun h => hne (Option.some.inj h)

theorem Sexp.head?_text_list (head : String) (parts : List Sexp) :
    (list head parts).text.toList.head? = some '(' := by
  rw [Sexp.text]
  exact Text.head?_append_of_head? (Text.head?_append_of_head? (Text.head?_append_of_head? rfl))

/-- A statement is printed as a list, whatever it is. -/
theorem Stmt.head?_text_sexp (s : Stmt) : s.sexp.text.toList.head? = some '(' := by
  cases s with
  | expression value => exact Sexp.head?_text_list ..
  | print value => exact Sexp.head?_text_list ..
  | declare name initial => exact Sexp.head?_text_list ..
  | block body => exact Sexp.head?_text_list ..

/-- A tree starts with a parenthesis, if there is anything of it. -/
theorem Program.head?_text {body : Program} {tree : String} (h : Program.text? body = some tree) :
    tree.toList.head? ≠ some 'E' := by
  unfold Program.text? Sexp.textLines? at h
  obtain ⟨texts, htexts, rfl⟩ := Option.map_eq_some_iff.1 h
  cases body with
  | nil =>
    cases htexts
    decide
  | cons statement rest =>
    rw [Program.sexps, List.mapM_cons] at htexts
    obtain ⟨first, hfirst, htexts⟩ := Option.bind_eq_some_iff.1 htexts
    obtain ⟨others, -, htexts⟩ := Option.bind_eq_some_iff.1 htexts
    cases htexts
    have hopen : first.toList.head? = some '(' := by
      unfold Sexp.text? at hfirst
      split at hfirst
      · cases hfirst
        exact statement.head?_text_sexp
      · cases hfirst
    rw [Text.head?_intercalate _ hopen]
    decide

section Shown

variable {body : Program} {tree : String} (scan : Scan)

theorem Program.channel_of_mem_shown : ∀ e ∈ Program.shown scan body tree, e.channel = .trace := by
  simp [Program.shown, Scan.dump, Program.notice]

/-- What is shown before a program runs announces nothing. -/
theorem Program.filter_shown (h : Program.text? body = some tree) :
    (Program.shown scan body tree).filter isAnnouncement = [] := by
  have hparsed : ("Parsed " ++ toString body.length ++ " statements").toList.head? ≠ some 'E' := by
    rw [Text.head?_append_of_head? (Text.head?_append_of_head? (c := 'P') rfl)]
    decide
  refine List.filter_eq_nil_iff.2 ?_
  intro e he
  rw [Bool.not_eq_true]
  apply Event.isAnnouncement_eq_false
  simp only [Program.shown, Scan.dump, Program.notice, ↓reduceIte, List.mem_append, List.mem_cons,
    List.not_mem_nil, or_false] at he
  rcases he with (((rfl | rfl) | rfl) | rfl) | rfl
  · decide
  · exact Token.head?_listing scan.tokens
  · exact hparsed
  · decide
  · exact Program.head?_text h

theorem Program.untraced_shown : untraced (Program.shown scan body tree) = [] :=
  Event.untraced_eq_nil (Program.channel_of_mem_shown scan)

end Shown

/-! ## A run with a trace and without -/

/-- A run of a debugging session, and the run that it is apart from what it shows. -/
structure Run.Shadows (debugging plain : Run) : Prop where
  result : debugging.result = plain.result
  session : debugging.session = { plain.session with debug := true }
  log : untraced debugging.log = plain.log

theorem Token.unseen_id : Token.Unseen id := ⟨fun _ => rfl, fun _ => rfl⟩

theorem Stop.mapSite_id (stop : Stop) : stop.mapSite id = stop := by cases stop <;> rfl

namespace Session

/-- The trace is taken out of what is written, and all else is carried over. -/
theorem moves_perform (echo : Bool) (body : Program) :
    Moves id (State.mapLog untraced) (perform true echo body) (perform false echo body) := by
  by_cases hlone : echo = true ∧ ∃ value, body = [.expression value]
  · obtain ⟨rfl, value, rfl⟩ := hlone
    have hvalue := value.moves_evaluate Token.unseen_id Nesting.running
    rw [Expr.mapTokens_id] at hvalue
    exact (Execution.moves_evaluating hvalue).bind fun value =>
      Execution.carries_untraced.print ("=> " ++ value.display)
  · have hexecute := Program.moves_execute Token.unseen_id Execution.carries_untraced
      Nesting.running body
    rw [Program.mapTokens_id] at hexecute
    have hstatements (debug : Bool) := perform_eq_execute_of_not_lone debug (not_and.1 hlone)
    rw [hstatements, hstatements]
    exact hexecute

theorem shadows_finish (session : Session) (source : String) {log log' : List Event}
    (status : Status) (errors : List Diagnostic) (h : untraced log = log') :
    Run.Shadows (finish { session with debug := true } source log status errors)
      (finish { session with debug := false } source log' status errors) where
  result := rfl
  session := rfl
  log := by
    have hreports : untraced (errors.map fun d => ⟨.report, Reporter.wording { source } d⟩) = _ :=
      Event.untraced_eq_self fun e he => by
        obtain ⟨d, -, rfl⟩ := List.mem_map.1 he
        show Channel.report ≠ .trace
        decide
    rw [log_finish, log_finish, Event.untraced_append, h, hreports]

/-- Reports are made after the run, from the same diagnostics. -/
theorem shadows_runProgram (session : Session) (source : String) (echo : Bool) (body : Program)
    {shown : List Event} (h : untraced shown = []) :
    Run.Shadows (runProgram { session with debug := true } source echo shown body)
      (runProgram { session with debug := false } source echo [] body) := by
  have hmoves := moves_perform echo body { scope := session.scope, log := shown }
  rw [State.mapLog, h] at hmoves
  dsimp only at hmoves
  unfold runProgram
  dsimp only
  rw [hmoves]
  cases perform true echo body { scope := session.scope, log := shown } with
  | ok _ state => exact shadows_finish { session with scope := state.scope } source .ok [] rfl
  | error stop state =>
    dsimp only
    rw [Stop.mapSite_id]
    exact shadows_finish { session with scope := state.scope } source .runtimeError _ rfl

/-- A debugging run that shows its tree is otherwise the run of a session that does not debug. -/
theorem shadows_run (session : Session) (source : String) (echo : Bool)
    (h : (run { session with debug := true } source echo).result ≠ none) :
    Run.Shadows (run { session with debug := true } source echo)
      (run { session with debug := false } source echo) := by
  have hshows : Shows { session with debug := true } source echo
      (run { session with debug := true } source echo) := shows_run rfl
  generalize run { session with debug := true } source echo = debugging at *
  unfold run
  cases hshows with
  | scanError hfaults =>
    simp only [List.isEmpty_iff, hfaults, ↓reduceIte]
    exact shadows_finish session source .scanError _ rfl
  | @parseError d hfaults hread =>
    simp only [hfaults, List.isEmpty_nil, hread, Bool.false_eq_true, ↓reduceIte]
    exact shadows_finish session source .parseError [d] rfl
  | unshown _ _ _ => exact absurd rfl h
  | performed hfaults hread htree =>
    simp only [hfaults, List.isEmpty_nil, hread, Bool.false_eq_true, ↓reduceIte]
    exact shadows_runProgram session source echo _ (Program.untraced_shown _)

/-! ## What a debugging run announces -/

/-- Reports announce nothing. -/
theorem filter_log_finish (session : Session) (source : String) (log : List Event)
    (status : Status) (errors : List Diagnostic) :
    (finish session source log status errors).log.filter isAnnouncement =
      log.filter isAnnouncement := by
  have hreports : (errors.map fun d => (⟨.report, Reporter.wording { source } d⟩ : Event)).filter
      isAnnouncement = [] := by
    refine List.filter_eq_nil_iff.2 ?_
    intro e he
    obtain ⟨d, -, rfl⟩ := List.mem_map.1 he
    exact Bool.false_ne_true
  rw [log_finish, List.filter_append, hreports, List.append_nil]

/-- A program that is run statement by statement announces its statements until it is stopped. -/
theorem announces_runProgram {session : Session} {echo : Bool} {shown : List Event} {body : Program}
    (source : String) (hdebug : session.debug = true)
    (hlone : echo = true → ¬∃ value, body = [.expression value])
    (hshown : shown.filter isAnnouncement = []) :
    let run := runProgram session source echo shown body
    run.log.filter isAnnouncement <+: (Program.forms body).map announcement ∧
      (run.result.map (·.status) = some .ok →
        run.log.filter isAnnouncement = (Program.forms body).map announcement) := by
  intro run
  have hannounces := Program.announces_execute Nesting.running body
    { scope := session.scope, log := shown }
  have hrun : run = runProgram session source echo shown body := rfl
  rw [runProgram, hdebug, perform_eq_execute_of_not_lone true hlone] at hrun
  cases hexecute : Program.execute true Nesting.running body
    { scope := session.scope, log := shown } with
  | ok _ state =>
    rw [hexecute] at hannounces hrun
    have hall : run.log.filter isAnnouncement = (Program.forms body).map announcement := by
      rw [hrun, filter_log_finish]
      refine (hannounces : state.announced = _).trans ?_
      rw [State.announced, hshown, List.nil_append]
    exact ⟨hall ▸ List.prefix_refl _, fun _ => hall⟩
  | error stop state =>
    rw [hexecute] at hannounces hrun
    obtain ⟨told, htold, hannounced⟩ := hannounces
    have hfirst : run.log.filter isAnnouncement = told.map announcement := by
      rw [hrun, filter_log_finish]
      refine Eq.trans hannounced ?_
      rw [State.announced, hshown, List.nil_append]
    refine ⟨hfirst ▸ htold.map announcement, ?_⟩
    intro hok
    rw [hrun] at hok
    cases hok

/-- A debugging run that gets as far as running a program announces its statements, unless it echoes
a lone expression. -/
theorem announces_run {session : Session} {source : String} {echo : Bool} {result : RunResult}
    (hdebug : session.debug = true) (hresult : (session.run source echo).result = some result)
    (hran : result.status = .ok ∨ result.status = .runtimeError) :
    ∃ body, Program.ofText source = .ok body ∧
      ((echo = true → ¬∃ value, body = [.expression value]) →
        (session.run source echo).log.filter isAnnouncement <+:
            (Program.forms body).map announcement ∧
          (result.status = .ok → (session.run source echo).log.filter isAnnouncement =
            (Program.forms body).map announcement)) := by
  have hshows : Shows session source echo (session.run source echo) := shows_run hdebug
  generalize session.run source echo = run at *
  cases hshows with
  | scanError _ =>
    cases hresult
    simp at hran
  | parseError _ _ =>
    cases hresult
    simp at hran
  | unshown _ _ _ => cases hresult
  | @performed body tree hfaults hread htree =>
    refine ⟨body, (Program.ofText_of_faults_eq_nil hfaults).trans hread, ?_⟩
    intro hlone
    obtain ⟨hfirst, hall⟩ := announces_runProgram source hdebug hlone
      (Program.filter_shown (Scan.ofText source) htree)
    refine ⟨hfirst, ?_⟩
    intro hok
    apply hall
    rw [hresult, Option.map_some, hok]

/-! ## Runs in two sessions -/

/-- The runs of texts, one after the other, each with or without echo. -/
def runs (session : Session) : (history : List (String × Bool)) → List Run
  | [] => []
  | (source, echo) :: later =>
    session.run source echo :: runs (session.run source echo).session later

/-- Later texts run in the session that earlier ones have left. -/
theorem runs_append (session : Session) (history later : List (String × Bool)) :
    runs session (history ++ later) = runs session history ++ runs (session.after history) later := by
  induction history generalizing session with
  | nil => rfl
  | cons text history ih =>
    rw [List.cons_append, runs, ih, runs, after, List.cons_append]

/-- As long as every tree can be shown, sessions that differ in debugging stay that way. -/
theorem after_debugging (session : Session) (history : List (String × Bool))
    (h : ∀ run ∈ runs { session with debug := true } history, run.result ≠ none) :
    after { session with debug := true } history =
      { after { session with debug := false } history with debug := true } := by
  induction history generalizing session with
  | nil => rfl
  | cons text later ih =>
    obtain ⟨source, echo⟩ := text
    obtain ⟨hfirst, hlater⟩ := List.forall_mem_cons.1 h
    have hsession := (shadows_run session source echo hfirst).session
    have hends : Ends { session with debug := false } source echo
        (run { session with debug := false } source echo) := ends_run rfl
    have hdebug := hends.debug_session
    simp only [after]
    rw [hsession] at hlater ⊢
    generalize (run { session with debug := false } source echo).session = next at *
    obtain ⟨debug, scope, reporter⟩ := next
    obtain rfl : debug = false := hdebug
    exact ih { scope, reporter } hlater

/-- In two sessions that differ in debugging only, the same texts run alike for as long as every tree
can be shown. A run after them ends in the same way, writes the same output and the same reports, and
leaves the same globals; the debugging run adds nothing but its trace. Unless a lone expression is
echoed, what it announces is the forms of all statements, each before what it contains, or the first
of them if the run is stopped.

Announcements are told by their events. By the text of the trace alone they cannot be: a string that
goes over several lines is shown as it is, with the tokens or in the tree, and one of its lines may
start with `Executing: ` too. -/
theorem run_debugging_agrees (session : Session) (history : List (String × Bool)) (source : String)
    (echo : Bool)
    (hshown : ∀ run ∈ runs { session with debug := true } (history ++ [(source, echo)]),
      run.result ≠ none) :
    let debugging := (after { session with debug := true } history).run source echo
    let plain := (after { session with debug := false } history).run source echo
    debugging.result = plain.result ∧
      Event.text [.output] debugging.log = Event.text [.output] plain.log ∧
      Event.text [.report] debugging.log = Event.text [.report] plain.log ∧
      untraced debugging.log = plain.log ∧
      debugging.session.scope = plain.session.scope ∧
      ∀ result ∈ debugging.result, result.status = .ok ∨ result.status = .runtimeError →
        ∃ body, Program.ofText source = .ok body ∧
          ((echo = true → ¬∃ value, body = [.expression value]) →
            debugging.log.filter isAnnouncement <+: (Program.forms body).map announcement ∧
              (result.status = .ok →
                debugging.log.filter isAnnouncement =
                  (Program.forms body).map announcement)) := by
  intro debugging plain
  rw [runs_append, List.forall_mem_append] at hshown
  obtain ⟨hbefore, hlast⟩ := hshown
  have hresult : debugging.result ≠ none := hlast debugging List.mem_cons_self
  have hsessions := after_debugging session history hbefore
  have hplain : (after { session with debug := false } history).debug = false :=
    debug_after rfl history
  have hshadows : Run.Shadows debugging plain := by
    subst debugging plain
    rw [hsessions] at hresult ⊢
    generalize after { session with debug := false } history = reached at *
    obtain ⟨debug, scope, reporter⟩ := reached
    obtain rfl : debug = false := hplain
    exact shadows_run { scope, reporter } source echo hresult
  have htext {channel : Channel} (h : channel ≠ .trace) :
      Event.text [channel] debugging.log = Event.text [channel] plain.log := by
    rw [← hshadows.log, Event.text_untraced]
    simpa using h.symm
  have hscope : debugging.session.scope = plain.session.scope := by rw [hshadows.session]
  refine ⟨hshadows.result, htext (by decide), htext (by decide), hshadows.log, hscope, ?_⟩
  intro result hsome hran
  have hdebug : (after { session with debug := true } history).debug = true := by rw [hsessions]
  exact announces_run hdebug hsome hran

/-- A fault inside a block, after a run that changed a global: the blocks are announced, and the
statement that stops, and nothing after it. -/
theorem run_debugging_agrees_fault :
    let session : Session := {}
    let history := [("var x = 1;", false), ("x = 2;", true)]
    let source := "\x7b\x7bprint y;\x7dprint x;\x7d"
    let debugging := (after { session with debug := true } history).run source false
    let plain := (after { session with debug := false } history).run source false
    (∀ run ∈ runs { session with debug := true } (history ++ [(source, false)]),
      run.result ≠ none) ∧
    debugging.log.filter isAnnouncement =
      ["Block", "Block", "Print"].map announcement ∧
    debugging.result = plain.result ∧
      Event.text [.output] debugging.log = Event.text [.output] plain.log ∧
      Event.text [.report] debugging.log = Event.text [.report] plain.log ∧
      untraced debugging.log = plain.log ∧
      debugging.session.scope = plain.session.scope ∧
      ∀ result ∈ debugging.result, result.status = .ok ∨ result.status = .runtimeError →
        ∃ body, Program.ofText source = .ok body ∧
          ((false = true → ¬∃ value, body = [.expression value]) →
            debugging.log.filter isAnnouncement <+: (Program.forms body).map announcement ∧
              (result.status = .ok →
                debugging.log.filter isAnnouncement =
                  (Program.forms body).map announcement)) := by
  intro session history source debugging plain
  have hshown : ∀ run ∈ runs { session with debug := true } (history ++ [(source, false)]),
      run.result ≠ none := by decide +kernel
  exact ⟨hshown, by decide +kernel, run_debugging_agrees session history source false hshown⟩

end Session

end Scriptlet
