import Scriptlet.Prompt
import Scriptlet.Proofs.Execution.Room
import Scriptlet.Proofs.Session.Composition

/-!
# The prompt is a sequence of runs

Of the lines that are typed, the prompt runs those that are neither blank nor meta commands. Each of
them does what it does in a session without a prompt that has run only those before it, and the prompt
adds one line for the value of a lone expression. The other lines leave the session as it is. If no
line says to leave, the prompt reads all of them.

The prompt evaluates a lone expression itself and has more room for it than a statement would have.
Where a statement has enough room, this makes no difference (`Session.perform_echo`).
-/

namespace Scriptlet

/-! ## Echo -/

namespace Session

/-- The line that is written for the value of a lone expression. -/
def echoed (scope : Scope) : Program → List Event
  | [.expression value] =>
    match value.evaluate Nesting.running scope with
    | .ok value _ => [⟨.output, "=> " ++ value.display⟩]
    | .error _ _ => []
  | _ => []

/-- The line that a prompt adds to what a text writes. -/
def echo (session : Session) (source : String) : List Event :=
  match Program.ofText source with
  | .ok body => echoed session.scope body
  | .error _ => []

/-- As a statement, an expression has less room to be evaluated in. -/
theorem perform_plain_expression (value : Expr) (s : State) :
    perform false false [.expression value] s =
      match value.evaluate (Nesting.running - Nesting.statement) s.scope with
      | .ok _ t => .ok () { s with scope := t }
      | .error stop t => .error stop { s with scope := t } := by
  have hroom : Nesting.statement ≤ Nesting.running := by decide
  rw [perform_eq_execute, Program.execute, Program.execute, Stmt.execute, Execution.opening,
    if_pos hroom]
  change EStateM.bind (EStateM.bind (Execution.evaluating _) _) _ s = _
  unfold EStateM.bind Execution.evaluating
  cases value.evaluate (Nesting.running - Nesting.statement) s.scope <;> rfl

/-- Echoed, an expression has all the room there is, and its value is written. -/
theorem perform_echo_expression (value : Expr) (s : State) :
    perform false true [.expression value] s =
      match value.evaluate Nesting.running s.scope with
      | .ok value t => .ok () ⟨t, s.log ++ [⟨.output, "=> " ++ value.display⟩]⟩
      | .error stop t => .error stop { s with scope := t } := by
  change EStateM.bind (Execution.evaluating _) _ s = _
  unfold EStateM.bind Execution.evaluating
  cases value.evaluate Nesting.running s.scope <;> rfl

/-- Echo concerns programs that are a lone expression, and no others. -/
theorem perform_echo_of_not_lone {body : Program} (h : ¬∃ value, body = [.expression value]) :
    perform false true body = perform false false body ∧ ∀ scope, echoed scope body = [] := by
  constructor
  · rw [perform_eq_execute_of_not_lone false fun _ => h, perform_eq_execute]
  · intro scope
    unfold echoed
    split
    · exact absurd ⟨_, rfl⟩ h
    · rfl

/-- Without want of room, a program with echo does what it does without, and then writes the value of
a lone expression. -/
theorem perform_echo {body : Program} {s : State}
    (h : Ending.outcome (perform false false body s) ≠ .error .exhausted) :
    perform false true body s =
      match perform false false body s with
      | .ok _ t => .ok () { t with log := t.log ++ echoed s.scope body }
      | .error stop t => .error stop t := by
  by_cases hlone : ∃ value, body = [.expression value]
  · obtain ⟨value, rfl⟩ := hlone
    have hroom : Ending.outcome (value.evaluate (Nesting.running - Nesting.statement) s.scope) ≠
        .error .exhausted := by
      intro hout
      rw [perform_plain_expression] at h
      generalize value.evaluate (Nesting.running - Nesting.statement) s.scope = r at h hout
      cases r with
      | ok _ _ => cases hout
      | error _ _ =>
        cases hout
        exact h rfl
    have hmore := value.extends_evaluate (Nat.sub_le Nesting.running Nesting.statement) s.scope hroom
    rw [perform_echo_expression, perform_plain_expression, echoed, hmore]
    cases value.evaluate (Nesting.running - Nesting.statement) s.scope <;> rfl
  · obtain ⟨hsame, hnothing⟩ := perform_echo_of_not_lone hlone
    rw [hsame, hnothing]
    cases perform false false body s with
    | ok _ t => simp only [List.append_nil]
    | error stop t => rfl

/-- A program that stops has no value to be written. -/
theorem echoed_eq_nil {body : Program} {s t : State} {stop : Stop}
    (h : perform false true body s = .error stop t) : echoed s.scope body = [] := by
  by_cases hlone : ∃ value, body = [.expression value]
  · obtain ⟨value, rfl⟩ := hlone
    rw [perform_echo_expression] at h
    rw [echoed]
    cases hvalue : value.evaluate Nesting.running s.scope with
    | ok _ _ =>
      rw [hvalue] at h
      cases h
    | error _ _ => rfl
  · exact (perform_echo_of_not_lone hlone).2 _

/-- A run with echo is a run without, and the line for the value of a lone expression. -/
theorem run_echo {session : Session} {source : String} (hdebug : session.debug = false)
    (hroom : ¬(session.run source false).Exhausted) :
    session.run source true =
      { session.run source false with
        log := (session.run source false).log ++ session.echo source } := by
  have hplain : Ends session source false (session.run source false) := ends_run hdebug
  have hechoing : Ends session source true (session.run source true) := ends_run hdebug
  generalize session.run source false = run at hplain hroom ⊢
  refine hechoing.unique ?_
  unfold echo
  cases hplain with
  | scanError hfaults =>
    obtain ⟨d, hd⟩ := Program.exists_ofText_eq_error hfaults
    simp only [hd, List.append_nil]
    exact .scanError hfaults
  | parseError hfaults hread =>
    simp only [Program.ofText_of_faults_eq_nil hfaults, hread, List.append_nil]
    exact .parseError hfaults hread
  | @runtimeError body stop state hfaults hread hstop =>
    have hperform : perform false true body { scope := session.scope } = .error stop state := by
      rw [perform_echo, hstop]
      rw [hstop]
      intro hout
      cases hout
      exact hroom ⟨_, rfl, _, List.mem_singleton_self _, rfl⟩
    have hnothing : echoed session.scope body = [] := echoed_eq_nil hperform
    simp only [Program.ofText_of_faults_eq_nil hfaults, hread, hnothing, List.append_nil]
    exact .runtimeError hfaults hread hperform
  | @ok body state hfaults hread hdone =>
    have hperform : perform false true body { scope := session.scope } =
        .ok () { state with log := state.log ++ echoed session.scope body } := by
      rw [perform_echo, hdone]
      rw [hdone]
      intro hout
      cases hout
    have hends : Ends session source true _ := .ok hfaults hread hperform
    simp only [Program.ofText_of_faults_eq_nil hfaults, hread]
    simpa only [finish, Reporter.reportAll, List.map_nil, List.append_nil] using hends

end Session

/-! ## Lines -/

namespace Prompt

/-- Lines that are run: neither blank nor meta commands. -/
def isOrdinary (line : String) : Bool :=
  !(Text.strip line.toList).isEmpty && (MetaCommand.ofLine? line).isNone

/-- The session after the ordinary ones of some lines were run without a prompt. -/
def unprompted (session : Session) (lines : List String) : Session :=
  session.after ((lines.filter isOrdinary).map (·, false))

/-- There is not enough room for a line: to run it, or to show the tree that it asks for. -/
def exhausts (session : Session) (line : String) : Bool :=
  match MetaCommand.ofLine? line with
  | none => decide (session.run line false).Exhausted
  | some asked =>
    asked.name == .ast && match Program.ofText asked.argument with
      | .ok program => (Program.text? program).isNone
      | .error _ => false

variable {session : Session} {line : String}

theorem isOrdinary_iff :
    isOrdinary line = true ↔ Text.strip line.toList ≠ [] ∧ MetaCommand.ofLine? line = none := by
  simp [isOrdinary]

theorem unprompted_of_isOrdinary (h : isOrdinary line = true) :
    unprompted session [line] = (session.run line false).session := by
  rw [unprompted, List.filter_cons_of_pos h]
  rfl

theorem unprompted_of_not_isOrdinary (h : ¬isOrdinary line = true) :
    unprompted session [line] = session := by
  rw [unprompted, List.filter_cons_of_neg h]
  rfl

/-- One line after the other, each in the session that those before it have left. -/
theorem unprompted_cons (rest : List String) :
    unprompted session (line :: rest) = unprompted (unprompted session [line]) rest := by
  by_cases h : isOrdinary line = true
  · rw [unprompted_of_isOrdinary h, unprompted, List.filter_cons_of_pos h]
    rfl
  · rw [unprompted_of_not_isOrdinary h, unprompted, List.filter_cons_of_neg h]
    rfl

theorem debug_unprompted (hdebug : session.debug = false) (lines : List String) :
    (unprompted session lines).debug = false :=
  Session.debug_after hdebug _

theorem respond_of_isOrdinary (hdebug : session.debug = false)
    (hexit : Text.strip line.toList ≠ "exit".toList) (hroom : exhausts session line = false)
    (h : isOrdinary line = true) :
    respond session line =
      .stay (session.run line false).session
        ((session.run line false).log ++ session.echo line) := by
  obtain ⟨hblank, hmeta⟩ := isOrdinary_iff.1 h
  unfold exhausts at hroom
  rw [hmeta] at hroom
  have hrun := Session.run_echo hdebug (of_decide_eq_false hroom)
  have hends : Session.Ends session line false (session.run line false) := Session.ends_run hdebug
  obtain ⟨result, hresult⟩ := hends.exists_result
  unfold respond
  dsimp only
  rw [if_neg hexit, if_neg (by simpa using hblank), hmeta, hrun]
  dsimp only
  rw [hresult]

/-- No meta command changes the session. -/
theorem exists_command_eq {asked : MetaCommand} (hasked : MetaCommand.ofLine? line = some asked)
    (hroom : exhausts session line = false) : ∃ log, command session asked = .stay session log := by
  unfold exhausts at hroom
  rw [hasked] at hroom
  dsimp only at hroom
  unfold command
  cases hname : asked.name with
  | ast =>
    dsimp only
    unfold tree
    cases hread : Program.diagnose asked.argument with
    | error faults => exact ⟨_, rfl⟩
    | ok program =>
      have hshown : (Program.text? program).isNone = false := by
        rw [hname, Program.ofText_of_diagnose hread] at hroom
        exact hroom
      dsimp only
      cases htree : Program.text? program with
      | some text => exact ⟨_, rfl⟩
      | none =>
        rw [htree] at hshown
        cases hshown
  | _ => exact ⟨_, rfl⟩

/-- Blank lines and meta commands may write something, but leave the session as it is. -/
theorem exists_respond_eq_of_not_isOrdinary (hexit : Text.strip line.toList ≠ "exit".toList)
    (hroom : exhausts session line = false) (h : ¬isOrdinary line = true) :
    ∃ log, respond session line = .stay session log := by
  unfold respond
  dsimp only
  rw [if_neg hexit]
  by_cases hblank : Text.strip line.toList = []
  · exact ⟨[], if_pos (by rw [hblank]; rfl)⟩
  · rw [if_neg (by simpa using hblank)]
    cases hmeta : MetaCommand.ofLine? line with
    | none => exact absurd (isOrdinary_iff.2 ⟨hblank, hmeta⟩) h
    | some asked => exact exists_command_eq hmeta hroom

/-- What the prompt does with one line. -/
theorem exists_respond_eq (hdebug : session.debug = false)
    (hexit : Text.strip line.toList ≠ "exit".toList) (hroom : exhausts session line = false) :
    ∃ log, respond session line = .stay (unprompted session [line]) log ∧
      (isOrdinary line = true →
        log = (session.run line false).log ++ session.echo line) := by
  by_cases h : isOrdinary line = true
  · rw [unprompted_of_isOrdinary h]
    exact ⟨_, respond_of_isOrdinary hdebug hexit hroom h, fun _ => rfl⟩
  · obtain ⟨log, hlog⟩ := exists_respond_eq_of_not_isOrdinary hexit hroom h
    rw [unprompted_of_not_isOrdinary h]
    exact ⟨log, hlog, fun hordinary => absurd hordinary h⟩

/-! ## Conversations -/

/-- The prompt answers lines one after the other and stays, with what it writes for each of them and
the session that it comes to. -/
inductive Stays : Session → List String → List (List Event) → Session → Prop
  | nil (session : Session) : Stays session [] [] session
  | cons {session next last : Session} {line : String} {lines : List String} {log : List Event}
      {logs : List (List Event)} : respond session line = .stay next log →
      Stays next lines logs last → Stays session (line :: lines) (log :: logs) last

/-- The transcript of a prompt that is left at the end of its lines. -/
theorem Stays.loop_eq {last : Session} {lines : List String} {logs : List (List Event)}
    (h : Stays session lines logs last) (written : Written) :
    loop session written (lines.map some) =
      { segments := ((written :: logs.map Written.ofEvents).map (·.prompting text)) ++
          [.ofEvents (printed [farewell])] } := by
  induction h generalizing written with
  | nil session => rfl
  | cons hrespond _ ih =>
    rw [List.map_cons, loop, hrespond]
    dsimp only
    rw [ih]
    rfl

/-- How a prompt goes through lines, when it writes `logs` for them: as runs without a prompt do. -/
structure Conducts (session : Session) (lines : List String) (logs : List (List Event)) : Prop where
  length_eq : logs.length = lines.length
  /-- At each line, the prompt is in the session that has run only the ordinary lines before. -/
  stays : ∀ i, Stays session (lines.take i) (logs.take i) (unprompted session (lines.take i))
  /-- A blank line or a meta command leaves that session as it is. -/
  other : ∀ i line, lines[i]? = some line → isOrdinary line = false →
    unprompted session (lines.take (i + 1)) = unprompted session (lines.take i)
  /-- An ordinary line leaves the session and writes the lines that its run does, and then the value
  of a lone expression. -/
  ordinary : ∀ i line, lines[i]? = some line → isOrdinary line = true →
    let before := unprompted session (lines.take i)
    let run := before.run line false
    unprompted session (lines.take (i + 1)) = run.session ∧
      logs[i]? = some (run.log ++ before.echo line)

theorem Conducts.nil (session : Session) : Conducts session [] [] where
  length_eq := rfl
  stays i := by
    rw [List.take_nil, List.take_nil]
    exact .nil session
  other i line h := by simp at h
  ordinary i line h := by simp at h

/-- One step of the induction: the prompt stays after a line and goes on with the rest. -/
theorem Conducts.cons {lines : List String} {log : List Event} {logs : List (List Event)}
    (hrespond : respond session line = .stay (unprompted session [line]) log)
    (hlog : isOrdinary line = true → log = (session.run line false).log ++ session.echo line)
    (h : Conducts (unprompted session [line]) lines logs) :
    Conducts session (line :: lines) (log :: logs) where
  length_eq := congrArg (· + 1) h.length_eq
  stays i := by
    cases i with
    | zero => exact .nil session
    | succ i =>
      rw [List.take_succ_cons, List.take_succ_cons, unprompted_cons]
      exact .cons hrespond (h.stays i)
  other i next hnext hother := by
    cases i with
    | zero =>
      cases hnext
      exact unprompted_of_not_isOrdinary (by simp [hother])
    | succ i =>
      have hsame := h.other i next hnext hother
      rwa [← unprompted_cons, ← unprompted_cons] at hsame
  ordinary i next hnext hordinary := by
    cases i with
    | zero =>
      cases hnext
      exact ⟨unprompted_of_isOrdinary hordinary, congrArg some (hlog hordinary)⟩
    | succ i =>
      have hruns := h.ordinary i next hnext hordinary
      simp only [← unprompted_cons] at hruns
      exact hruns

/-- How a prompt goes through lines of which none says to leave, if it has room for them. -/
theorem exists_conducts (hdebug : session.debug = false) {lines : List String}
    (hexit : ∀ line ∈ lines, Text.strip line.toList ≠ "exit".toList)
    (hroom : ∀ i line, lines[i]? = some line →
      exhausts (unprompted session (lines.take i)) line = false) :
    ∃ logs, Conducts session lines logs := by
  induction lines generalizing session with
  | nil => exact ⟨[], .nil session⟩
  | cons line rest ih =>
    obtain ⟨hline, hrest⟩ := List.forall_mem_cons.1 hexit
    obtain ⟨log, hrespond, hlog⟩ := exists_respond_eq hdebug hline (hroom 0 line rfl)
    have hlater : ∀ i next, rest[i]? = some next →
        exhausts (unprompted (unprompted session [line]) (rest.take i)) next = false := by
      intro i next hnext
      rw [← unprompted_cons]
      exact hroom (i + 1) next hnext
    obtain ⟨logs, hlogs⟩ := ih (debug_unprompted hdebug [line]) hrest hlater
    exact ⟨log :: logs, .cons hrespond hlog hlogs⟩

/-- A prompt that reads lines of which none says to leave, and has room for them, reads them all and
is left at their end. It goes through them as runs without a prompt do. -/
theorem interact_conducts (before : List Event) (lineEditing : Bool) (lines : List String)
    (hexit : ∀ line ∈ lines, Text.strip line.toList ≠ "exit".toList)
    (hroom : ∀ i line, lines[i]? = some line →
      exhausts (unprompted {} (lines.take i)) line = false) :
    ∃ logs : List (List Event), Conducts {} lines logs ∧
      interact before false lineEditing (lines.map some) =
        { segments := ((before ++ banner false lineEditing) :: logs).map
            (fun log => (Written.ofEvents log).prompting text) ++
              [.ofEvents (printed [farewell])] } := by
  have hdebug : ({} : Session).debug = false := rfl
  obtain ⟨logs, hlogs⟩ := exists_conducts hdebug hexit hroom
  have hstays := hlogs.stays lines.length
  rw [List.take_length, ← hlogs.length_eq, List.take_length] at hstays
  refine ⟨logs, hlogs, (hstays.loop_eq _).trans ?_⟩
  rw [List.map_cons, List.map_cons, List.map_map]
  rfl

/-- Lines of every kind: one that declares, a blank one, a tree that cannot be read, a lone
expression, a block that stops, a command after blanks, a text that cannot be scanned, and a lone
expression that sees what the block has assigned. -/
theorem interact_conducts_mixed :
    let lines := ["var a = 1;", " ", ":ast a + ;", "a + 1;", "\x7b a = 2; print b; \x7d", "  :env",
      "a @", "a;"]
    (∀ line ∈ lines, Text.strip line.toList ≠ "exit".toList) ∧
    (∀ i line, lines[i]? = some line →
      exhausts (unprompted {} (lines.take i)) line = false) ∧
    (interact [] false false (lines.map some)).segments.map (·.stdout) =
      ["JBread v0.1.0 (Tree-walking Interpreter) - Interactive Mode\n" ++
        "Type 'exit' to quit, ':help' for commands\n\njbread> ", "jbread> ", "jbread> ", "jbread> ",
        "=> 2\njbread> ", "jbread> ", "Current environment:\n  a = 2\njbread> ", "jbread> ",
        "=> 2\njbread> ", "\nGoodbye!\n"] ∧
    ∃ logs : List (List Event), Conducts {} lines logs ∧
      interact [] false false (lines.map some) =
        { segments := (([] ++ banner false false) :: logs).map
            (fun log => (Written.ofEvents log).prompting text) ++
              [.ofEvents (printed [farewell])] } := by
  intro lines
  have hexit : ∀ line ∈ lines, Text.strip line.toList ≠ "exit".toList := by decide +kernel
  have hroom : ∀ i line, lines[i]? = some line →
      exhausts (unprompted {} (lines.take i)) line = false := by
    have hall : ∀ entry ∈ lines.zipIdx,
        exhausts (unprompted {} (lines.take entry.2)) entry.1 = false := by
      decide +kernel
    intro i line hline
    exact hall (line, i) (List.mk_mem_zipIdx_iff_getElem?.2 hline)
  exact ⟨hexit, hroom, by decide +kernel, interact_conducts [] false lines hexit hroom⟩

end Prompt

end Scriptlet
