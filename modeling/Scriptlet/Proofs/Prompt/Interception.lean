import Scriptlet.Prompt
import Scriptlet.Proofs.Grammar.Faults
import Scriptlet.Proofs.Session.Stages
import Scriptlet.Proofs.Token.Blanks

/-!
# The prompt takes no program for itself

The prompt decides what a line is before it is scanned, and has a wider notion of blanks than program
text has. Yet it keeps no line from running that would have run. A meta command starts with a colon
after blanks, and no blank hides the colon from a scan (`MetaCommand.faults_ne_nil`). A blank line and
the word that leaves the prompt have no token that a statement could end in
(`Program.exists_last_of_ofText`).
-/

namespace Scriptlet

/-! ## The last token of a program -/

/-- A program that is not empty ends in the last token of a statement. -/
theorem Grammar.DerivesAll.endsIn {ts : List Token} {s : Stmt} {rest : List Stmt}
    (h : DerivesAll ts (s :: rest)) : EndsIn assignmentLeads ts := by
  induction rest generalizing ts s with
  | nil =>
    cases h with
    | cons hs hrest =>
      cases hrest
      rw [List.append_nil]
      exact hs.endsIn
  | cons next rest ih =>
    cases h with
    | cons hs hrest => exact (ih hrest).after _

/-- The last token of a text that is a program with statements ends one of them. -/
theorem Program.exists_last_of_ofText {source : String} {program : Program}
    (h : Program.ofText source = .ok program) (hne : program ≠ []) :
    ∃ last, ((Element.split source.toList).filterMap Element.token?).getLast? = some last ∧
      last.1 ∈ Grammar.assignmentLeads := by
  obtain ⟨s, rest, rfl⟩ := List.exists_cons_of_ne_nil hne
  rw [Program.ofText_of_faults_eq_nil (Program.faults_eq_nil_of_ofText h)] at h
  obtain ⟨ts, t, hbody, hkind⟩ := (Grammar.derives_of_ofTokens h).endsIn
  refine ⟨t.told, ?_, hkind⟩
  rw [← Scan.map_told_body, hbody, List.map_append, List.map_singleton, List.getLast?_concat]

/-! ## Lines that the prompt takes -/

/-- A program with statements is not blank. -/
theorem Program.strip_ne_nil {line : String} {program : Program}
    (h : Program.ofText line = .ok program) (hne : program ≠ []) :
    Text.strip line.toList ≠ [] := by
  intro hstrip
  obtain ⟨lead, trail, hline, hlead, htrail⟩ := Text.exists_eq_strip line.toList
  rw [hstrip, List.append_nil] at hline
  obtain ⟨last, hlast, -⟩ := Program.exists_last_of_ofText h hne
  rw [hline, Element.split_isBlank_append hlead, Element.split_of_isBlank htrail,
    List.filterMap_append, Element.filterMap_token?_ofBlank,
    Element.filterMap_token?_ofBlank] at hlast
  cases hlast

/-- No program is the word that leaves the prompt, whatever blanks are around it. -/
theorem Program.strip_ne_exit {line : String} {program : Program}
    (h : Program.ofText line = .ok program) (hne : program ≠ []) :
    Text.strip line.toList ≠ "exit".toList := by
  intro hstrip
  obtain ⟨lead, trail, hline, hlead, htrail⟩ := Text.exists_eq_strip line.toList
  have hword : Element.split ("exit".toList ++ trail) =
      .token .identifier none "exit".toList :: trail.map Element.ofBlank :=
    Element.split_word_append (w := "xit".toList) (.inl (by decide))
      (List.all_eq_true.1 (by decide)) htrail
  have htold : (Element.token .identifier none "exit".toList).token? =
      some (.identifier, "exit", none) := rfl
  -- The word would be the only token, and no statement ends in an identifier.
  obtain ⟨last, hlast, hkind⟩ := Program.exists_last_of_ofText h hne
  rw [hline, hstrip, List.append_assoc, Element.split_isBlank_append hlead, hword,
    List.filterMap_append, Element.filterMap_token?_ofBlank, List.nil_append,
    List.filterMap_cons_some htold, Element.filterMap_token?_ofBlank] at hlast
  cases hlast
  exact absurd hkind (by decide)

/-- As program text, a meta command has a character that starts nothing. -/
theorem MetaCommand.faults_ne_nil {line : String} {asked : MetaCommand}
    (h : MetaCommand.ofLine? line = some asked) : (Scan.ofText line).faults ≠ [] := by
  have hcolon : (Text.strip line.toList).head? = some ':' := by
    by_contra hother
    unfold MetaCommand.ofLine? at h
    dsimp only at h
    rw [if_neg hother] at h
    cases h
  obtain ⟨rest, hstrip⟩ := List.head?_eq_some_iff.1 hcolon
  obtain ⟨lead, trail, hline, hlead, -⟩ := Text.exists_eq_strip line.toList
  have hmem : .unexpected ':' ∈ Element.split line.toList := by
    rw [hline, hstrip, List.append_assoc, Element.split_isBlank_append hlead, List.cons_append,
      Element.split_cons]
    exact List.mem_append_right _ List.mem_cons_self
  intro hfaults
  cases Scan.complaint?_eq_none hfaults hmem

/-! ## Runs of lines -/

namespace Session

variable {session : Session} {source : String} {echo : Bool}

/-- A text that cannot be scanned is not run, in any session. -/
theorem result_of_faults_ne_nil (h : (Scan.ofText source).faults ≠ []) :
    (session.run source echo).result =
      some ⟨.scanError, (Scan.ofText source).diagnostics⟩ := by
  unfold run
  dsimp only
  rw [if_neg (by simpa using h), result_finish]

/-- A program stops only in one of its statements. -/
theorem ne_nil_of_perform {debug : Bool} {program : Program} {s t : State} {stop : Stop}
    (h : perform debug echo program s = .error stop t) : program ≠ [] := by
  rintro rfl
  cases h

/-- The run of a text executes statements: it stops in one, or it ends well and there are some. -/
def Executes (session : Session) (source : String) (echo : Bool) : Prop :=
  ∃ result, (session.run source echo).result = some result ∧
    (result.status = .runtimeError ∨
      result.status = .ok ∧ ∃ program, Program.ofText source = .ok program ∧ program ≠ [])

/-- What a run executes has been read from its text. -/
theorem Executes.exists_program (h : Executes session source echo) :
    ∃ program, Program.ofText source = .ok program ∧ program ≠ [] := by
  obtain ⟨result, hresult, hstatus | ⟨-, hprogram⟩⟩ := h
  · cases hdebug : session.debug with
    | false =>
      have hends : Ends session source echo (session.run source echo) := ends_run hdebug
      generalize session.run source echo = run at hends hresult
      cases hends with
      | scanError _ | parseError _ _ | ok _ _ _ =>
        cases hresult
        cases hstatus
      | runtimeError hfaults hread hstop =>
        exact ⟨_, (Program.ofText_of_faults_eq_nil hfaults).trans hread, ne_nil_of_perform hstop⟩
    | true =>
      have hshows : Shows session source echo (session.run source echo) := shows_run hdebug
      generalize session.run source echo = run at hshows hresult
      cases hshows with
      | scanError _ | parseError _ _ =>
        cases hresult
        cases hstatus
      | unshown _ _ _ => cases hresult
      | @performed program tree hfaults hread _ =>
        refine ⟨program, (Program.ofText_of_faults_eq_nil hfaults).trans hread, ?_⟩
        unfold runProgram at hresult
        cases hstop : perform session.debug echo program
            { scope := session.scope
              log := Program.shown (Scan.ofText source) program tree } with
        | error stop state => exact ne_nil_of_perform hstop
        | ok _ state =>
          rw [hstop] at hresult
          cases hresult
          cases hstatus
  · exact hprogram

end Session

namespace Prompt

/-- The prompt's answer to a line that it runs. -/
def Response.ofRun (run : Run) : Response :=
  match run.result with
  | some _ => .stay run.session run.log
  | none => .breakDown run.log

/-- Once it is none of what the prompt answers itself, a line is run with echo. -/
theorem respond_eq_ofRun {session : Session} {line : String}
    (hblank : Text.strip line.toList ≠ []) (hexit : Text.strip line.toList ≠ "exit".toList)
    (hmeta : MetaCommand.ofLine? line = none) :
    respond session line = .ofRun (session.run line true) := by
  unfold respond Response.ofRun
  dsimp only
  rewrite [if_neg hexit, if_neg (by simpa using hblank), hmeta]
  cases (session.run line true).result <;> rfl

/-- The prompt takes no program for itself. A line whose run executes statements, in any session, is
not blank, does not leave the prompt and is no meta command, so that the prompt runs it as it was
typed. A line that is a meta command has a lexical fault as program text, and its run would end
there. -/
theorem respond_runs_programs (line : String) :
    (∀ (session : Session) (echo : Bool), session.Executes line echo →
      Text.strip line.toList ≠ [] ∧ Text.strip line.toList ≠ "exit".toList ∧
        MetaCommand.ofLine? line = none ∧
        ∀ prompting : Session, respond prompting line = .ofRun (prompting.run line true)) ∧
    ∀ asked, MetaCommand.ofLine? line = some asked →
      (Scan.ofText line).faults ≠ [] ∧
        ∀ (session : Session) (echo : Bool), (session.run line echo).result =
          some ⟨.scanError, (Scan.ofText line).diagnostics⟩ := by
  constructor
  · intro session echo hexecutes
    obtain ⟨program, hprogram, hne⟩ := hexecutes.exists_program
    have hblank := Program.strip_ne_nil hprogram hne
    have hexit := Program.strip_ne_exit hprogram hne
    have hmeta : MetaCommand.ofLine? line = none := by
      rw [Option.eq_none_iff_forall_ne_some]
      intro asked hasked
      exact MetaCommand.faults_ne_nil hasked (Program.faults_eq_nil_of_ofText hprogram)
    exact ⟨hblank, hexit, hmeta, fun prompting => respond_eq_ofRun hblank hexit hmeta⟩
  · intro asked hasked
    have hfaults := MetaCommand.faults_ne_nil hasked
    exact ⟨hfaults, fun session echo => Session.result_of_faults_ne_nil hfaults⟩

/-- An assignment to a name that is the word to leave, and a command after a wide blank. -/
theorem respond_runs_programs_exit :
    (Session.Executes {} " exit = \":help\";" true ∧
      ∀ prompting : Session, respond prompting " exit = \":help\";" =
        .ofRun (prompting.run " exit = \":help\";" true)) ∧
    ∃ asked, MetaCommand.ofLine? "\u2003:env" = some asked ∧
      (({} : Session).run "\u2003:env" true).result =
        some ⟨.scanError, (Scan.ofText "\u2003:env").diagnostics⟩ := by
  have hstopped : (({} : Session).run " exit = \":help\";" true).result.map (·.status) =
      some .runtimeError := by
    decide +kernel
  obtain ⟨result, hresult, hstatus⟩ := Option.map_eq_some_iff.1 hstopped
  have hexecutes : Session.Executes {} " exit = \":help\";" true := ⟨result, hresult, .inl hstatus⟩
  have hasked : MetaCommand.ofLine? "\u2003:env" = some ⟨.env, ""⟩ := by decide +kernel
  exact ⟨⟨hexecutes, ((respond_runs_programs _).1 _ _ hexecutes).2.2.2⟩, _, hasked,
    ((respond_runs_programs _).2 _ hasked).2 _ _⟩

end Prompt

end Scriptlet
