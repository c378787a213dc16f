import Scriptlet.Proofs.Execution.Composition
import Scriptlet.Proofs.Grammar.Composition
import Scriptlet.Proofs.Session.Stages
import Scriptlet.Proofs.Token.Composition

/-!
# Running a text in two pieces

A text after a text that runs to its end is scanned, read and run as it would be in a run of its own.
Only the lines of what is wrong with it tell the two apart. If it cannot be read, the first text does
not run either.
-/

namespace Scriptlet

/-- Rules look at no lines, so they read a text further down like any other. -/
theorem Token.unread_down (lines : Nat) : Rule.Unread (Token.down lines) :=
  ⟨fun _ => rfl, fun _ => rfl⟩

theorem Token.unseen_down (lines : Nat) : Token.Unseen (Token.down lines) :=
  ⟨fun _ => rfl, fun _ => rfl⟩

/-- What stops a text further down stops it there, except that want of room has no place. -/
theorem Stop.diagnostic_mapSite_down {stop : Stop} (lines : Nat)
    (h : stop.diagnostic.message ≠ Diagnostic.nestedTooDeeply) :
    (stop.mapSite (Token.down lines)).diagnostic = stop.diagnostic.down lines := by
  cases stop with
  | fault cause site => rfl
  | exhausted => exact absurd rfl h

theorem Event.text_append (channels : List Channel) (xs ys : List Event) :
    text channels (xs ++ ys) = text channels xs ++ text channels ys := by
  simp [text, String.join_append]

/-- Channels that nothing was written to. -/
theorem Event.text_eq_empty {channels : List Channel} {log : List Event}
    (h : ∀ event ∈ log, channels.contains event.channel = false) : text channels log = "" := by
  have hnone : log.filter (channels.contains ·.channel) = [] := by
    refine List.filter_eq_nil_iff.2 fun event hevent => ?_
    rw [h event hevent]
    decide
  rw [text, hnone]
  rfl

/-- Some diagnostic of a run is that the room ran out. -/
def Run.Exhausted (run : Run) : Prop :=
  ∃ result ∈ run.result, ∃ d ∈ result.errors, d.message = Diagnostic.nestedTooDeeply

instance : DecidablePred Run.Exhausted := fun run =>
  inferInstanceAs
    (Decidable (∃ result ∈ run.result, ∃ d ∈ result.errors, d.message = Diagnostic.nestedTooDeeply))

namespace Session

/-- Unless it echoes a lone expression, a program is run statement by statement. -/
theorem perform_eq_execute_of_not_lone {echo : Bool} {body : Program} (debug : Bool)
    (h : echo = true → ¬∃ value, body = [.expression value]) :
    perform debug echo body = Program.execute debug Nesting.running body := by
  unfold perform
  split
  · next value =>
    split
    · next hecho => exact absurd ⟨value, rfl⟩ (h hecho)
    · rfl
  · rfl

/-- Without echo nothing is special about a lone expression. -/
theorem perform_eq_execute (debug : Bool) (body : Program) :
    perform debug false body = Program.execute debug Nesting.running body := by
  apply perform_eq_execute_of_not_lone
  intro h
  cases h

/-- A program that was moved, run after another one. -/
theorem perform_append {f : Token → Token} (hf : Token.Unseen f) {body : Program} {s t : State}
    (rest : Program) (h : perform false false body s = .ok () t) :
    perform false false (body ++ Program.mapTokens f rest) s =
      match perform false false rest { scope := t.scope } with
      | .ok _ u => .ok () (u.after t.log)
      | .error stop u => .error (stop.mapSite f) (u.after t.log) := by
  -- A run of its own starts with nothing written, a run that goes on starts with `t.log`.
  have hstart : State.after t.log { scope := t.scope } = t := by simp [State.after, State.mapLog]
  have hmoves : Program.execute false Nesting.running (Program.mapTokens f rest)
      (State.after t.log { scope := t.scope }) = _ :=
    Program.moves_execute hf (Execution.carries_after f t.log) Nesting.running rest _
  rw [hstart] at hmoves
  simp only [perform_eq_execute] at h ⊢
  rw [Program.execute_append]
  change EStateM.bind _ _ s = _
  unfold EStateM.bind
  rw [h]
  refine hmoves.trans ?_
  cases Program.execute false Nesting.running rest { scope := t.scope } <;> rfl

/-- Reports are not output. -/
theorem text_output_finish (session : Session) (source : String) (log : List Event)
    (status : Status) (errors : List Diagnostic) :
    Event.text [.output] (finish session source log status errors).log =
      Event.text [.output] log := by
  have hreports : Event.text [.output]
      (errors.map fun d => (⟨.report, Reporter.wording { source } d⟩ : Event)) = "" := by
    refine Event.text_eq_empty fun event hevent => ?_
    obtain ⟨d, -, rfl⟩ := List.mem_map.1 hevent
    rfl
  rw [log_finish, Event.text_append, hreports, String.append_empty]

/-- What is wrong with the tokens of the second text is wrong further down in both. -/
theorem ofTokens_append_newline {a b : String} {body : Program} (ha : (Scan.ofText a).faults = [])
    (hread : Program.ofTokens (Scan.ofText a).tokens = .ok body)
    (hrest : ∀ d, Program.ofTokens (Scan.ofText b).tokens = .error d →
      d.message ≠ Diagnostic.nestedTooDeeply)
    (hwhole : ∀ d, Program.ofTokens (Scan.ofText (a ++ "\n" ++ b)).tokens = .error d →
      d.message ≠ Diagnostic.nestedTooDeeply) :
    (∃ rest, Program.ofTokens (Scan.ofText b).tokens = .ok rest ∧
        Program.ofTokens (Scan.ofText (a ++ "\n" ++ b)).tokens =
          .ok (body ++ Program.mapTokens (Token.down (a.toList.count '\n' + 1)) rest)) ∨
      ∃ d, Program.ofTokens (Scan.ofText b).tokens = .error d ∧
        Program.ofTokens (Scan.ofText (a ++ "\n" ++ b)).tokens =
          .error (d.down (a.toList.count '\n' + 1)) := by
  obtain ⟨hbody, hmark⟩ := Scan.body_ofText_append_newline (b := b) ha
  obtain hok | ⟨site, message, hb, hab⟩ :=
    Program.ofTokens_append (Token.unread_down _) hbody hmark hread hrest hwhole
  · exact .inl hok
  · exact .inr ⟨_, hb, hab⟩

/-- After a text without faults, the faults are those of the second text, further down. -/
theorem faults_append_newline {a : String} (b : String) (ha : (Scan.ofText a).faults = []) :
    (Scan.ofText (a ++ "\n" ++ b)).faults =
      (Scan.ofText b).faults.map (LexicalFault.down (a.toList.count '\n' + 1)) := by
  rw [Scan.ofText_append_newline a b (Scan.unterminated_not_mem ha)]
  simp only [Scan.append, Scan.down, ha, List.nil_append]

theorem diagnostics_append_newline {a : String} (b : String) (ha : (Scan.ofText a).faults = []) :
    (Scan.ofText (a ++ "\n" ++ b)).diagnostics =
      (Scan.ofText b).diagnostics.map (Diagnostic.down (a.toList.count '\n' + 1)) := by
  have hnone : (Scan.ofText a).diagnostics = [] := by rw [Scan.diagnostics, ha, List.map_nil]
  rw [Scan.ofText_append_newline a b (Scan.unterminated_not_mem ha), Scan.diagnostics_append,
    Scan.diagnostics_down, hnone, List.nil_append]

theorem Ends.message_ne {session : Session} {source : String} {echo : Bool} {run : Run}
    {d : Diagnostic} (h : Ends session source echo run) (hroom : ¬run.Exhausted)
    (hfaults : (Scan.ofText source).faults = [])
    (hread : Program.ofTokens (Scan.ofText source).tokens = .error d) :
    d.message ≠ Diagnostic.nestedTooDeeply := by
  intro hmessage
  obtain rfl := h.unique (.parseError hfaults hread)
  exact hroom ⟨_, rfl, d, List.mem_singleton_self d, hmessage⟩

/-- How both texts end together, by how the second one ends after the first: with the same status,
and what is wrong further down. Either nothing has run, or the second text's program has run from
where the first one's ended. -/
theorem ends_append_newline {session : Session} {a b : String} {body : Program} {state : State}
    {reporter : Reporter} {second whole : Run} (ha : (Scan.ofText a).faults = [])
    (hread : Program.ofTokens (Scan.ofText a).tokens = .ok body)
    (hperform : perform false false body { scope := session.scope } = .ok () state)
    (hsecond : Ends { session with scope := state.scope, reporter } b false second)
    (hwhole : Ends session (a ++ "\n" ++ b) false whole) (hroom : ¬second.Exhausted)
    (hroom' : ¬whole.Exhausted) :
    ∃ status errors,
      ((status = .scanError ∨ status = .parseError) ∧
        second = finish { session with scope := state.scope, reporter } b [] status errors ∧
        whole = finish session (a ++ "\n" ++ b) [] status
          (errors.map (Diagnostic.down (a.toList.count '\n' + 1)))) ∨
      ((status = .ok ∨ status = .runtimeError) ∧ ∃ final : State,
        second = finish { session with scope := final.scope, reporter } b final.log status errors ∧
        whole = finish { session with scope := final.scope } (a ++ "\n" ++ b)
          (state.log ++ final.log) status
          (errors.map (Diagnostic.down (a.toList.count '\n' + 1)))) := by
  have hfaults := faults_append_newline b ha
  have hnil (hb : (Scan.ofText b).faults = []) : (Scan.ofText (a ++ "\n" ++ b)).faults = [] := by
    rw [hfaults, hb, List.map_nil]
  have hreads (hb : (Scan.ofText b).faults = []) := ofTokens_append_newline ha hread
    (fun _ => hsecond.message_ne hroom hb) (fun _ => hwhole.message_ne hroom' (hnil hb))
  have hruns (rest : Program) :=
    perform_append (Token.unseen_down (a.toList.count '\n' + 1)) rest hperform
  cases hsecond with
  | scanError hb =>
    refine ⟨_, _, .inl ⟨.inl rfl, rfl, ?_⟩⟩
    rw [← diagnostics_append_newline b ha]
    exact hwhole.unique (.scanError (by rw [hfaults]; simpa using hb))
  | @parseError d hb hparse =>
    obtain ⟨rest, hrest, -⟩ | ⟨d', hd', hwread⟩ := hreads hb
    · rw [hrest] at hparse
      cases hparse
    · obtain rfl : d' = d := Except.error.inj (hd'.symm.trans hparse)
      exact ⟨_, _, .inl ⟨.inr rfl, rfl, hwhole.unique (.parseError (hnil hb) hwread)⟩⟩
  | @runtimeError rest stop final hb hrest hstop =>
    obtain ⟨rest', hrest', hwread⟩ | ⟨d, hd, -⟩ := hreads hb
    · obtain rfl : rest' = rest := Except.ok.inj (hrest'.symm.trans hrest)
      have hrun := hruns rest'
      rw [hstop] at hrun
      -- Exhaustion has no line that could move down.
      have hplace : stop.diagnostic.message ≠ Diagnostic.nestedTooDeeply :=
        fun hmessage => hroom ⟨_, rfl, _, List.mem_singleton_self _, hmessage⟩
      refine ⟨_, _, .inr ⟨.inr rfl, final, rfl, ?_⟩⟩
      rw [List.map_singleton, ← Stop.diagnostic_mapSite_down _ hplace]
      exact hwhole.unique (.runtimeError (hnil hb) hwread hrun)
    · rw [hrest] at hd
      cases hd
  | @ok rest final hb hrest hdone =>
    obtain ⟨rest', hrest', hwread⟩ | ⟨d, hd, -⟩ := hreads hb
    · obtain rfl : rest' = rest := Except.ok.inj (hrest'.symm.trans hrest)
      have hrun := hruns rest'
      rw [hdone] at hrun
      exact ⟨_, _, .inr ⟨.inl rfl, final, rfl, hwhole.unique (.ok (hnil hb) hwread hrun)⟩⟩
    · rw [hrest] at hd
      cases hd

/-- Running a text in two pieces is running it whole. -/
theorem run_append_newline (session : Session) (a b : String) (hdebug : session.debug = false)
    (hok : (session.run a false).result.map (·.status) = some .ok)
    (hroom : ¬((session.run a false).session.run b false).Exhausted)
    (hroom' : ¬(session.run (a ++ "\n" ++ b) false).Exhausted) :
    let first := session.run a false
    let second := first.session.run b false
    let whole := session.run (a ++ "\n" ++ b) false
    ∃ status errors, second.result = some ⟨status, errors⟩ ∧
      whole.result =
        some ⟨status, errors.map (Diagnostic.down (a.toList.count '\n' + 1))⟩ ∧
      (status = .ok ∨ status = .runtimeError →
        Event.text [.output] whole.log =
          Event.text [.output] first.log ++ Event.text [.output] second.log ∧
        whole.session.scope = second.session.scope) ∧
      (status = .scanError ∨ status = .parseError →
        Event.text [.output] whole.log = "" ∧ whole.session.scope = session.scope) := by
  dsimp only
  have hfirst : Ends session a false (session.run a false) := ends_run hdebug
  generalize session.run a false = first at *
  have hsecond : Ends first.session b false (first.session.run b false) :=
    ends_run (hfirst.debug_session.trans hdebug)
  have hwhole : Ends session (a ++ "\n" ++ b) false (session.run (a ++ "\n" ++ b) false) :=
    ends_run hdebug
  generalize first.session.run b false = second at *
  generalize session.run (a ++ "\n" ++ b) false = whole at *
  cases hfirst with
  | scanError _ => cases hok
  | parseError _ _ => cases hok
  | runtimeError _ _ _ => cases hok
  | ok ha hread hperform =>
    obtain ⟨status, errors, ⟨hstatus, rfl, rfl⟩ | ⟨hstatus, final, rfl, rfl⟩⟩ :=
      ends_append_newline ha hread hperform hsecond hwhole hroom hroom'
    · refine ⟨status, errors, rfl, rfl, fun hran => ?_, fun _ => ⟨text_output_finish .., rfl⟩⟩
      rcases hstatus with rfl | rfl <;> simp at hran
    · refine ⟨status, errors, rfl, rfl, fun _ => ⟨?_, rfl⟩, fun hread => ?_⟩
      · simp only [text_output_finish, Event.text_append]
      · rcases hstatus with rfl | rfl <;> simp at hread

/-- A fault in the second piece, after a first piece that printed and changed a global. -/
theorem run_append_newline_fault :
    let session := (run {} "var x = 1;" false).session
    let a := "\x7b var x = 2; print x; \x7d\nx = x + 1;"
    let b := "print x;\nprint x - y;"
    let first := session.run a false
    let second := first.session.run b false
    let whole := session.run (a ++ "\n" ++ b) false
    session.debug = false ∧ first.result.map (·.status) = some .ok ∧ ¬second.Exhausted ∧
    ¬whole.Exhausted ∧
    whole.result.map (·.errors.map fun d => (d.line, d.message)) =
      some [(4, "Undefined variable 'y'.")] ∧
    ∃ status errors, second.result = some ⟨status, errors⟩ ∧
      whole.result =
        some ⟨status, errors.map (Diagnostic.down (a.toList.count '\n' + 1))⟩ ∧
      (status = .ok ∨ status = .runtimeError →
        Event.text [.output] whole.log =
          Event.text [.output] first.log ++ Event.text [.output] second.log ∧
        whole.session.scope = second.session.scope) ∧
      (status = .scanError ∨ status = .parseError →
        Event.text [.output] whole.log = "" ∧ whole.session.scope = session.scope) := by
  intro session a b first second whole
  have hdebug : session.debug = false := by decide +kernel
  have hok : first.result.map (·.status) = some .ok := by decide +kernel
  have hroom : ¬second.Exhausted := by decide +kernel
  have hroom' : ¬whole.Exhausted := by decide +kernel
  exact ⟨hdebug, hok, hroom, hroom', by decide +kernel,
    run_append_newline session a b hdebug hok hroom hroom'⟩

end Session

end Scriptlet
