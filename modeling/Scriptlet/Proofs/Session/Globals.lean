import Scriptlet.Proofs.Execution.Values
import Scriptlet.Proofs.Session.Stages

/-!
# The globals between runs

Whatever was run, and however it ended, a session is at its global scope again when the run is over.
The globals then are identifiers with native values, each of them once. A run adds new globals after
the old ones, which keep their places.
-/

namespace Scriptlet

/-- Globals that programs can make: identifiers, each of them once, with native values. -/
structure Frame.Orderly (f : Frame) : Prop extends Frame.Tidy f where
  identifiers : ∀ x ∈ f.names, Element.IsIdentifier x

theorem Frame.Orderly.empty : Frame.Orderly {} := ⟨.empty, List.forall_mem_nil _⟩

/-- Orderly globals stay so if identifiers are added to them and they stay tidy. -/
theorem Frame.Orderly.of_changed {declared targets : List String} {f g : Frame} (hf : f.Orderly)
    (hfg : f.Changed declared targets g) (hdeclared : ∀ x ∈ declared, Element.IsIdentifier x)
    (htidy : g.Tidy) : g.Orderly ∧ f.names <+: g.names := by
  obtain ⟨⟨added, hnames, hadded⟩, -⟩ := hfg
  refine ⟨⟨htidy, ?_⟩, ⟨added, hnames.symm⟩⟩
  rw [hnames]
  exact List.forall_mem_append.2 ⟨hf.identifiers, fun x hx => hdeclared x (hadded hx)⟩

namespace Session

/-- However the program ends, the session takes over the scope that it has left. -/
theorem scope_runProgram (session : Session) (source : String) (echo : Bool) (log : List Event)
    (program : Program) :
    (runProgram session source echo log program).session.scope =
      (Ending.state
        (perform session.debug echo program { scope := session.scope, log })).scope := by
  unfold runProgram
  cases perform session.debug echo program { scope := session.scope, log } <;> rfl

/-- A run leaves the scope as it is, or as a program that was read from its text does. -/
theorem scope_run (session : Session) (source : String) (echo : Bool) :
    (session.run source echo).session.scope = session.scope ∨
      ∃ body log, Program.ofTokens (Scan.ofText source).tokens = .ok body ∧
        (session.run source echo).session.scope =
          (Ending.state (perform session.debug echo body { scope := session.scope, log })).scope := by
  unfold run
  dsimp only
  split
  · cases hread : Program.ofTokens (Scan.ofText source).tokens with
    | error fault => exact .inl rfl
    | ok body =>
      dsimp only
      split
      · cases Program.text? body with
        | none => exact .inl rfl
        | some tree => exact .inr ⟨body, _, rfl, scope_runProgram ..⟩
      · exact .inr ⟨body, _, rfl, scope_runProgram ..⟩
  · exact .inl rfl

/-- What one run does to orderly globals. -/
theorem exists_globals_run {session : Session} {f : Frame} (hscope : session.scope = .global f)
    (hf : f.Orderly) (source : String) (echo : Bool) :
    ∃ g, (session.run source echo).session.scope = .global g ∧ g.Orderly ∧
      f.names <+: g.names := by
  obtain hsame | ⟨body, log, hread, hrun⟩ := scope_run session source echo
  · exact ⟨f, hsame.trans hscope, hf, List.prefix_refl _⟩
  · obtain ⟨hliterals, hdeclared⟩ := Program.contents_of_ofText hread
    have hchanged := (leads_perform session.debug echo body { scope := session.scope, log }).scope
    have htidy : State.Tidy _ := (maintains_perform session.debug echo body hliterals).state
      (s := { scope := session.scope, log }) (by rw [hscope]; exact hf.toTidy)
    unfold State.Tidy at htidy
    rw [← hrun] at hchanged htidy
    dsimp only at hchanged
    rw [hscope] at hchanged
    generalize (session.run source echo).session.scope = scope at hchanged htidy ⊢
    cases hchanged with
    | @global _ _ g hfg => exact ⟨g, rfl, hf.of_changed hfg hdeclared htidy⟩

/-- What any runs do to orderly globals. -/
theorem exists_globals_after {session : Session} {f : Frame} (hscope : session.scope = .global f)
    (hf : f.Orderly) (history : List (String × Bool)) :
    ∃ g, (session.after history).scope = .global g ∧ g.Orderly ∧ f.names <+: g.names := by
  induction history generalizing session f with
  | nil => exact ⟨f, hscope, hf, List.prefix_refl _⟩
  | cons text later ih =>
    obtain ⟨g, hg, horderly, hfg⟩ := exists_globals_run hscope hf text.1 text.2
    obtain ⟨h, hh, horderly', hgh⟩ := ih hg horderly
    exact ⟨h, hh, horderly', hfg.trans hgh⟩

/-- After any runs in a new session, and after one more, the session is at its global scope; its
globals are identifiers, each of them once, with native values; and the last run has left the globals
that it found in their places. -/
theorem run_globals_orderly (debug : Bool) (history : List (String × Bool)) (source : String)
    (echo : Bool) :
    let session := after { debug } history
    ∃ f g, session.scope = .global f ∧ (session.run source echo).session.scope = .global g ∧
      f.Orderly ∧ g.Orderly ∧ f.names <+: g.names := by
  intro session
  have hstart : ({ debug } : Session).scope = .global {} := rfl
  obtain ⟨f, hf, horderly, -⟩ := exists_globals_after hstart .empty history
  obtain ⟨g, hg, horderly', hfg⟩ := exists_globals_run hf horderly source echo
  exact ⟨f, g, hf, hg, horderly, horderly', hfg⟩

/-- A block that stops within a block leaves nothing, and a global that is declared again keeps its
place. -/
example :
    (after {} [("var b = 1; \x7b var c = 2; \x7b var a = 0 / 0; print d; \x7d \x7d", false),
      ("var a = \"s\"; var b = nil;", true)]).scope =
      .global { entries := [("b", none), ("a", some (.string "s"))] } := by
  decide +kernel

end Session

end Scriptlet
