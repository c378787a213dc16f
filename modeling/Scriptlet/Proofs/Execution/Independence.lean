import Scriptlet.Proofs.Execution.Lockstep

/-!
# A program depends on its names only

Two runs of a program from globals that agree on the names that occur in it do the same, and leave
globals that agree on those names again. All that a run changes of the globals are names that the
program assigns, at any depth, or declares outside its blocks. Both hold also of a run that stops on
the way.
-/

namespace Scriptlet

namespace Scope

/-- Global scopes that agree on some names. -/
inductive GloballyAlike (names : Set String) : Scope → Scope → Prop
  | global {f g : Frame} : f.Alike id names g → GloballyAlike names (global f) (global g)

/-- Globals that agree on the names of a program cannot be told apart by it. Each of its names
either is bound in both or is unbound in both. -/
theorem indistinct_globallyAlike (names : Set String) :
    Indistinct id names (GloballyAlike names) where
  injOn := Set.injOn_id names
  find? := by
    rintro _ _ x ⟨halike⟩ hx
    exact halike x hx
  reach := by
    rintro _ _ x ⟨_⟩ _
    rfl
  unbound _ _ _ := rfl
  assign? := by
    rintro _ _ x ⟨halike⟩ hx value
    rw [Scope.assign?, Scope.assign?, halike x hx]
    split
    · exact .some (.global (halike.set (Set.injOn_id names) hx value))
    · exact .none
  define := by
    rintro _ _ x ⟨halike⟩ hx value
    exact .global (halike.set (Set.injOn_id names) hx value)

/-- A global scope stays one, and what may not change in it has not. -/
theorem Changed.exists_eq_global {targets declared : List String} {f : Frame} {t : Scope}
    (h : (Scope.global f).Changed targets declared t) :
    ∃ g, t = Scope.global g ∧ ∀ x, x ∉ targets → x ∉ declared → g.find? x = f.find? x := by
  cases h with
  | global hfg => exact ⟨_, rfl, fun x htargets hdeclared => hfg.find? x hdeclared htargets⟩

end Scope

/-- A run depends on the globals that its program names, and changes only those that the program
assigns or declares. -/
theorem Program.execute_of_agree (traced : Bool) (room : Nat) (body : Program) (f g : Frame)
    (log log' : List Event) (hagree : ∀ x ∈ Program.names body, f.find? x = g.find? x) :
    let run := Program.execute traced room body { scope := .global f, log }
    let other := Program.execute traced room body { scope := .global g, log := log' }
    Ending.outcome run = Ending.outcome other ∧
    (∃ written, (Ending.state run).log = log ++ written ∧
      (Ending.state other).log = log' ++ written) ∧
    ∃ f' g', (Ending.state run).scope = .global f' ∧ (Ending.state other).scope = .global g' ∧
      (∀ x ∈ Program.names body, f'.find? x = g'.find? x) ∧
      ∀ x, x ∉ Program.targets body → x ∉ Program.declared body →
        f'.find? x = f.find? x ∧ g'.find? x = g.find? x := by
  intro run other
  have hstart : State.InStep (Scope.GloballyAlike {x | x ∈ Program.names body}) log log'
      { scope := .global f, log } { scope := .global g, log := log' } :=
    ⟨.global fun x hx => (hagree x hx).symm, [], by simp⟩
  have hends := Program.keepsStep_execute (Scope.indistinct_globallyAlike _) traced log log' room body
    (fun _ hx => hx) _ _ hstart
  -- The other program is the same one, with every name exchanged for itself.
  rw [Program.rename_id] at hends
  obtain ⟨hscope, hlog⟩ := hends.state
  obtain ⟨f', hf', hkept⟩ :=
    (Program.leads_execute traced room body { scope := .global f, log }).scope.exists_eq_global
  obtain ⟨g', hg', hkept'⟩ :=
    (Program.leads_execute traced room body
      { scope := .global g, log := log' }).scope.exists_eq_global
  refine ⟨hends.outcome_eq, hlog, f', g', hf', hg', ?_, fun x htargets hdeclared =>
    ⟨hkept x htargets hdeclared, hkept' x htargets hdeclared⟩⟩
  rw [hf', hg'] at hscope
  cases hscope with
  | global halike => exact fun x hx => (halike x hx).symm

/-- A block that shadows a global, assigns another one and then stops, run from globals that have
one name each of their own. -/
theorem Program.execute_of_agree_stopped :
    let a : Token := { kind := .identifier, lexeme := "a" }
    let b : Token := { kind := .identifier, lexeme := "b" }
    let body : Program :=
      [.block [.declare a (some (.read b)), .expression (.assign b (.literal none)),
        .print (.read a), .print (.unary { kind := .minus, lexeme := "-" } (.read b))]]
    let f : Frame := { entries := [("a", some (.boolean true)), ("b", some (.string "t")),
      ("u", none)] }
    let g : Frame := { entries := [("v", some .nan), ("b", some (.string "t")),
      ("a", some (.boolean true))] }
    let run := Program.execute false Nesting.running body { scope := .global f }
    let other := Program.execute false Nesting.running body { scope := .global g }
    (∀ x ∈ Program.names body, f.find? x = g.find? x) ∧
    (Ending.state run).log.map (·.line) = ["t"] ∧
    Ending.outcome run = Ending.outcome other ∧
    (∃ written, (Ending.state run).log = [] ++ written ∧
      (Ending.state other).log = [] ++ written) ∧
    ∃ f' g', (Ending.state run).scope = .global f' ∧ (Ending.state other).scope = .global g' ∧
      (∀ x ∈ Program.names body, f'.find? x = g'.find? x) ∧
      ∀ x, x ∉ Program.targets body → x ∉ Program.declared body →
        f'.find? x = f.find? x ∧ g'.find? x = g.find? x := by
  intro a b body f g run other
  have hagree : ∀ x ∈ Program.names body, f.find? x = g.find? x := by decide +kernel
  exact ⟨hagree, by decide +kernel,
    Program.execute_of_agree false Nesting.running body f g [] [] hagree⟩

end Scriptlet
