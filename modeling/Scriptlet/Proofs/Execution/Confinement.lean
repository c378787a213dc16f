import Scriptlet.Execution.Tree
import Scriptlet.Proofs.Execution.Renaming

/-!
# What a run leaves in the scopes

However a block ends, the scopes around it have the names that they had, in the order that they had,
and only names that are assigned inside the block may have other values. A statement on its own may
add a name to the innermost frame, which is the name that it declares. An expression adds none, and
writes nothing.
-/

namespace Scriptlet

namespace Scope

def frames : Scope → List Frame
  | global own => [own]
  | inner own outer => own :: outer.frames

/-- The names of every frame in order, innermost frame first. -/
def names (scope : Scope) : List (List String) := scope.frames.map Frame.names

/-- The value of a name in the frame that is so many frames outwards. -/
def valueAt (scope : Scope) (outwards : Nat) (x : String) : Option Value :=
  scope.frames[outwards]?.bind (·.find? x)

variable {s t : Scope} {targets declared : List String}

/-- With nothing declared, no frame gains a name, and none ever loses one. -/
theorem Changed.names_eq (h : s.Changed targets [] t) : t.names = s.names := by
  have hframe {f g : Frame} (hfg : f.Changed [] targets g) : g.names = f.names := by
    obtain ⟨added, hnames, hadded⟩ := hfg.names
    rw [hnames, List.subset_nil.1 hadded, List.append_nil]
  generalize hdeclared : ([] : List String) = declared at h
  induction h with
  | global hfg =>
    subst hdeclared
    simp only [names, frames, List.map_cons, List.map_nil, hframe hfg]
  | inner hfg _ ih =>
    subst hdeclared
    have ih := ih rfl
    unfold names at ih ⊢
    rw [frames, frames, List.map_cons, List.map_cons, ih, hframe hfg]

/-- Names that are neither assigned nor declared have their old values in every frame, not only
where they are visible. -/
theorem Changed.valueAt_eq (h : s.Changed targets declared t) {x : String}
    (hdeclared : x ∉ declared) (htargets : x ∉ targets) (outwards : Nat) :
    t.valueAt outwards x = s.valueAt outwards x := by
  induction h generalizing outwards with
  | global hfg =>
    cases outwards with
    | zero => exact hfg.find? x hdeclared htargets
    | succ n => rfl
  | inner hfg _ ih =>
    cases outwards with
    | zero => exact hfg.find? x hdeclared htargets
    | succ n => exact ih List.not_mem_nil n

theorem names_modifyHead_nil (s : Scope) : s.names.modifyHead (· ++ []) = s.names := by
  cases s <;> simp [names, frames]

/-- Binding a name adds it to the innermost frame, if it is new there. -/
theorem exists_names_define (s : Scope) (x : String) (value : Value) :
    ∃ added, (s.define x value).names = s.names.modifyHead (· ++ added) ∧
      (added = [] ∨ added = [x]) := by
  have hset (f : Frame) : ∃ added, (f.set x value).names = f.names ++ added ∧
      (added = [] ∨ added = [x]) := by
    cases hx : f.find? x with
    | none => exact ⟨[x], Frame.names_set_of_eq_none value hx, .inr rfl⟩
    | some old =>
      refine ⟨[], ?_, .inl rfl⟩
      rw [Frame.names_set_of_isSome value (by rw [hx]; rfl), List.append_nil]
  cases s with
  | global f =>
    obtain ⟨added, hnames, hadded⟩ := hset f
    exact ⟨added, congrArg (· :: []) hnames, hadded⟩
  | inner f s =>
    obtain ⟨added, hnames, hadded⟩ := hset f
    exact ⟨added, congrArg (· :: s.names) hnames, hadded⟩

end Scope

/-- A declaration binds its name last, if it gets that far. -/
theorem Stmt.exists_names_declare (traced : Bool) (room : Nat) (name : Token)
    (initial : Option Expr) (state : State) :
    ∃ added,
      (Ending.state ((Stmt.declare name initial).execute traced room state)).scope.names =
        state.scope.names.modifyHead (· ++ added) ∧
      (added = [] ∨ added = [name.lexeme]) := by
  have hvalue := (Execution.leads_initialValue traced room initial state).scope.names_eq
  rw [Stmt.execute_declare]
  change ∃ added, (Ending.state (EStateM.bind _ _ state)).scope.names = _ ∧ _
  unfold EStateM.bind
  cases hinitial : Execution.initialValue traced room initial state with
  | ok value t =>
    rw [hinitial] at hvalue
    rw [← hvalue]
    exact t.scope.exists_names_define name.lexeme value
  | error stop t =>
    rw [hinitial] at hvalue
    exact ⟨[], hvalue.trans state.scope.names_modifyHead_nil.symm, .inl rfl⟩

/-- Only a declaration adds a name, only its own, and only to the innermost frame. -/
theorem Stmt.exists_names_execute (traced : Bool) (room : Nat) (statement : Stmt) (state : State) :
    ∃ added,
      (Ending.state (statement.execute traced room state)).scope.names =
        state.scope.names.modifyHead (· ++ added) ∧
      (added = [] ∨ ∃ name initial, statement = .declare name initial ∧ added = [name.lexeme]) := by
  have hkept (hdeclared : statement.declared = []) :
      (Ending.state (statement.execute traced room state)).scope.names =
        state.scope.names.modifyHead (· ++ []) := by
    have hscope := (statement.leads_execute traced room state).scope
    rw [hdeclared] at hscope
    exact hscope.names_eq.trans state.scope.names_modifyHead_nil.symm
  cases statement with
  | expression value => exact ⟨[], hkept rfl, .inl rfl⟩
  | print value => exact ⟨[], hkept rfl, .inl rfl⟩
  | block body => exact ⟨[], hkept rfl, .inl rfl⟩
  | declare name initial =>
    obtain ⟨added, hnames, hadded⟩ := Stmt.exists_names_declare traced room name initial state
    exact ⟨added, hnames, hadded.imp_right fun h => ⟨name, initial, rfl, h⟩⟩

/-- Whether it gets to its end or stops on the way, at any depth: a block leaves every frame with
the names that it had, in order, and with the values that it had but for names that the block
assigns; a statement adds no name but the one that it declares, to the innermost frame; and an
expression adds no name and writes nothing. -/
theorem Stmt.execute_confined (traced : Bool) (room : Nat) (state : State) :
    (∀ body : Program,
      let after := Ending.state ((Stmt.block body).execute traced room state)
      after.scope.names = state.scope.names ∧
        ∀ outwards x, after.scope.valueAt outwards x ≠ state.scope.valueAt outwards x →
          x ∈ Program.targets body) ∧
    (∀ statement : Stmt,
      let after := Ending.state (statement.execute traced room state)
      ∃ added, after.scope.names = state.scope.names.modifyHead (· ++ added) ∧
        (added = [] ∨
          ∃ name initial, statement = .declare name initial ∧ added = [name.lexeme])) ∧
    ∀ e : Expr,
      let after := Ending.state (e.tree.run traced room state)
      after.log = state.log ∧ after.scope.names = state.scope.names := by
  refine ⟨fun body => ?_, fun statement => statement.exists_names_execute traced room state,
    fun e => ?_⟩
  · have hscope := ((Stmt.block body).leads_execute traced room state).scope
    refine ⟨hscope.names_eq, fun outwards x hne => ?_⟩
    by_contra hx
    exact hne (hscope.valueAt_eq List.not_mem_nil hx outwards)
  · rw [e.run_tree, Execution.state_evaluating]
    exact ⟨rfl, (e.leads_evaluate room state.scope).names_eq⟩

end Scriptlet
