import Mathlib.Data.Set.Function
import Scriptlet.Proofs.Execution.Effect

/-!
# Two runs in step

A program sees of its scopes only what its own names find there. So it cannot tell two scopes apart
in which those names find the same, and neither can a program with other names, as long as its names
find in the second scope what the first program's find in the first one. The two runs then go on
side by side: they write the same lines, stop for the same reason at the same token or both get to
their end, and leave scopes that can be told apart as little as before (`Program.keepsStep_execute`).

Blocks open a new frame on both scopes. What holds of scopes with a relation `R` between them also
holds with the relation `Nested R` of new frames upon them, which is all that nesting needs.
-/

namespace Scriptlet

/-- Two computations end with the same value or are stopped alike, in related states. -/
inductive EndsAlike {σ α : Type} (R : σ → σ → Prop) :
    EStateM.Result Stop σ α → EStateM.Result Stop σ α → Prop
  | ok {a : α} {t t' : σ} : R t t' → EndsAlike R (.ok a t) (.ok a t')
  | error {stop : Stop} {t t' : σ} : R t t' → EndsAlike R (.error stop t) (.error stop t')

namespace EndsAlike

variable {σ α : Type} {R : σ → σ → Prop} {r r' : EStateM.Result Stop σ α}

/-- Stopped alike means for the same reason and at the same token. -/
theorem outcome_eq (h : EndsAlike R r r') : Ending.outcome r = Ending.outcome r' := by
  cases h <;> rfl

theorem state (h : EndsAlike R r r') : R (Ending.state r) (Ending.state r') := by
  cases h with
  | ok h => exact h
  | error h => exact h

theorem mono {Q : σ → σ → Prop} (h : EndsAlike R r r') (hR : ∀ t t', R t t' → Q t t') :
    EndsAlike Q r r' := by
  cases h with
  | ok h => exact .ok (hR _ _ h)
  | error h => exact .error (hR _ _ h)

end EndsAlike

/-- From related states, two computations end alike. -/
def KeepsStep {σ α : Type} (R : σ → σ → Prop) (x y : EStateM Stop σ α) : Prop :=
  ∀ s s', R s s' → EndsAlike R (x s) (y s')

namespace KeepsStep

variable {σ α β : Type} {R : σ → σ → Prop}

theorem pure (a : α) : KeepsStep R (pure a) (pure a) := fun _ _ h => .ok h

theorem throw (stop : Stop) : KeepsStep (α := α) R (throw stop) (throw stop) := fun _ _ h => .error h

theorem bind {x y : EStateM Stop σ α} {next next' : α → EStateM Stop σ β} (hx : KeepsStep R x y)
    (hnext : ∀ a, KeepsStep R (next a) (next' a)) : KeepsStep R (x >>= next) (y >>= next') := by
  intro s s' hs
  have hends := hx s s' hs
  change EndsAlike R (EStateM.bind x next s) (EStateM.bind y next' s')
  unfold EStateM.bind
  generalize x s = r at hends ⊢
  generalize y s' = r' at hends ⊢
  cases hends with
  | ok ht => exact hnext _ _ _ ht
  | error ht => exact .error ht

end KeepsStep

/-! ## Scopes that look alike -/

section Scopes

variable {ρ : String → String} {names : Set String} {R : Scope → Scope → Prop}

/-- Every name that counts finds in the first frame what its new name finds in the second one. -/
def Frame.Alike (ρ : String → String) (names : Set String) (f g : Frame) : Prop :=
  ∀ x, x ∈ names → g.find? (ρ x) = f.find? x

/-- The new names of two names that count must differ, or one binding would overwrite another. -/
theorem Frame.Alike.set {f g : Frame} (h : f.Alike ρ names g) (hρ : Set.InjOn ρ names) {x : String}
    (hx : x ∈ names) (value : Value) : (f.set x value).Alike ρ names (g.set (ρ x) value) := by
  intro z hz
  rw [Frame.find?_set, Frame.find?_set, h z hz]
  by_cases hzx : z = x
  · rw [if_pos hzx, if_pos (congrArg ρ hzx)]
  · rw [if_neg hzx, if_neg fun heq => hzx (hρ hz hx heq)]

namespace Scope

/-- Related scopes cannot be told apart by the names that count and their new names, neither by what
these find nor by how far they have to look, and changes by them keep scopes related. Only a name
that is bound may be renamed. -/
structure Indistinct (ρ : String → String) (names : Set String) (R : Scope → Scope → Prop) :
    Prop where
  injOn : Set.InjOn ρ names
  find? {s s' : Scope} {x : String} : R s s' → x ∈ names → s'.find? (ρ x) = s.find? x
  reach {s s' : Scope} {x : String} : R s s' → x ∈ names → s'.reach (ρ x) = s.reach x
  unbound {s s' : Scope} {x : String} : R s s' → x ∈ names → s.find? x = none → ρ x = x
  assign? {s s' : Scope} {x : String} : R s s' → x ∈ names → ∀ value : Value,
    Option.Rel R (s.assign? x value) (s'.assign? (ρ x) value)
  define {s s' : Scope} {x : String} : R s s' → x ∈ names → ∀ value : Value,
    R (s.define x value) (s'.define (ρ x) value)

/-- Related scopes with one more frame upon each. -/
inductive Nested (ρ : String → String) (names : Set String) (R : Scope → Scope → Prop) :
    Scope → Scope → Prop
  | inner {f g : Frame} {s s' : Scope} :
      f.Alike ρ names g → R s s' → Nested ρ names R (inner f s) (inner g s')

theorem nested_enter {s s' : Scope} (h : R s s') : Nested ρ names R s.enter s'.enter :=
  .inner (fun _ _ => rfl) h

theorem Nested.leave {s s' : Scope} (h : Nested ρ names R s s') : R s.leave s'.leave := by
  cases h with
  | inner _ h => exact h

theorem find?_inner_eq_none {f : Frame} {s : Scope} {x : String} :
    (inner f s).find? x = none ↔ f.find? x = none ∧ s.find? x = none := by
  simp [find?]

/-- An assignment fails only where there is nothing to find. -/
theorem find?_eq_none_of_assign? {s : Scope} {x : String} {value : Value}
    (h : s.assign? x value = none) : s.find? x = none := by
  have hsome := s.isSome_assign? x value
  rw [h] at hsome
  exact Option.isNone_iff_eq_none.1 (Option.isSome_eq_false_iff.1 hsome.symm)

/-- New frames upon related scopes start without names, and each change happens in both new frames
or in both scopes below. -/
theorem Indistinct.nested (h : Indistinct ρ names R) : Indistinct ρ names (Nested ρ names R) where
  injOn := h.injOn
  find? := by
    rintro _ _ x ⟨halike, hs⟩ hx
    rw [Scope.find?, Scope.find?, halike x hx, h.find? hs hx]
  reach := by
    rintro _ _ x ⟨halike, hs⟩ hx
    rw [Scope.reach, Scope.reach, halike x hx, h.reach hs hx]
  unbound := by
    rintro _ _ x ⟨halike, hs⟩ hx hnone
    exact h.unbound hs hx (find?_inner_eq_none.1 hnone).2
  assign? := by
    rintro _ _ x ⟨halike, hs⟩ hx value
    rw [Scope.assign?, Scope.assign?, halike x hx]
    split
    · exact .some (.inner (halike.set h.injOn hx value) hs)
    · have houter := h.assign? hs hx value
      generalize Scope.assign? _ x value = r at houter ⊢
      generalize Scope.assign? _ (ρ x) value = r' at houter ⊢
      cases houter with
      | some hs => exact .some (.inner halike hs)
      | none => exact .none
  define := by
    rintro _ _ x ⟨halike, hs⟩ hx value
    exact .inner (halike.set h.injOn hx value) hs

end Scope

/-! ## Evaluation -/

namespace Evaluation

theorem keepsStep_opening {α : Type} {inside inside' : Nat → Evaluation α} (levels room : Nat)
    (h : ∀ room, KeepsStep R (inside room) (inside' room)) :
    KeepsStep R (opening levels room inside) (opening levels room inside') := by
  unfold opening
  split
  · exact h _
  · exact .throw _

/-- Neither the values nor the blame depend on the scopes. -/
theorem keepsStep_blaming {α : Type} (site : Token) (result : Except RuntimeCause α) :
    KeepsStep R (blaming site result) (blaming site result) := by
  cases result with
  | ok value => exact .pure value
  | error cause => exact .throw _

theorem keepsStep_applyUnary (operator : Token) (right : Value) :
    KeepsStep R (applyUnary operator right) (applyUnary operator right) := by
  refine (keepsStep_blaming operator _).bind fun right => ?_
  cases UnaryOperator.ofKind? operator.kind with
  | none => exact .throw _
  | some op => exact (keepsStep_blaming operator _).bind fun _ => .pure _

theorem keepsStep_applyBinary (left : Value) (operator : Token) (right : Value) :
    KeepsStep R (applyBinary left operator right) (applyBinary left operator right) := by
  refine (keepsStep_blaming operator _).bind fun left =>
    (keepsStep_blaming operator _).bind fun right => ?_
  cases BinaryOperator.ofKind? operator.kind with
  | none => exact .throw _
  | some op => exact (keepsStep_blaming operator _).bind fun _ => .pure _

variable (h : Scope.Indistinct ρ names R)
include h

/-- The one point where evaluation looks at a scope. Names that find the same also look as far for
it, so neither run has less room left. -/
theorem keepsStep_read (room : Nat) {name : Token} (hname : name.lexeme ∈ names) :
    KeepsStep R (Evaluation.read room name) (Evaluation.read room (name.rename ρ)) := by
  intro s s' hs
  have hfind : s'.find? (name.rename ρ).lexeme = s.find? name.lexeme := h.find? hs hname
  have hreach : s'.reach (name.rename ρ).lexeme = s.reach name.lexeme := h.reach hs hname
  unfold Evaluation.read
  rw [hfind, hreach]
  split
  · cases hvalue : s.find? name.lexeme with
    | some value => exact .ok hs
    | none =>
      -- A name that finds nothing has kept its lexeme, so both runs blame the same token.
      rw [Token.rename_of_eq (h.unbound hs hname hvalue)]
      exact .error hs
  · exact .error hs

theorem keepsStep_assign (room : Nat) {name : Token} (hname : name.lexeme ∈ names)
    (value : Value) :
    KeepsStep R (Evaluation.assign room name value)
      (Evaluation.assign room (name.rename ρ) value) := by
  intro s s' hs
  have hreach : s'.reach (name.rename ρ).lexeme = s.reach name.lexeme := h.reach hs hname
  have hassign : Option.Rel R (s.assign? name.lexeme value)
      (s'.assign? (name.rename ρ).lexeme value) := h.assign? hs hname value
  unfold Evaluation.assign
  rw [hreach]
  split
  · cases hnew : s.assign? name.lexeme value with
    | some t =>
      rw [hnew] at hassign
      generalize Scope.assign? s' (name.rename ρ).lexeme value = r at hassign ⊢
      cases hassign with
      | some ht => exact .ok ht
    | none =>
      rw [hnew] at hassign
      rw [Token.rename_of_eq (h.unbound hs hname (Scope.find?_eq_none_of_assign? hnew))] at hassign ⊢
      generalize Scope.assign? s' name.lexeme value = r at hassign ⊢
      cases hassign with
      | none => exact .error hs
  · exact .error hs

end Evaluation

open Evaluation in
/-- By induction on the expression. Only reads and assignments look at the scopes. -/
theorem Expr.keepsStep_evaluate (h : Scope.Indistinct ρ names R) (e : Expr)
    (hnames : ∀ x ∈ e.names, x ∈ names) (room : Nat) :
    KeepsStep R (e.evaluate room) ((e.rename ρ).evaluate room) := by
  induction e generalizing room with
  | literal value => exact .pure value
  | read name => exact keepsStep_read h room (hnames _ List.mem_cons_self)
  | grouping inner ih => exact keepsStep_opening _ _ (ih hnames)
  | unary operator right ih =>
    exact keepsStep_opening _ _ fun room =>
      (ih hnames room).bind fun right => keepsStep_applyUnary operator right
  | binary left operator right ihleft ihright =>
    obtain ⟨hleft, hright⟩ := List.forall_mem_append.1 hnames
    exact keepsStep_opening _ _ fun room =>
      (ihleft hleft room).bind fun left => (ihright hright room).bind fun right =>
        keepsStep_applyBinary left operator right
  | assign name value ih =>
    obtain ⟨hname, hvalue⟩ := List.forall_mem_cons.1 hnames
    exact keepsStep_opening _ _ fun inside =>
      (ih hvalue inside).bind fun value =>
        (keepsStep_assign h room hname value).bind fun _ => .pure value

/-! ## Execution -/

/-- Two runs in step: their scopes are related, and they have written the same lines, each after
what it started with. -/
structure State.InStep (R : Scope → Scope → Prop) (log log' : List Event) (s s' : State) : Prop where
  scope : R s.scope s'.scope
  log : ∃ written, s.log = log ++ written ∧ s'.log = log' ++ written

namespace Execution

variable {log log' : List Event}

theorem keepsStep_evaluating {α : Type} {x y : Evaluation α} (h : KeepsStep R x y) :
    KeepsStep (State.InStep R log log') (evaluating x) (evaluating y) := by
  intro s s' ⟨hscope, hlog⟩
  have hends := h s.scope s'.scope hscope
  unfold evaluating
  generalize x s.scope = r at hends ⊢
  generalize y s'.scope = r' at hends ⊢
  cases hends with
  | ok ht => exact .ok ⟨ht, hlog⟩
  | error ht => exact .error ⟨ht, hlog⟩

theorem keepsStep_opening {α : Type} {S : State → State → Prop} {inside inside' : Nat → Execution α}
    (levels room : Nat) (h : ∀ room, KeepsStep S (inside room) (inside' room)) :
    KeepsStep S (opening levels room inside) (opening levels room inside') := by
  unfold opening
  split
  · exact h _
  · exact .throw _

/-- The same line comes after what each of the two has written so far. -/
theorem keepsStep_write (channel : Channel) (line : String) :
    KeepsStep (State.InStep R log log') (write channel line) (write channel line) := by
  intro s s' ⟨hscope, written, hlog, hlog'⟩
  have hextended {earlier log : List Event} (h : log = earlier ++ written) :
      log ++ [⟨channel, line⟩] = earlier ++ (written ++ [⟨channel, line⟩]) := by
    rw [h, List.append_assoc]
  exact .ok ⟨hscope, written ++ [⟨channel, line⟩], hextended hlog, hextended hlog'⟩

theorem keepsStep_announce (traced : Bool) (form : String) :
    KeepsStep (State.InStep R log log') (announce traced form) (announce traced form) := by
  unfold announce
  split
  · exact keepsStep_write _ _
  · exact .pure ()

theorem keepsStep_define (h : Scope.Indistinct ρ names R) {name : Token}
    (hname : name.lexeme ∈ names) (value : Value) :
    KeepsStep (State.InStep R log log') (define name value) (define (name.rename ρ) value) :=
  fun _ _ ⟨hscope, hlog⟩ => .ok ⟨h.define hscope hname value, hlog⟩

/-- In a block the new frames join the relation, and they are gone after it. -/
theorem keepsStep_nested {α : Type} {x y : Execution α}
    (h : KeepsStep (State.InStep (Scope.Nested ρ names R) log log') x y) :
    KeepsStep (State.InStep R log log') (nested x) (nested y) := by
  intro s s' ⟨hscope, hlog⟩
  have hends := h { s with scope := s.scope.enter } { s' with scope := s'.scope.enter }
    ⟨Scope.nested_enter hscope, hlog⟩
  unfold nested
  generalize x { s with scope := s.scope.enter } = r at hends ⊢
  generalize y { s' with scope := s'.scope.enter } = r' at hends ⊢
  cases hends with
  | ok ht => exact .ok ⟨ht.scope.leave, ht.log⟩
  | error ht => exact .error ⟨ht.scope.leave, ht.log⟩

end Execution

end Scopes

open Execution in
mutual

/-- A block takes the relation one frame further, so the statement is proved for all relations at
once. -/
theorem Stmt.keepsStep_execute {ρ : String → String} {names : Set String}
    {R : Scope → Scope → Prop} (h : Scope.Indistinct ρ names R) (traced : Bool)
    (log log' : List Event) : (room : Nat) → (s : Stmt) → (∀ x ∈ s.names, x ∈ names) →
    KeepsStep (State.InStep R log log') (s.execute traced room) ((s.rename ρ).execute traced room)
  | _, .expression value, hnames =>
    (keepsStep_announce _ _).bind fun _ => keepsStep_opening _ _ fun room =>
      (keepsStep_evaluating (value.keepsStep_evaluate h hnames room)).bind fun _ => .pure ()
  | _, .print value, hnames =>
    (keepsStep_announce _ _).bind fun _ => keepsStep_opening _ _ fun room =>
      (keepsStep_evaluating (value.keepsStep_evaluate h hnames room)).bind fun _ =>
        keepsStep_write _ _
  | _, .declare _ none, hnames =>
    (keepsStep_announce _ _).bind fun _ => keepsStep_opening _ _ fun _ =>
      keepsStep_define h (hnames _ List.mem_cons_self) none
  | _, .declare _ (some initial), hnames =>
    have ⟨hname, hinitial⟩ := List.forall_mem_cons.1 hnames
    (keepsStep_announce _ _).bind fun _ => keepsStep_opening _ _ fun room =>
      (keepsStep_evaluating (initial.keepsStep_evaluate h hinitial room)).bind fun value =>
        keepsStep_define h hname value
  | _, .block body, hnames =>
    -- Inside, the relation is that of the two new frames upon related scopes.
    (keepsStep_announce _ _).bind fun _ => keepsStep_opening _ _ fun room =>
      keepsStep_nested (Program.keepsStep_execute h.nested traced log log' room body hnames)

/-- A program and the program with its names changed run in step, from scopes that their names
cannot tell apart. -/
theorem Program.keepsStep_execute {ρ : String → String} {names : Set String}
    {R : Scope → Scope → Prop} (h : Scope.Indistinct ρ names R) (traced : Bool)
    (log log' : List Event) : (room : Nat) → (body : List Stmt) →
    (∀ x ∈ Program.names body, x ∈ names) →
    KeepsStep (State.InStep R log log') (Program.execute traced room body)
      (Program.execute traced room (Program.rename ρ body))
  | _, [], _ => .pure ()
  | room, statement :: rest, hnames =>
    have ⟨hfirst, hrest⟩ := List.forall_mem_append.1 hnames
    (statement.keepsStep_execute h traced log log' room hfirst).bind fun _ =>
      Program.keepsStep_execute h traced log log' room rest hrest

end

end Scriptlet
