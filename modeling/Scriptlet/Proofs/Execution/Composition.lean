import Scriptlet.Session
import Scriptlet.Proofs.Program.Tokens

/-!
# Running a program in two pieces

A run looks at the kinds and the lexemes of tokens and at nothing else of them, and it never looks at
what has been written. So a program whose tokens were moved, run after something else, binds the same
values and writes the same lines after those of before, and what stops it was moved as well. This is
one relation between computations, which passes through sequences as they do. It asks nothing of the
change to what was written but that writing a line passes through it, so it also holds of runs that
write lines which the change takes out.
-/

namespace Scriptlet

/-- A stop with the token it blames changed. -/
def Stop.mapSite (f : Token → Token) : Stop → Stop
  | fault cause site => fault cause (f site)
  | exhausted => exhausted

/-- The second computation, from a changed state, does what the first one does, up to that change
and to a change of the token that is blamed. -/
def Moves {σ α : Type} (f : Token → Token) (g : σ → σ) (x y : EStateM Stop σ α) : Prop :=
  ∀ s, y (g s) = match x s with
    | .ok a t => .ok a (g t)
    | .error stop t => .error (stop.mapSite f) (g t)

/-- Labels that runs do not look at. -/
structure Token.Unseen (f : Token → Token) : Prop where
  kind : ∀ t, (f t).kind = t.kind
  lexeme : ∀ t, (f t).lexeme = t.lexeme

namespace Moves

variable {σ α β : Type} {f : Token → Token} {g : σ → σ}

theorem pure (a : α) : Moves f g (pure a) (pure a) := fun _ => rfl

theorem exhausted : Moves (α := α) f g (throw Stop.exhausted) (throw Stop.exhausted) := fun _ => rfl

theorem fault (cause : RuntimeCause) (site : Token) :
    Moves (α := α) f g (throw (Stop.fault cause site)) (throw (Stop.fault cause (f site))) :=
  fun _ => rfl

/-- A stop in the first part is a stop of the whole, and its blame has been moved by then. -/
theorem bind {x y : EStateM Stop σ α} {next next' : α → EStateM Stop σ β} (hx : Moves f g x y)
    (hnext : ∀ a, Moves f g (next a) (next' a)) : Moves f g (x >>= next) (y >>= next') := by
  intro s
  change EStateM.bind y next' (g s) = match EStateM.bind x next s with
    | .ok a t => .ok a (g t)
    | .error stop t => .error (stop.mapSite f) (g t)
  unfold EStateM.bind
  rw [hx s]
  cases x s with
  | ok a t => exact hnext a t
  | error stop t => rfl

end Moves

/-! ## Evaluation -/

namespace Evaluation

variable {f : Token → Token}

theorem moves_opening {α : Type} {inside inside' : Nat → Evaluation α} (levels room : Nat)
    (h : ∀ room, Moves f id (inside room) (inside' room)) :
    Moves f id (opening levels room inside) (opening levels room inside') := by
  unfold opening
  split
  · exact h _
  · exact .exhausted

/-- The values do not depend on the token, so that only the blame moves with it. -/
theorem moves_blaming {α : Type} (site : Token) (result : Except RuntimeCause α) :
    Moves f id (blaming site result) (blaming (f site) result) := by
  cases result with
  | ok value => exact .pure value
  | error cause => exact .fault cause site

variable (hf : Token.Unseen f)
include hf

/-- Names are looked up by their lexemes, which do not move. -/
theorem moves_read (room : Nat) (name : Token) :
    Moves f id (Evaluation.read room name) (Evaluation.read room (f name)) := by
  intro s
  unfold Evaluation.read
  rw [hf.lexeme, id_eq]
  by_cases hroom : s.reach name.lexeme ≤ room
  · simp only [if_pos hroom]
    cases s.find? name.lexeme <;> rfl
  · simp only [if_neg hroom]
    rfl

theorem moves_assign (room : Nat) (name : Token) (value : Value) :
    Moves f id (Evaluation.assign room name value) (Evaluation.assign room (f name) value) := by
  intro s
  unfold Evaluation.assign
  rw [hf.lexeme, id_eq]
  by_cases hroom : s.reach name.lexeme ≤ room
  · simp only [if_pos hroom]
    cases s.assign? name.lexeme value <;> rfl
  · simp only [if_neg hroom]
    rfl

theorem moves_applyUnary (operator : Token) (right : Value) :
    Moves f id (applyUnary operator right) (applyUnary (f operator) right) := by
  refine (moves_blaming operator _).bind fun right => ?_
  rw [hf.kind]
  cases UnaryOperator.ofKind? operator.kind with
  | none => exact .fault _ operator
  | some op => exact (moves_blaming operator _).bind fun _ => .pure _

theorem moves_applyBinary (left right : Value) (operator : Token) :
    Moves f id (applyBinary left operator right) (applyBinary left (f operator) right) := by
  refine (moves_blaming operator _).bind fun left => (moves_blaming operator _).bind fun right => ?_
  rw [hf.kind]
  cases BinaryOperator.ofKind? operator.kind with
  | none => exact .fault _ operator
  | some op => exact (moves_blaming operator _).bind fun _ => .pure _

end Evaluation

open Evaluation in
/-- Evaluation never looks at what has been written, so the states are the same here. -/
theorem Expr.moves_evaluate {f : Token → Token} (hf : Token.Unseen f) (e : Expr) (room : Nat) :
    Moves f id (e.evaluate room) ((e.mapTokens f).evaluate room) := by
  induction e generalizing room with
  | literal value => exact .pure value
  | read name => exact moves_read hf room name
  | grouping inner ih => exact moves_opening _ _ ih
  | unary operator right ih =>
    exact moves_opening _ _ fun room =>
      (ih room).bind fun right => moves_applyUnary hf operator right
  | binary left operator right ihleft ihright =>
    exact moves_opening _ _ fun room =>
      (ihleft room).bind fun left => (ihright room).bind fun right =>
        moves_applyBinary hf left right operator
  | assign name value ih =>
    exact moves_opening _ _ fun inside =>
      (ih inside).bind fun value => (moves_assign hf room name value).bind fun _ => .pure value

/-! ## Execution -/

/-- A state in which what was written is changed. -/
def State.mapLog (g : List Event → List Event) (s : State) : State := { s with log := g s.log }

/-- A state in which something had been written before. -/
def State.after (log : List Event) : State → State := State.mapLog (log ++ ·)

namespace Execution

variable {f : Token → Token} {g : List Event → List Event}

theorem moves_evaluating {α : Type} {x y : Evaluation α} (h : Moves f id x y) :
    Moves f (State.mapLog g) (evaluating x) (evaluating y) := by
  intro s
  have hs : y (s.mapLog g).scope = _ := h s.scope
  simp only [evaluating, hs]
  cases x s.scope <;> rfl

theorem moves_opening {α : Type} {inside inside' : Nat → Execution α} (levels room : Nat)
    (h : ∀ room, Moves f (State.mapLog g) (inside room) (inside' room)) :
    Moves f (State.mapLog g) (opening levels room inside) (opening levels room inside') := by
  unfold opening
  split
  · exact h _
  · exact .exhausted

/-- The one thing that is asked of a change: a line may be written before it or after it. -/
theorem moves_write {channel : Channel} {line : String}
    (h : ∀ log, g (log ++ [⟨channel, line⟩]) = g log ++ [⟨channel, line⟩]) :
    Moves f (State.mapLog g) (write channel line) (write channel line) := by
  intro s
  change EStateM.Result.ok () _ = EStateM.Result.ok () _
  simp only [State.mapLog, h]

theorem moves_define (hf : Token.Unseen f) (name : Token) (value : Value) :
    Moves f (State.mapLog g) (define name value) (define (f name) value) := by
  intro s
  unfold define
  rw [hf.lexeme]
  rfl

/-- Both runs leave a frame behind, whether they end or are stopped. -/
theorem moves_nested {α : Type} {x y : Execution α} (h : Moves f (State.mapLog g) x y) :
    Moves f (State.mapLog g) (nested x) (nested y) := by
  intro s
  have hs : y { s.mapLog g with scope := (s.mapLog g).scope.enter } = _ :=
    h { s with scope := s.scope.enter }
  simp only [nested, hs]
  cases x { s with scope := s.scope.enter } <;> rfl

end Execution

/-- A change to what was written that the lines of statements pass through. The first run may be
traced where the second one is not, if the change takes the trace out. -/
structure Execution.Carries (f : Token → Token) (g : List Event → List Event)
    (traced traced' : Bool) : Prop where
  announce : ∀ form, Moves f (State.mapLog g) (announce traced form) (announce traced' form)
  print : ∀ line, Moves f (State.mapLog g) (write .output line) (write .output line)

open Execution in
mutual

/-- The lines of a statement are its own form and what it prints, and both are carried over. -/
theorem Stmt.moves_execute {f : Token → Token} {g : List Event → List Event}
    {traced traced' : Bool} (hf : Token.Unseen f) (hg : Carries f g traced traced') :
    (room : Nat) → (s : Stmt) →
    Moves f (State.mapLog g) (s.execute traced room) ((s.mapTokens f).execute traced' room)
  | _, .expression value =>
    (hg.announce _).bind fun _ => moves_opening _ _ fun room =>
      (moves_evaluating (value.moves_evaluate hf room)).bind fun _ => .pure ()
  | _, .print value =>
    (hg.announce _).bind fun _ => moves_opening _ _ fun room =>
      (moves_evaluating (value.moves_evaluate hf room)).bind fun value => hg.print value.display
  | _, .declare name none =>
    (hg.announce _).bind fun _ => moves_opening _ _ fun _ => moves_define hf name none
  | _, .declare name (some initial) =>
    (hg.announce _).bind fun _ => moves_opening _ _ fun room =>
      (moves_evaluating (initial.moves_evaluate hf room)).bind fun value =>
        moves_define hf name value
  | _, .block body =>
    (hg.announce _).bind fun _ => moves_opening _ _ fun room =>
      moves_nested (Program.moves_execute hf hg room body)

theorem Program.moves_execute {f : Token → Token} {g : List Event → List Event}
    {traced traced' : Bool} (hf : Token.Unseen f) (hg : Carries f g traced traced') :
    (room : Nat) → (body : List Stmt) →
    Moves f (State.mapLog g) (Program.execute traced room body)
      (Program.execute traced' room (Program.mapTokens f body))
  | _, [] => .pure ()
  | room, statement :: rest =>
    (statement.moves_execute hf hg room).bind fun _ => Program.moves_execute hf hg room rest

end

/-- Text that was written before stays in front of whatever is written. -/
theorem Execution.carries_after (f : Token → Token) (log : List Event) :
    Carries f (log ++ ·) false false where
  announce _ := .pure ()
  print _ := moves_write fun _ => (List.append_assoc ..).symm

/-- Running two pieces one after the other is running them as one program. -/
theorem Program.execute_append (traced : Bool) (room : Nat) (xs ys : List Stmt) :
    Program.execute traced room (xs ++ ys) =
      Program.execute traced room xs >>= fun _ => Program.execute traced room ys := by
  induction xs with
  | nil => simp [Program.execute]
  | cons statement xs ih =>
    rw [List.cons_append, Program.execute, Program.execute, ih, bind_assoc]

end Scriptlet
