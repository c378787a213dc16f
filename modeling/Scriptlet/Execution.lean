import Scriptlet.Event
import Scriptlet.Nesting
import Scriptlet.Operator
import Scriptlet.Program
import Scriptlet.Scope

/-!
# Running programs

Expressions are evaluated in a scope, which assignments change. Statements also print. What a
program has written and bound before something goes wrong stays, and a block is left on every way
out of it.
-/

namespace Scriptlet

/-- Why a program stops before its end. -/
inductive Stop where
  | fault (cause : RuntimeCause) (site : Token)
  | exhausted
  deriving DecidableEq

/-- A stop as a diagnostic. Exhaustion has no place in the text. -/
def Stop.diagnostic : Stop → Diagnostic
  | fault cause site => .atToken .runtime site cause.message
  | exhausted => { kind := .runtime, message := Diagnostic.nestedTooDeeply }

/-- An evaluation changes a scope, and keeps its changes also when it stops. -/
abbrev Evaluation := EStateM Stop Scope

namespace Evaluation

/-- Goes on with `levels` of the room taken, if there is that much. -/
def opening {α : Type} (levels room : Nat) (inside : Nat → Evaluation α) : Evaluation α :=
  if levels ≤ room then inside (room - levels) else throw .exhausted

/-- A result that blames its cause on a token. -/
def blaming {α : Type} (site : Token) : Except RuntimeCause α → Evaluation α
  | .ok value => pure value
  | .error cause => throw (.fault cause site)

/-- The value of a name. The search for it opens a level for every frame that it looks into. -/
def read (room : Nat) (name : Token) : Evaluation Value := fun scope =>
  if scope.reach name.lexeme ≤ room then
    match scope.find? name.lexeme with
    | some value => .ok value scope
    | none => .error (.fault (.undefinedVariable name.lexeme) name) scope
  else .error .exhausted scope

/-- Gives a name that is bound another value. The search for it opens a level for every frame that
it looks into. -/
def assign (room : Nat) (name : Token) (value : Value) : Evaluation Unit := fun scope =>
  if scope.reach name.lexeme ≤ room then
    match scope.assign? name.lexeme value with
    | some scope => .ok () scope
    | none => .error (.fault (.undefinedVariable name.lexeme) name) scope
  else .error .exhausted scope

/-- Applies a unary operator. Its operand is looked at before the operator is. -/
def applyUnary (operator : Token) (right : Value) : Evaluation Value := do
  let right ← blaming operator (right.require "Right")
  match UnaryOperator.ofKind? operator.kind with
  | none => throw (.fault .unaryOperator operator)
  | some op => some <$> blaming operator (op.apply right)

/-- Applies a binary operator. Its operands are looked at before the operator is. -/
def applyBinary (left : Value) (operator : Token) (right : Value) : Evaluation Value := do
  let left ← blaming operator (left.require "Left")
  let right ← blaming operator (right.require "Right")
  match BinaryOperator.ofKind? operator.kind with
  | none => throw (.fault .binaryOperator operator)
  | some op => some <$> blaming operator (op.apply left right)

end Evaluation

open Evaluation in
/-- The value of an expression. Both operands are evaluated, the left one first. An assignment
looks for its name only after its value is known and the levels of the value are closed again. -/
def Expr.evaluate : (room : Nat) → Expr → Evaluation Value
  | _, .literal value => pure value
  | room, .read name => Evaluation.read room name
  | room, .grouping inner => opening Nesting.compound room fun room => inner.evaluate room
  | room, .unary operator right => opening Nesting.compound room fun room => do
    applyUnary operator (← right.evaluate room)
  | room, .binary left operator right => opening Nesting.compound room fun room => do
    let left ← left.evaluate room
    let right ← right.evaluate room
    applyBinary left operator right
  | room, .assign name value => opening Nesting.compound room fun inside => do
    let value ← value.evaluate inside
    Evaluation.assign room name value
    pure value

/-- What a run has bound and written so far. -/
structure State where
  scope : Scope := .empty
  log : List Event := []
  deriving DecidableEq

/-- An execution changes a state, and keeps its changes also when it stops. -/
abbrev Execution := EStateM Stop State

namespace Execution

/-- An evaluation within an execution. -/
def evaluating {α : Type} (evaluation : Evaluation α) : Execution α := fun state =>
  match evaluation state.scope with
  | .ok value scope => .ok value { state with scope }
  | .error stop scope => .error stop { state with scope }

/-- Goes on with `levels` of the room taken, if there is that much. -/
def opening {α : Type} (levels room : Nat) (inside : Nat → Execution α) : Execution α :=
  if levels ≤ room then inside (room - levels) else throw .exhausted

@[simp]
theorem evaluating_pure {α : Type} (value : α) : evaluating (pure value) = pure value := rfl

/-- Evaluations one after the other are executions one after the other. -/
@[simp]
theorem evaluating_bind {α β : Type} (first : Evaluation α) (next : α → Evaluation β) :
    evaluating (first >>= next) = evaluating first >>= fun value => evaluating (next value) := by
  funext state
  simp only [evaluating, bind, EStateM.bind]
  cases first state.scope <;> rfl

/-- Evaluations take their levels as executions do. -/
@[simp]
theorem evaluating_opening {α : Type} (levels room : Nat) (inside : Nat → Evaluation α) :
    evaluating (Evaluation.opening levels room inside) =
      opening levels room fun room => evaluating (inside room) := by
  simp only [Evaluation.opening, opening]
  split <;> rfl

/-- What becomes of a result may be done inside an opening. -/
@[simp]
theorem map_opening {α β : Type} (levels room : Nat) (inside : Nat → Execution α) (f : α → β) :
    f <$> opening levels room inside = opening levels room fun room => f <$> inside room := by
  simp only [opening]
  split <;> rfl

def write (channel : Channel) (line : String) : Execution Unit :=
  modify fun state => { state with log := state.log ++ [⟨channel, line⟩] }

/-- Binds a name in the current scope. -/
def define (name : Token) (value : Value) : Execution Unit :=
  modify fun state => { state with scope := state.scope.define name.lexeme value }

/-- Runs something in a new scope, which is left on every way out. -/
def nested {α : Type} (body : Execution α) : Execution α := fun state =>
  match body { state with scope := state.scope.enter } with
  | .ok value state => .ok value { state with scope := state.scope.leave }
  | .error stop state => .error stop { state with scope := state.scope.leave }

/-- Says which form is about to run, if the run is traced. -/
def announce (traced : Bool) (form : String) : Execution Unit :=
  if traced then write .trace ("Executing: " ++ form) else pure ()

end Execution

open Execution in
mutual

/-- Runs a statement. -/
def Stmt.execute (traced : Bool) : (room : Nat) → Stmt → Execution Unit
  | room, .expression value => do
    announce traced (Stmt.expression value).form
    opening Nesting.statement room fun room => do
      let _ ← evaluating (value.evaluate room)
  | room, .print value => do
    announce traced (Stmt.print value).form
    opening Nesting.statement room fun room => do
      let value ← evaluating (value.evaluate room)
      write .output value.display
  | room, .declare name initial => do
    announce traced (Stmt.declare name initial).form
    opening Nesting.statement room fun room => do
      match initial with
      | none => define name none
      | some initial =>
        let value ← evaluating (initial.evaluate room)
        define name value
  | room, .block body => do
    announce traced (Stmt.block body).form
    opening Nesting.block room fun room => nested (Program.execute traced room body)

/-- Runs statements one after the other. -/
def Program.execute (traced : Bool) : (room : Nat) → List Stmt → Execution Unit
  | _, [] => pure ()
  | room, statement :: rest => do
    statement.execute traced room
    Program.execute traced room rest

end

end Scriptlet
