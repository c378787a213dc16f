import Scriptlet.Execution
import Scriptlet.Program.Tree

/-!
# Running loose trees

Any form may be asked for its value and any form may be run. A statement in the place of an
expression does its work unannounced and has the value nil; an expression in the place of a
statement is announced like one, and its value is dropped. On the trees of expressions, statements
and programs this is evaluation and execution as defined for them, which `Expr.run_tree`,
`Stmt.execute_tree` and `Program.executeAll_trees` say.
-/

namespace Scriptlet

open Execution in
mutual

/-- Does what a tree asks for, and gives its value. -/
def Tree.run (traced : Bool) : (room : Nat) → Tree → Execution Value
  | _, .literal value => pure value
  | room, .read name => evaluating (Evaluation.read room name)
  | room, .grouping inner => opening Nesting.compound room fun room => inner.run traced room
  | room, .unary operator right => opening Nesting.compound room fun room => do
    let right ← right.run traced room
    evaluating (Evaluation.applyUnary operator right)
  | room, .binary left operator right => opening Nesting.compound room fun room => do
    let left ← left.run traced room
    let right ← right.run traced room
    evaluating (Evaluation.applyBinary left operator right)
  | room, .assign name value => opening Nesting.compound room fun inside => do
    let value ← value.run traced inside
    evaluating (Evaluation.assign room name value)
    pure value
  | room, .expression value => opening Nesting.statement room fun room => do
    let _ ← value.run traced room
    pure none
  | room, .print value => opening Nesting.statement room fun room => do
    let value ← value.run traced room
    write .output value.display
    pure none
  | room, .declare name none => opening Nesting.statement room fun _ => do
    define name none
    pure none
  | room, .declare name (some initial) => opening Nesting.statement room fun room => do
    let value ← initial.run traced room
    define name value
    pure none
  | room, .block body => opening Nesting.block room fun room => do
    nested (Tree.executeAll traced room body)
    pure none

/-- Announces and runs trees one after the other. -/
def Tree.executeAll (traced : Bool) : (room : Nat) → List Tree → Execution Unit
  | _, [] => pure ()
  | room, tree :: rest => do
    announce traced tree.form
    let _ ← tree.run traced room
    Tree.executeAll traced room rest

end

/-- Announces and runs a tree, and drops its value. -/
def Tree.execute (traced : Bool) (room : Nat) (tree : Tree) : Execution Unit :=
  Tree.executeAll traced room [tree]

/-- An expression has the same value as a loose tree. -/
theorem Expr.run_tree (traced : Bool) (room : Nat) (value : Expr) :
    value.tree.run traced room = Execution.evaluating (value.evaluate room) := by
  induction value generalizing room with
  | literal value => rfl
  | read name => rfl
  | grouping inner ih => simp [Expr.tree, Tree.run, Expr.evaluate, ih]
  | unary operator right ih => simp [Expr.tree, Tree.run, Expr.evaluate, ih]
  | binary left operator right ihl ihr => simp [Expr.tree, Tree.run, Expr.evaluate, ihl, ihr]
  | assign name value ih => simp [Expr.tree, Tree.run, Expr.evaluate, ih, -bind_pure_comp]

open Execution in
mutual

/-- A statement runs alike as a loose tree, and its value is nil. -/
theorem Stmt.execute_tree (traced : Bool) : (room : Nat) → (statement : Stmt) →
    (do announce traced statement.tree.form; statement.tree.run traced room) =
      (do statement.execute traced room; pure (none : Value))
  | room, .expression value => by
    simp [Stmt.tree, Tree.run, Stmt.execute, Expr.run_tree, Tree.form, Stmt.form]
  | room, .print value => by
    simp [Stmt.tree, Tree.run, Stmt.execute, Expr.run_tree, Tree.form, Stmt.form]
  | room, .declare name none => by
    simp [Stmt.tree, Tree.run, Stmt.execute, Tree.form, Stmt.form]
  | room, .declare name (some initial) => by
    simp [Stmt.tree, Tree.run, Stmt.execute, Expr.run_tree, Tree.form, Stmt.form]
  | room, .block body => by
    simp [Stmt.tree, Tree.run, Stmt.execute, Program.executeAll_trees traced _ body, Tree.form,
      Stmt.form]

/-- A program runs alike as loose trees. -/
theorem Program.executeAll_trees (traced : Bool) : (room : Nat) → (body : List Stmt) →
    Tree.executeAll traced room (Program.trees body) = Program.execute traced room body
  | _, [] => rfl
  | room, statement :: rest => by
    have head := Stmt.execute_tree traced room statement
    have tail := Program.executeAll_trees traced room rest
    simp only [Program.trees, Tree.executeAll, Program.execute, tail]
    rw [← bind_assoc, head]
    simp

end

end Scriptlet
