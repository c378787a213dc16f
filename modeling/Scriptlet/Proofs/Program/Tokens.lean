import Scriptlet.Program

/-!
# The tokens kept in a tree

A tree keeps the tokens of its operators and names. They are all that a tree knows of the text it
was read from, so where a tree points to is a question about them, and a tree that was read further
down is the same tree with its tokens moved.
-/

namespace Scriptlet

/-- The tokens kept in an expression. -/
def Expr.tokens : Expr → List Token
  | literal _ => []
  | grouping inner => inner.tokens
  | unary operator right => operator :: right.tokens
  | binary left operator right => left.tokens ++ operator :: right.tokens
  | read name => [name]
  | assign name value => name :: value.tokens

/-- An expression with its tokens changed. -/
def Expr.mapTokens (f : Token → Token) : Expr → Expr
  | literal value => literal value
  | grouping inner => grouping (inner.mapTokens f)
  | unary operator right => unary (f operator) (right.mapTokens f)
  | binary left operator right => binary (left.mapTokens f) (f operator) (right.mapTokens f)
  | read name => read (f name)
  | assign name value => assign (f name) (value.mapTokens f)

mutual

def Stmt.tokens : Stmt → List Token
  | .expression value => value.tokens
  | .print value => value.tokens
  | .declare name none => [name]
  | .declare name (some initial) => name :: initial.tokens
  | .block body => Program.tokens body

def Program.tokens : List Stmt → List Token
  | [] => []
  | statement :: rest => statement.tokens ++ Program.tokens rest

end

mutual

def Stmt.mapTokens (f : Token → Token) : Stmt → Stmt
  | .expression value => .expression (value.mapTokens f)
  | .print value => .print (value.mapTokens f)
  | .declare name none => .declare (f name) none
  | .declare name (some initial) => .declare (f name) (some (initial.mapTokens f))
  | .block body => .block (Program.mapTokens f body)

def Program.mapTokens (f : Token → Token) : List Stmt → List Stmt
  | [] => []
  | statement :: rest => statement.mapTokens f :: Program.mapTokens f rest

end

@[simp]
theorem Expr.mapTokens_id (e : Expr) : e.mapTokens id = e := by
  induction e with
  | literal value => rfl
  | read name => rfl
  | grouping inner ih => simp [mapTokens, ih]
  | unary operator right ih => simp [mapTokens, ih]
  | binary left operator right ihl ihr => simp [mapTokens, ihl, ihr]
  | assign name value ih => simp [mapTokens, ih]

mutual

@[simp]
theorem Stmt.mapTokens_id : (s : Stmt) → s.mapTokens id = s
  | .expression value => by simp [Stmt.mapTokens]
  | .print value => by simp [Stmt.mapTokens]
  | .declare name none => by simp [Stmt.mapTokens]
  | .declare name (some initial) => by simp [Stmt.mapTokens]
  | .block body => by simp [Stmt.mapTokens, Program.mapTokens_id body]

@[simp]
theorem Program.mapTokens_id : (body : List Stmt) → Program.mapTokens id body = body
  | [] => rfl
  | statement :: rest => by
    simp [Program.mapTokens, Stmt.mapTokens_id statement, Program.mapTokens_id rest]

end

/-- Changing tokens goes through a program statement by statement. -/
theorem Program.mapTokens_eq_map (f : Token → Token) (body : List Stmt) :
    Program.mapTokens f body = body.map (Stmt.mapTokens f) := by
  induction body with
  | nil => rfl
  | cons statement rest ih => simp [Program.mapTokens, ih]

end Scriptlet
