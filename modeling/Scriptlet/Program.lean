import Scriptlet.Token

/-!
# Programs

A program is a list of statements. Trees keep the tokens of operators and names, for their text and
for the place of whatever goes wrong there.
-/

namespace Scriptlet

/-- An expression. -/
inductive Expr where
  | literal (value : Value)
  | grouping (inner : Expr)
  | unary (operator : Token) (right : Expr)
  | binary (left : Expr) (operator : Token) (right : Expr)
  | read (name : Token)
  | assign (name : Token) (value : Expr)
  deriving DecidableEq

/-- A statement. -/
inductive Stmt where
  | expression (value : Expr)
  | print (value : Expr)
  | declare (name : Token) (initial : Option Expr)
  | block (body : List Stmt)

abbrev Program := List Stmt

/-- The name of a statement's form, as a trace gives it. -/
def Stmt.form : Stmt → String
  | expression _ => "Expression"
  | print _ => "Print"
  | declare _ _ => "Var"
  | block _ => "Block"

end Scriptlet
