import Scriptlet.Program

/-!
# Loose trees

Reading a text puts expressions where expressions belong and statements where statements belong. A
loose tree has the same ten forms and lets any of them stand anywhere. Every expression, statement
and program is a loose tree as well.
-/

namespace Scriptlet

/-- A tree whose parts may be of any form. -/
inductive Tree where
  | literal (value : Value)
  | grouping (inner : Tree)
  | unary (operator : Token) (right : Tree)
  | binary (left : Tree) (operator : Token) (right : Tree)
  | read (name : Token)
  | assign (name : Token) (value : Tree)
  | expression (value : Tree)
  | print (value : Tree)
  | declare (name : Token) (initial : Option Tree)
  | block (body : List Tree)

/-- The name of a tree's form, as a trace gives it. -/
def Tree.form : Tree → String
  | literal _ => "Literal"
  | grouping _ => "Grouping"
  | unary _ _ => "Unary"
  | binary _ _ _ => "Binary"
  | read _ => "Variable"
  | assign _ _ => "Assign"
  | expression _ => "Expression"
  | print _ => "Print"
  | declare _ _ => "Var"
  | block _ => "Block"

/-- An expression as a loose tree. -/
def Expr.tree : Expr → Tree
  | literal value => .literal value
  | grouping inner => .grouping inner.tree
  | unary operator right => .unary operator right.tree
  | binary left operator right => .binary left.tree operator right.tree
  | read name => .read name
  | assign name value => .assign name value.tree

mutual

def Stmt.tree : Stmt → Tree
  | .expression value => .expression value.tree
  | .print value => .print value.tree
  | .declare name initial => .declare name (initial.map Expr.tree)
  | .block body => .block (Program.trees body)

def Program.trees : List Stmt → List Tree
  | [] => []
  | statement :: rest => statement.tree :: Program.trees rest

end

/-- A statement keeps the name of its form as a loose tree. -/
theorem Stmt.form_tree (statement : Stmt) : statement.tree.form = statement.form := by
  cases statement <;> rfl

end Scriptlet
