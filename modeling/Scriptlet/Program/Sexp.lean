import Scriptlet.Nesting
import Scriptlet.Program.Tree

/-!
# Programs as s-expressions

An s-expression is an atom or a parenthesised head with parts. Each form of expression and statement
has its s-expression; a program is written with one statement a line. Parts are s-expressions
themselves, so a form may hold anything that can be written.
-/

namespace Scriptlet

/-- An s-expression. -/
inductive Sexp where
  | atom (text : String)
  | list (head : String) (parts : List Sexp)

namespace Sexp

mutual

def text : Sexp → String
  | atom text => text
  | list head parts => "(" ++ head ++ textParts parts ++ ")"

/-- The text of parts, each after a space. -/
def textParts : List Sexp → String
  | [] => ""
  | part :: parts => " " ++ part.text ++ textParts parts

end

mutual

/-- The number of levels of an s-expression; an atom has one. -/
def height : Sexp → Nat
  | atom _ => 1
  | list _ parts => heightParts parts + 1

/-- The greatest height among parts. -/
def heightParts : List Sexp → Nat
  | [] => 0
  | part :: parts => max part.height (heightParts parts)

end

/-- The text of an s-expression, unless it is too high to be written. -/
def text? (s : Sexp) : Option String :=
  if s.height ≤ Nesting.writing then some s.text else none

/-- The texts of several s-expressions, one a line. -/
def textLines? (ss : List Sexp) : Option String :=
  (ss.mapM text?).map ("\n".intercalate ·)

/-! ## The forms of the language -/

def name (token : Token) : Sexp := atom token.lexeme

def literal (value : Value) : Sexp := atom value.display

def grouping (inner : Sexp) : Sexp := list "group" [inner]

def unary (operator : Token) (right : Sexp) : Sexp := list operator.lexeme [right]

def binary (left : Sexp) (operator : Token) (right : Sexp) : Sexp :=
  list operator.lexeme [left, right]

def assign (target : Token) (value : Sexp) : Sexp := list "=" [name target, value]

def expression (value : Sexp) : Sexp := list ";" [value]

def print (value : Sexp) : Sexp := list "print" [value]

def declare (target : Token) (initial : Option Sexp) : Sexp :=
  list "var" (name target :: initial.toList)

def block (body : List Sexp) : Sexp := list "block" body

end Sexp

/-- An expression as an s-expression. -/
def Expr.sexp : Expr → Sexp
  | literal value => .literal value
  | grouping inner => .grouping inner.sexp
  | unary operator right => .unary operator right.sexp
  | binary left operator right => .binary left.sexp operator right.sexp
  | read name => .name name
  | assign name value => .assign name value.sexp

mutual

def Stmt.sexp : Stmt → Sexp
  | .expression value => .expression value.sexp
  | .print value => .print value.sexp
  | .declare name initial => .declare name (initial.map Expr.sexp)
  | .block body => .block (Program.sexps body)

def Program.sexps : List Stmt → List Sexp
  | [] => []
  | statement :: rest => statement.sexp :: Program.sexps rest

end

mutual

/-- A loose tree as an s-expression. -/
def Tree.sexp : Tree → Sexp
  | .literal value => .literal value
  | .grouping inner => .grouping inner.sexp
  | .unary operator right => .unary operator right.sexp
  | .binary left operator right => .binary left.sexp operator right.sexp
  | .read name => .name name
  | .assign name value => .assign name value.sexp
  | .expression value => .expression value.sexp
  | .print value => .print value.sexp
  | .declare name none => .declare name none
  | .declare name (some initial) => .declare name (some initial.sexp)
  | .block body => .block (Tree.sexps body)

def Tree.sexps : List Tree → List Sexp
  | [] => []
  | tree :: rest => tree.sexp :: Tree.sexps rest

end

/-- An expression is written alike as a loose tree. -/
theorem Expr.sexp_tree (value : Expr) : value.tree.sexp = value.sexp := by
  induction value <;> simp_all [Expr.tree, Expr.sexp, Tree.sexp]

mutual

/-- A statement is written alike as a loose tree. -/
theorem Stmt.sexp_tree : (statement : Stmt) → statement.tree.sexp = statement.sexp
  | .expression value => by simp [Stmt.tree, Stmt.sexp, Tree.sexp, value.sexp_tree]
  | .print value => by simp [Stmt.tree, Stmt.sexp, Tree.sexp, value.sexp_tree]
  | .declare name none => by simp [Stmt.tree, Stmt.sexp, Tree.sexp]
  | .declare name (some initial) => by simp [Stmt.tree, Stmt.sexp, Tree.sexp, initial.sexp_tree]
  | .block body => by simp [Stmt.tree, Stmt.sexp, Tree.sexp, Program.sexps_trees body]

/-- A program is written alike as loose trees. -/
theorem Program.sexps_trees : (body : List Stmt) →
    Tree.sexps (Program.trees body) = Program.sexps body
  | [] => rfl
  | statement :: rest => by
    simp [Program.trees, Program.sexps, Tree.sexps, statement.sexp_tree, Program.sexps_trees rest]

end

/-- A program as text, one statement a line, unless a statement is too deep to be written. -/
def Program.text? (program : Program) : Option String := Sexp.textLines? (Program.sexps program)

end Scriptlet
