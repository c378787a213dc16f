import Scriptlet.Program

/-!
# The names in a tree

A tree has a name wherever it reads, assigns or declares a variable. The tokens of operators are no
names, whatever their lexemes are. Renaming goes through a whole tree and keeps everything about its
name tokens but their lexemes.
-/

namespace Scriptlet

/-- A name token with another lexeme. -/
def Token.rename (ρ : String → String) (t : Token) : Token := { t with lexeme := ρ t.lexeme }

theorem Token.rename_of_eq {ρ : String → String} {t : Token} (h : ρ t.lexeme = t.lexeme) :
    t.rename ρ = t := by
  simp only [rename, h]

namespace Expr

/-- The names that occur in an expression. -/
def names : Expr → List String
  | literal _ => []
  | grouping inner => inner.names
  | unary _ right => right.names
  | binary left _ right => left.names ++ right.names
  | read name => [name.lexeme]
  | assign name value => name.lexeme :: value.names

/-- The names that an expression may give another value. -/
def targets : Expr → List String
  | literal _ | read _ => []
  | grouping inner => inner.targets
  | unary _ right => right.targets
  | binary left _ right => left.targets ++ right.targets
  | assign name value => name.lexeme :: value.targets

def rename (ρ : String → String) : Expr → Expr
  | literal value => literal value
  | grouping inner => grouping (inner.rename ρ)
  | unary operator right => unary operator (right.rename ρ)
  | binary left operator right => binary (left.rename ρ) operator (right.rename ρ)
  | read name => read (name.rename ρ)
  | assign name value => assign (name.rename ρ) (value.rename ρ)

theorem rename_id (e : Expr) : e.rename id = e := by
  induction e with
  | literal value => rfl
  | read name => rfl
  | grouping inner ih => rw [rename, ih]
  | unary operator right ih => rw [rename, ih]
  | binary left operator right ihleft ihright => rw [rename, ihleft, ihright]
  | assign name value ih =>
    rw [rename, ih]
    rfl

end Expr

mutual

def Stmt.names : Stmt → List String
  | .expression value | .print value => value.names
  | .declare name none => [name.lexeme]
  | .declare name (some initial) => name.lexeme :: initial.names
  | .block body => Program.names body

def Program.names : List Stmt → List String
  | [] => []
  | statement :: rest => statement.names ++ Program.names rest

end

mutual

/-- The names that are assigned in a statement, at any depth. -/
def Stmt.targets : Stmt → List String
  | .expression value | .print value | .declare _ (some value) => value.targets
  | .declare _ none => []
  | .block body => Program.targets body

def Program.targets : List Stmt → List String
  | [] => []
  | statement :: rest => statement.targets ++ Program.targets rest

end

/-- The name that a statement itself declares; what is declared within a block is local to it. -/
def Stmt.declared : Stmt → List String
  | .declare name _ => [name.lexeme]
  | .expression _ | .print _ | .block _ => []

/-- The names that a program declares outside its blocks. -/
def Program.declared (body : List Stmt) : List String := body.flatMap Stmt.declared

mutual

def Stmt.rename (ρ : String → String) : Stmt → Stmt
  | .expression value => .expression (value.rename ρ)
  | .print value => .print (value.rename ρ)
  | .declare name none => .declare (name.rename ρ) none
  | .declare name (some initial) => .declare (name.rename ρ) (some (initial.rename ρ))
  | .block body => .block (Program.rename ρ body)

def Program.rename (ρ : String → String) : List Stmt → List Stmt
  | [] => []
  | statement :: rest => statement.rename ρ :: Program.rename ρ rest

end

mutual

/-- Renaming nothing changes nothing, which makes runs of one program a case of runs of two. -/
theorem Stmt.rename_id : (s : Stmt) → s.rename id = s
  | .expression value => by rw [Stmt.rename, value.rename_id]
  | .print value => by rw [Stmt.rename, value.rename_id]
  | .declare name none => by
    rw [Stmt.rename]
    rfl
  | .declare name (some initial) => by
    rw [Stmt.rename, initial.rename_id]
    rfl
  | .block body => by rw [Stmt.rename, Program.rename_id body]

theorem Program.rename_id : (body : List Stmt) → Program.rename id body = body
  | [] => rfl
  | statement :: rest => by rw [Program.rename, Stmt.rename_id statement, Program.rename_id rest]

end

end Scriptlet
