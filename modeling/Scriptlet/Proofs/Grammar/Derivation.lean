import Scriptlet.Program

/-!
# The grammar as derivations

What it means for tokens to make up a tree, said without any way of reading them. There is one
constructor for every alternative of the grammar:

    program     → declaration*
    declaration → varDecl | statement
    varDecl     → "var" IDENTIFIER ( "=" expression )? ";"
    statement   → exprStmt | printStmt | block
    block       → "{" declaration* "}"
    exprStmt    → expression ";"
    printStmt   → "print" expression ";"
    expression  → assignment
    assignment  → IDENTIFIER "=" assignment | equality
    equality    → comparison ( ( "!=" | "==" ) comparison )*
    comparison  → term ( ( ">" | ">=" | "<" | "<=" ) term )*
    term        → factor ( ( "-" | "+" ) factor )*
    factor      → unary ( ( "/" | "*" ) unary )*
    unary       → ( "!" | "-" ) unary | primary
    primary     → NUMBER | STRING | IDENTIFIER | "true" | "false" | "nil" | "(" expression ")"

The four rules with a star over operators group to the left: the tokens of a chain are those of a
shorter chain, an operator, and one more operand. They differ only in their operators and in the
symbol of their operands, so they are one rule with a parameter.
-/

namespace Scriptlet.Grammar

/-- The rules that join operands by operators, from the loosest to the tightest. -/
inductive Chain where
  | equality
  | comparison
  | term
  | factor
  deriving DecidableEq, Repr

/-- The symbols that stand for expressions. -/
inductive ExprSymbol where
  | expression
  | assignment
  | chain (rule : Chain)
  | unary
  | primary
  deriving DecidableEq, Repr

/-- The symbols that stand for statements. -/
inductive StmtSymbol where
  | declaration
  | varDecl
  | statement
  | exprStmt
  | printStmt
  | block
  deriving DecidableEq, Repr

namespace Chain

def operators : Chain → List Token.Kind
  | equality => [.bangEqual, .equalEqual]
  | comparison => [.greater, .greaterEqual, .less, .lessEqual]
  | term => [.minus, .plus]
  | factor => [.slash, .star]

def operand : Chain → ExprSymbol
  | equality => .chain comparison
  | comparison => .chain term
  | term => .chain factor
  | factor => .unary

end Chain

/-- Tokens make up an expression of a symbol. -/
inductive DerivesExpr : ExprSymbol → List Token → Expr → Prop
  | expression {ts : List Token} {e : Expr} :
      DerivesExpr .assignment ts e → DerivesExpr .expression ts e
  | assign {name equals : Token} {ts : List Token} {value : Expr} :
      name.kind = .identifier → equals.kind = .equal → DerivesExpr .assignment ts value →
      DerivesExpr .assignment (name :: equals :: ts) (.assign name value)
  | equality {ts : List Token} {e : Expr} :
      DerivesExpr (.chain .equality) ts e → DerivesExpr .assignment ts e
  | operand {rule : Chain} {ts : List Token} {e : Expr} :
      DerivesExpr rule.operand ts e → DerivesExpr (.chain rule) ts e
  | join {rule : Chain} {ts us : List Token} {operator : Token} {left right : Expr} :
      DerivesExpr (.chain rule) ts left → operator.kind ∈ rule.operators →
      DerivesExpr rule.operand us right →
      DerivesExpr (.chain rule) (ts ++ operator :: us) (.binary left operator right)
  | unary {operator : Token} {ts : List Token} {right : Expr} :
      operator.kind = .bang ∨ operator.kind = .minus → DerivesExpr .unary ts right →
      DerivesExpr .unary (operator :: ts) (.unary operator right)
  | primary {ts : List Token} {e : Expr} :
      DerivesExpr .primary ts e → DerivesExpr .unary ts e
  | datum {token : Token} :
      token.kind = .number ∨ token.kind = .string →
      DerivesExpr .primary [token] (.literal token.literal)
  | name {token : Token} :
      token.kind = .identifier → DerivesExpr .primary [token] (.read token)
  | trueWord {token : Token} :
      token.kind = .trueWord → DerivesExpr .primary [token] (.literal (some (.boolean true)))
  | falseWord {token : Token} :
      token.kind = .falseWord → DerivesExpr .primary [token] (.literal (some (.boolean false)))
  | nilWord {token : Token} :
      token.kind = .nilWord → DerivesExpr .primary [token] (.literal none)
  | group {left right : Token} {ts : List Token} {e : Expr} :
      left.kind = .leftParen → DerivesExpr .expression ts e → right.kind = .rightParen →
      DerivesExpr .primary (left :: ts ++ [right]) (.grouping e)

mutual

/-- Tokens make up a statement of a symbol. -/
inductive DerivesStmt : StmtSymbol → List Token → Stmt → Prop
  | varDecl {ts : List Token} {s : Stmt} :
      DerivesStmt .varDecl ts s → DerivesStmt .declaration ts s
  | statement {ts : List Token} {s : Stmt} :
      DerivesStmt .statement ts s → DerivesStmt .declaration ts s
  | declare {word name semicolon : Token} :
      word.kind = .varWord → name.kind = .identifier → semicolon.kind = .semicolon →
      DerivesStmt .varDecl [word, name, semicolon] (.declare name none)
  | declareWith {word name equals semicolon : Token} {ts : List Token} {initial : Expr} :
      word.kind = .varWord → name.kind = .identifier → equals.kind = .equal →
      DerivesExpr .expression ts initial → semicolon.kind = .semicolon →
      DerivesStmt .varDecl (word :: name :: equals :: ts ++ [semicolon])
        (.declare name (some initial))
  | exprStmt {ts : List Token} {s : Stmt} :
      DerivesStmt .exprStmt ts s → DerivesStmt .statement ts s
  | printStmt {ts : List Token} {s : Stmt} :
      DerivesStmt .printStmt ts s → DerivesStmt .statement ts s
  | block {ts : List Token} {s : Stmt} :
      DerivesStmt .block ts s → DerivesStmt .statement ts s
  | expression {ts : List Token} {value : Expr} {semicolon : Token} :
      DerivesExpr .expression ts value → semicolon.kind = .semicolon →
      DerivesStmt .exprStmt (ts ++ [semicolon]) (.expression value)
  | print {word semicolon : Token} {ts : List Token} {value : Expr} :
      word.kind = .printWord → DerivesExpr .expression ts value → semicolon.kind = .semicolon →
      DerivesStmt .printStmt (word :: ts ++ [semicolon]) (.print value)
  | braces {left right : Token} {ts : List Token} {body : List Stmt} :
      left.kind = .leftBrace → DerivesAll ts body → right.kind = .rightBrace →
      DerivesStmt .block (left :: ts ++ [right]) (.block body)

/-- Tokens make up declarations, one after the other. -/
inductive DerivesAll : List Token → List Stmt → Prop
  | nil : DerivesAll [] []
  | cons {ts us : List Token} {s : Stmt} {rest : List Stmt} :
      DerivesStmt .declaration ts s → DerivesAll us rest → DerivesAll (ts ++ us) (s :: rest)

end

/-- Tokens make up a program. -/
def Derives (tokens : List Token) (program : Program) : Prop := DerivesAll tokens program

end Scriptlet.Grammar
