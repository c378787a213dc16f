import Scriptlet.Nesting
import Scriptlet.Program.Rule

/-!
# From tokens to programs

The grammar, a rule a line; a star repeats, a question mark makes optional:

    program             → declaration* end
    declaration         → "var" varDeclaration | statement
    varDeclaration      → IDENTIFIER ( "=" expression )? ";"
    statement           → "print" printStatement | "{" block | expressionStatement
    printStatement      → expression ";"
    expressionStatement → expression ";"
    block               → declaration* "}"
    expression          → assignment
    assignment          → IDENTIFIER "=" assignment | equality
    equality            → comparison ( ( "!=" | "==" ) comparison )*
    comparison          → term ( ( ">" | ">=" | "<" | "<=" ) term )*
    term                → factor ( ( "-" | "+" ) factor )*
    factor              → unary ( ( "/" | "*" ) unary )*
    unary               → ( "!" | "-" ) unary | primary
    primary             → NUMBER | STRING | IDENTIFIER | "true" | "false" | "nil"
                        | "(" expression ")"

Each rule takes the number of levels that may still be opened, and a rule opened by another has one
level less, so reading ends whatever the tokens are.
-/

namespace Scriptlet

namespace Grammar

open Rule

def equalityOperators : List Token.Kind := [.bangEqual, .equalEqual]

def comparisonOperators : List Token.Kind := [.greater, .greaterEqual, .less, .lessEqual]

/-- The operators of a sum. -/
def termOperators : List Token.Kind := [.minus, .plus]

/-- The operators of a product. -/
def factorOperators : List Token.Kind := [.slash, .star]

/-- The operators before an operand. -/
def unaryOperators : List Token.Kind := [.bang, .minus]

/-- The tokens that start an operand. -/
def primaryStarts : List Token.Kind :=
  [.falseWord, .trueWord, .nilWord, .number, .string, .identifier, .leftParen]

/-- No level is left to open. -/
def exhausted {α : Type} : Rule α := fail .shallowerNesting

mutual

def expression : (levels : Nat) → Rule Expr
  | 0 => exhausted
  | levels + 1 => assignment levels

/-- An assignment is read as an equality first; the equals sign after it then asks for a lone name
before it. -/
def assignment : (levels : Nat) → Rule Expr
  | 0 => exhausted
  | levels + 1 => do
    let left ← equality levels
    match ← accept? [.equal] with
    | none => pure left
    | some equals =>
      let value ← assignment levels
      match left with
      | .read name => pure (.assign name value)
      | _ => throw ⟨.assignmentTarget, some equals⟩

def equality : (levels : Nat) → Rule Expr
  | 0 | 1 => exhausted
  | levels + 2 => chain equalityOperators (comparison levels)

def comparison : (levels : Nat) → Rule Expr
  | 0 | 1 => exhausted
  | levels + 2 => chain comparisonOperators (term levels)

def term : (levels : Nat) → Rule Expr
  | 0 | 1 => exhausted
  | levels + 2 => chain termOperators (factor levels)

def factor : (levels : Nat) → Rule Expr
  | 0 | 1 => exhausted
  | levels + 2 => chain factorOperators (unary levels)

def unary : (levels : Nat) → Rule Expr
  | 0 => exhausted
  | levels + 1 => do
    match ← accept? unaryOperators with
    | some operator =>
      let right ← unary levels
      pure (.unary operator right)
    | none => primary levels

def primary : (levels : Nat) → Rule Expr
  | 0 => exhausted
  | levels + 1 => do
    match ← accept? primaryStarts with
    | none => fail .expression
    | some token =>
      match token.kind with
      | .falseWord => pure (.literal (some (.boolean false)))
      | .trueWord => pure (.literal (some (.boolean true)))
      | .nilWord => pure (.literal none)
      | .identifier => pure (.read token)
      | .leftParen =>
        let inner ← expression levels
        let _ ← expect .rightParen .parenthesisAfterExpression
        pure (.grouping inner)
      | _ => pure (.literal token.literal)

end

def printStatement : (levels : Nat) → Rule Stmt
  | 0 => exhausted
  | levels + 1 => do
    let value ← expression levels
    let _ ← expect .semicolon .semicolonAfterValue
    pure (.print value)

def expressionStatement : (levels : Nat) → Rule Stmt
  | 0 => exhausted
  | levels + 1 => do
    let value ← expression levels
    let _ ← expect .semicolon .semicolonAfterExpression
    pure (.expression value)

/-- What follows `var`. -/
def varDeclaration : (levels : Nat) → Rule Stmt
  | 0 => exhausted
  | levels + 1 => do
    let name ← expect .identifier .variableName
    match ← accept? [.equal] with
    | none =>
      let _ ← expect .semicolon .semicolonAfterDeclaration
      pure (.declare name none)
    | some _ =>
      let initial ← expression levels
      let _ ← expect .semicolon .semicolonAfterDeclaration
      pure (.declare name (some initial))

mutual

def declaration : (levels : Nat) → Rule Stmt
  | 0 => exhausted
  | levels + 1 => do
    match ← accept? [.varWord] with
    | some _ => varDeclaration levels
    | none => statement levels

def statement : (levels : Nat) → Rule Stmt
  | 0 => exhausted
  | levels + 1 => do
    match ← accept? [.printWord, .leftBrace] with
    | none => expressionStatement levels
    | some token =>
      if token.kind = .printWord then printStatement levels
      else
        let body ← block levels
        pure (.block body)

/-- What follows an opening brace. -/
def block : (levels : Nat) → Rule (List Stmt)
  | 0 => exhausted
  | levels + 1 => do
    let body ← many .rightBrace (declaration levels)
    let _ ← expect .rightBrace .braceAfterBlock
    pure body

end

def program : (levels : Nat) → Rule Program
  | 0 => exhausted
  | levels + 1 => many .eof (declaration levels)

/-- One expression and nothing after it. -/
def singleExpression : (levels : Nat) → Rule Expr
  | 0 => exhausted
  | levels + 1 => do
    let value ← expression levels
    match ← next? with
    | none => pure value
    | some _ => fail .endOfExpression

inductive Name where
  | program | singleExpression
  | declaration | varDeclaration | statement | printStatement | expressionStatement | block
  | expression | assignment | equality | comparison | term | factor | unary | primary
  deriving DecidableEq, Repr

/-- What a rule reads. -/
abbrev Name.Phrase : Name → Type
  | .program | .block => List Stmt
  | .declaration | .varDeclaration | .statement | .printStatement | .expressionStatement => Stmt
  | .singleExpression | .expression | .assignment | .equality | .comparison | .term | .factor
  | .unary | .primary => Expr

def Name.rule (levels : Nat) : (name : Name) → Rule name.Phrase
  | .program => Grammar.program levels
  | .singleExpression => Grammar.singleExpression levels
  | .declaration => Grammar.declaration levels
  | .varDeclaration => Grammar.varDeclaration levels
  | .statement => Grammar.statement levels
  | .printStatement => Grammar.printStatement levels
  | .expressionStatement => Grammar.expressionStatement levels
  | .block => Grammar.block levels
  | .expression => Grammar.expression levels
  | .assignment => Grammar.assignment levels
  | .equality => Grammar.equality levels
  | .comparison => Grammar.comparison levels
  | .term => Grammar.term levels
  | .factor => Grammar.factor levels
  | .unary => Grammar.unary levels
  | .primary => Grammar.primary levels

end Grammar

end Scriptlet
