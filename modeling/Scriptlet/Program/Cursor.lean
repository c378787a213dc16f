import Scriptlet.Program.Grammar

/-!
# Reading with a cursor

The grammar once more, over tokens that stay where they are while a cursor moves through them. Here
the rules can be called one by one, in any order and also after a call has failed: the cursor stands
where the last call left it.

A token is looked up by its position, and a position without a token halts the call, as does a loop
that goes round more often than there are tokens.
-/

namespace Scriptlet

/-- Tokens and how many of them have been taken. -/
structure Cursor where
  tokens : Array Token
  current : Nat

namespace Cursor

/-- The tokens with an end mark after them, unless the last of them is one. The mark is on the last
token's line. -/
def close (tokens : List Token) : List Token :=
  if tokens.getLast?.any (·.kind == .eof) then tokens
  else tokens ++ [.endAt ((tokens.getLast?.map (·.line)).getD 1)]

/-- Before the first of the tokens. -/
def start (tokens : List Token) : Cursor := { tokens := (close tokens).toArray, current := 0 }

/-- Why a call comes to no phrase. -/
inductive Halt where
  /-- The token is not the one that the rule asks for. -/
  | fault (cause : SyntaxFault.Cause) (token : Token)
  /-- No level is left to open. -/
  | exhausted
  /-- There is no token at the position. -/
  | outside (position : Int)
  /-- A loop goes on after as many turns as there are tokens. -/
  | endless
  deriving DecidableEq

/-- Reading moves the cursor, also when it halts. -/
abbrev Reader := EStateM Halt Cursor

/-! ## Looking at tokens and taking them -/

/-- The token at a position. -/
def look (position : Int) : Reader Token := fun c =>
  match if position < 0 then none else c.tokens[position.toNat]? with
  | some token => .ok token c
  | none => .error (.outside position) c

def peek : Reader Token := do look (← get).current

def previous : Reader Token := do look ((← get).current - 1)

/-- Whether an end mark is next. -/
def atEnd : Reader Bool := do return (← peek).kind == .eof

/-- Whether a token of this kind is next. An end mark never counts. -/
def check (kind : Token.Kind) : Reader Bool := do
  if ← atEnd then return false
  return (← peek).kind == kind

/-- Takes the next token. An end mark stays, and the token before it is given again. -/
def advance : Reader Token := do
  unless ← atEnd do modify fun c => { c with current := c.current + 1 }
  previous

/-- Takes the next token if it is of one of these kinds. -/
def accept? : (kinds : List Token.Kind) → Reader (Option Token)
  | [] => pure none
  | kind :: kinds => do
    if ← check kind then return some (← advance)
    accept? kinds

/-- Halts at the next token. -/
def fail {α : Type} (cause : SyntaxFault.Cause) : Reader α := do throw (.fault cause (← peek))

/-- Takes the next token, which must be of this kind. -/
def expect (kind : Token.Kind) (cause : SyntaxFault.Cause) : Reader Token := do
  if ← check kind then advance else fail cause

/-! ## Loops -/

/-- Reads phrases until `stops`, at most as many as there are `turns`. -/
def manyWithin {α : Type} (stops : Reader Bool) (phrase : Reader α) :
    (turns : Nat) → Reader (List α)
  | 0 => do if ← stops then pure [] else throw .endless
  | turns + 1 => do
    if ← stops then pure []
    else
      let first ← phrase
      let rest ← manyWithin stops phrase turns
      pure (first :: rest)

/-- Reads phrases until `stops`. -/
def many {α : Type} (stops : Reader Bool) (phrase : Reader α) : Reader (List α) := do
  manyWithin stops phrase (← get).tokens.size

/-- Goes on after the operand `left` with operators of these kinds and their right operands,
grouping to the left, at most as often as there are `turns`. -/
def chainWithin (operators : List Token.Kind) (operand : Reader Expr) :
    (turns : Nat) → (left : Expr) → Reader Expr
  | 0, left => do
    match ← accept? operators with
    | none => pure left
    | some _ => throw .endless
  | turns + 1, left => do
    match ← accept? operators with
    | none => pure left
    | some operator =>
      let right ← operand
      chainWithin operators operand turns (.binary left operator right)

/-- Operands joined by operators of these kinds, grouping to the left. -/
def chain (operators : List Token.Kind) (operand : Reader Expr) : Reader Expr := do
  let left ← operand
  chainWithin operators operand (← get).tokens.size left

/-! ## The rules -/

open Grammar

/-- Reads what a rule asks for, with as many levels as it may open. -/
def call : (levels : Nat) → (name : Name) → Reader name.Phrase
  | 0, _ => throw .exhausted
  | levels + 1, .program => many atEnd (call levels .declaration)
  | levels + 1, .singleExpression => do
    let value ← call levels .expression
    if ← atEnd then pure value else fail .endOfExpression
  | levels + 1, .declaration => do
    match ← accept? [.varWord] with
    | some _ => call levels .varDeclaration
    | none => call levels .statement
  | levels + 1, .varDeclaration => do
    let name ← expect .identifier .variableName
    match ← accept? [.equal] with
    | none =>
      let _ ← expect .semicolon .semicolonAfterDeclaration
      pure (.declare name none)
    | some _ =>
      let initial ← call levels .expression
      let _ ← expect .semicolon .semicolonAfterDeclaration
      pure (.declare name (some initial))
  | levels + 1, .statement => do
    match ← accept? [.printWord, .leftBrace] with
    | none => call levels .expressionStatement
    | some token =>
      if token.kind = .printWord then call levels .printStatement
      else
        let body ← call levels .block
        pure (.block body)
  | levels + 1, .printStatement => do
    let value ← call levels .expression
    let _ ← expect .semicolon .semicolonAfterValue
    pure (.print value)
  | levels + 1, .expressionStatement => do
    let value ← call levels .expression
    let _ ← expect .semicolon .semicolonAfterExpression
    pure (.expression value)
  | levels + 1, .block => do
    let closes : Reader Bool := do if ← check .rightBrace then pure true else atEnd
    let body ← many closes (call levels .declaration)
    let _ ← expect .rightBrace .braceAfterBlock
    pure body
  | levels + 1, .expression => call levels .assignment
  | levels + 1, .assignment => do
    let left ← call levels .equality
    match ← accept? [.equal] with
    | none => pure left
    | some equals =>
      let value ← call levels .assignment
      match left with
      | .read name => pure (.assign name value)
      | _ => throw (.fault .assignmentTarget equals)
  | 1, .equality | 1, .comparison | 1, .term | 1, .factor => throw .exhausted
  | levels + 2, .equality => chain equalityOperators (call levels .comparison)
  | levels + 2, .comparison => chain comparisonOperators (call levels .term)
  | levels + 2, .term => chain termOperators (call levels .factor)
  | levels + 2, .factor => chain factorOperators (call levels .unary)
  | levels + 1, .unary => do
    match ← accept? unaryOperators with
    | some operator =>
      let right ← call levels .unary
      pure (.unary operator right)
    | none => call levels .primary
  | levels + 1, .primary => do
    match ← accept? primaryStarts with
    | none => fail .expression
    | some token =>
      match token.kind with
      | .falseWord => pure (.literal (some (.boolean false)))
      | .trueWord => pure (.literal (some (.boolean true)))
      | .nilWord => pure (.literal none)
      | .identifier => pure (.read token)
      | .leftParen =>
        let inner ← call levels .expression
        let _ ← expect .rightParen .parenthesisAfterExpression
        pure (.grouping inner)
      | _ => pure (.literal token.literal)

/-- Where a call leaves the cursor, whether it reads a phrase or halts. -/
def after (c : Cursor) (levels : Nat) (name : Name) : Cursor :=
  match call levels name c with
  | .ok _ c => c
  | .error _ c => c

/-- Where calls leave the cursor, made one after the other. -/
def afterAll (c : Cursor) (calls : List (Nat × Name)) : Cursor :=
  calls.foldl (fun c (levels, name) => c.after levels name) c

end Cursor

end Scriptlet
