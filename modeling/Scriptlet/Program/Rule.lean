import Scriptlet.Diagnostic
import Scriptlet.Program

/-!
# Rules

A rule reads a phrase from the tokens ahead and leaves the rest. A rule that fails says why and
where, and leaves the tokens where it stopped. Loops take a token each time round and are bounded by
the number of tokens ahead.
-/

namespace Scriptlet

namespace SyntaxFault

/-- What was missing. -/
inductive Cause where
  | variableName
  | semicolonAfterDeclaration
  | semicolonAfterValue
  | semicolonAfterExpression
  | braceAfterBlock
  | parenthesisAfterExpression
  | expression
  | endOfExpression
  | assignmentTarget
  | shallowerNesting
  deriving DecidableEq, Repr

def Cause.message : Cause → String
  | .variableName => "Expect variable name."
  | .semicolonAfterDeclaration => "Expect ';' after variable declaration."
  | .semicolonAfterValue => "Expect ';' after value."
  | .semicolonAfterExpression => "Expect ';' after expression."
  | .braceAfterBlock => "Expect '\x7d' after block."
  | .parenthesisAfterExpression => "Expect ')' after expression."
  | .expression => "Expect expression."
  | .endOfExpression => "Expect end of expression."
  | .assignmentTarget => "Invalid assignment target."
  | .shallowerNesting => Diagnostic.nestedTooDeeply

end SyntaxFault

/-- Why tokens are no program. The site is the token in the way, or `none` where the tokens end. -/
structure SyntaxFault where
  cause : SyntaxFault.Cause
  site : Option Token
  deriving DecidableEq

/-- A syntax fault as a diagnostic, given the mark that ends the tokens. -/
def SyntaxFault.diagnostic (fault : SyntaxFault) (endMark : Token) : Diagnostic :=
  .atToken .parse (fault.site.getD endMark) fault.cause.message

/-- A rule reads from the tokens ahead and leaves the rest, also when it fails. -/
abbrev Rule := EStateM SyntaxFault (List Token)

namespace Rule

variable {α : Type}

/-- Fails at the next token. -/
def fail (cause : SyntaxFault.Cause) : Rule α := fun tokens => .error ⟨cause, tokens.head?⟩ tokens

def next? : Rule (Option Token.Kind) := fun tokens => .ok (tokens.head?.map (·.kind)) tokens

/-- Takes the next token if it is of one of these kinds. -/
def accept? (kinds : List Token.Kind) : Rule (Option Token)
  | [] => .ok none []
  | token :: rest =>
    if kinds.contains token.kind then .ok (some token) rest else .ok none (token :: rest)

/-- Takes the next token, which must be of this kind. -/
def expect (kind : Token.Kind) (cause : SyntaxFault.Cause) : Rule Token := do
  match ← accept? [kind] with
  | some token => pure token
  | none => fail cause

/-- Reads phrases until the tokens end or a token of kind `stop` is next, at most `bound`
phrases. -/
def manyBounded (stop : Token.Kind) (phrase : Rule α) : (bound : Nat) → Rule (List α)
  | 0 => pure []
  | bound + 1 => do
    match ← next? with
    | none => pure []
    | some kind =>
      if kind = stop then pure []
      else
        let first ← phrase
        let rest ← manyBounded stop phrase bound
        pure (first :: rest)

/-- Reads phrases until the tokens end or a token of kind `stop` is next. Every phrase takes at
least one token. -/
def many (stop : Token.Kind) (phrase : Rule α) : Rule (List α) := do
  let tokens ← get
  manyBounded stop phrase tokens.length

/-- Goes on after the operand `left` with operators of these kinds and their right operands,
grouping to the left, at most `bound` times. -/
def chainBounded (operators : List Token.Kind) (operand : Rule Expr) :
    (bound : Nat) → (left : Expr) → Rule Expr
  | 0, left => pure left
  | bound + 1, left => do
    match ← accept? operators with
    | none => pure left
    | some operator =>
      let right ← operand
      chainBounded operators operand bound (.binary left operator right)

/-- Operands joined by operators of these kinds, grouping to the left. -/
def chain (operators : List Token.Kind) (operand : Rule Expr) : Rule Expr := do
  let left ← operand
  let tokens ← get
  chainBounded operators operand tokens.length left

end Rule

end Scriptlet
