import Scriptlet.Program.Grammar
import Scriptlet.Token.Lexer

/-!
# Reading programs

Tokens are read up to their end mark, and a text that has lexical faults is not read at all.
-/

namespace Scriptlet

namespace Token

/-- The tokens that are read: those before the first end mark. -/
def body (tokens : List Token) : List Token := tokens.takeWhile (·.kind != .eof)

/-- The mark that ends the tokens: the first one among them, or else one on the last token's
line. -/
def endMark (tokens : List Token) : Token :=
  (tokens.find? (·.kind == .eof)).getD (endAt ((tokens.getLast?.map (·.line)).getD 1))

end Token

namespace Grammar

/-- Reads all tokens by a rule, with as many levels as reading may open. -/
def read {α : Type} (rule : Nat → Rule α) (tokens : List Token) : Except Diagnostic α :=
  match rule Nesting.reading (Token.body tokens) with
  | .ok value _ => .ok value
  | .error fault _ => .error (fault.diagnostic (Token.endMark tokens))

/-- Reads a text by a rule. Of several lexical faults the first counts. -/
def readText {α : Type} (rule : Nat → Rule α) (source : String) : Except Diagnostic α :=
  let scan := Scan.ofText source
  match scan.diagnostics with
  | [] => read rule scan.tokens
  | first :: _ => .error first

end Grammar

/-- The program that tokens make up. -/
def Program.ofTokens (tokens : List Token) : Except Diagnostic Program :=
  Grammar.read Grammar.program tokens

def Program.ofText (source : String) : Except Diagnostic Program :=
  Grammar.readText Grammar.program source

/-- Reads a program from a text; what is wrong is every lexical fault, or else the syntax fault. -/
def Program.diagnose (source : String) : Except (List Diagnostic) Program :=
  let scan := Scan.ofText source
  match scan.diagnostics with
  | [] => (Program.ofTokens scan.tokens).mapError fun fault => [fault]
  | faults => .error faults

/-- The single expression of a text. -/
def Expr.ofText (source : String) : Except Diagnostic Expr :=
  Grammar.readText Grammar.singleExpression source

end Scriptlet
