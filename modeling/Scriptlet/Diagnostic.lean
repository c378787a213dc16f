import Scriptlet.Token

/-!
# Diagnostics

A diagnostic says what is wrong and where: at a line, and perhaps at a lexeme on that line or at
the end of the text.
-/

namespace Scriptlet

namespace Diagnostic

/-- The stage that found something wrong. -/
inductive Kind where
  | general
  | scan
  | parse
  | runtime
  deriving DecidableEq, Repr

/-- The name of a stage's errors. -/
def Kind.label : Kind → String
  | .general => "Error"
  | .scan => "ScanError"
  | .parse => "ParseError"
  | .runtime => "RuntimeError"

end Diagnostic

/-- What is wrong, and where. Line 0 stands for no line at all. -/
structure Diagnostic where
  kind : Diagnostic.Kind
  message : String
  line : Int := 0
  lexeme : Option String := none
  atEnd : Bool := false
  deriving DecidableEq, Repr

namespace Diagnostic

def atToken (kind : Kind) (token : Token) (message : String) : Diagnostic where
  kind := kind
  message := message
  line := token.line
  lexeme := some token.lexeme
  atEnd := token.kind = .eof

/-- The place within the line. The end of the text comes before any lexeme. -/
def place (d : Diagnostic) : String :=
  if d.atEnd then " at end"
  else (d.lexeme.map fun lexeme => " at '" ++ lexeme ++ "'").getD ""

/-- A diagnostic in one line. -/
def text (d : Diagnostic) : String :=
  "[line " ++ toString d.line ++ "] " ++ d.kind.label ++ d.place ++ ": " ++ d.message

/-- Nesting beyond what can be handled has one wording in every stage. -/
def nestedTooDeeply : String := "Expression nested too deeply."

end Diagnostic

end Scriptlet
