import Scriptlet.Value
import Scriptlet.Text.Lines

/-!
# Tokens

A token has a kind, the text it was written as, the line it ends on, and for strings and numbers
the datum it stands for.
-/

namespace Scriptlet

namespace Token

/-- The kinds of token. -/
inductive Kind where
  | leftParen | rightParen | leftBrace | rightBrace
  | comma | dot | minus | plus | semicolon | slash | star
  | bang | bangEqual | equal | equalEqual | greater | greaterEqual | less | lessEqual
  | identifier | string | number
  | andWord | classWord | elseWord | falseWord | funWord | forWord | ifWord | nilWord | orWord
  | printWord | returnWord | superWord | thisWord | trueWord | varWord | whileWord
  | eof
  deriving DecidableEq, Repr

/-- The name of a kind in listings. -/
def Kind.name : Kind → String
  | .leftParen => "LEFT_PAREN"
  | .rightParen => "RIGHT_PAREN"
  | .leftBrace => "LEFT_BRACE"
  | .rightBrace => "RIGHT_BRACE"
  | .comma => "COMMA"
  | .dot => "DOT"
  | .minus => "MINUS"
  | .plus => "PLUS"
  | .semicolon => "SEMICOLON"
  | .slash => "SLASH"
  | .star => "STAR"
  | .bang => "BANG"
  | .bangEqual => "BANG_EQUAL"
  | .equal => "EQUAL"
  | .equalEqual => "EQUAL_EQUAL"
  | .greater => "GREATER"
  | .greaterEqual => "GREATER_EQUAL"
  | .less => "LESS"
  | .lessEqual => "LESS_EQUAL"
  | .identifier => "IDENTIFIER"
  | .string => "STRING"
  | .number => "NUMBER"
  | .andWord => "AND"
  | .classWord => "CLASS"
  | .elseWord => "ELSE"
  | .falseWord => "FALSE"
  | .funWord => "FUN"
  | .forWord => "FOR"
  | .ifWord => "IF"
  | .nilWord => "NIL"
  | .orWord => "OR"
  | .printWord => "PRINT"
  | .returnWord => "RETURN"
  | .superWord => "SUPER"
  | .thisWord => "THIS"
  | .trueWord => "TRUE"
  | .varWord => "VAR"
  | .whileWord => "WHILE"
  | .eof => "EOF"

/-- Every kind, in the order of declaration. -/
def Kind.all : List Kind :=
  [.leftParen, .rightParen, .leftBrace, .rightBrace, .comma, .dot, .minus, .plus, .semicolon,
    .slash, .star, .bang, .bangEqual, .equal, .equalEqual, .greater, .greaterEqual, .less,
    .lessEqual, .identifier, .string, .number, .andWord, .classWord, .elseWord, .falseWord,
    .funWord, .forWord, .ifWord, .nilWord, .orWord, .printWord, .returnWord, .superWord, .thisWord,
    .trueWord, .varWord, .whileWord, .eof]

def Kind.ofName? (name : String) : Option Kind := Kind.all.find? (·.name == name)

/-- The words that are not identifiers, in alphabetical order. -/
def keywords : List (String × Kind) :=
  [("and", .andWord), ("class", .classWord), ("else", .elseWord), ("false", .falseWord),
    ("for", .forWord), ("fun", .funWord), ("if", .ifWord), ("nil", .nilWord), ("or", .orWord),
    ("print", .printWord), ("return", .returnWord), ("super", .superWord), ("this", .thisWord),
    ("true", .trueWord), ("var", .varWord), ("while", .whileWord)]

/-- The kind of a word: its keyword's, or identifier. -/
def wordKind (word : String) : Kind := (keywords.lookup word).getD .identifier

end Token

/-- A token with the line it ends on. -/
structure Token where
  kind : Token.Kind
  lexeme : String
  literal : Value := none
  line : Int := 1
  deriving DecidableEq

namespace Token

/-- The mark after the last token. -/
def endAt (line : Int) : Token := { kind := .eof, lexeme := "", line }

/-- One token in a listing: its kind, its text, and what it stands for. -/
def describe (t : Token) : String :=
  t.kind.name ++ "(" ++ t.lexeme ++ ")" ++
    (t.literal.map fun d => " = " ++ d.describe).getD ""

/-- A listing has one token a line, after the token's own line flush right in four columns. -/
def listing (tokens : List Token) : String :=
  "\n".intercalate (tokens.map fun t => Text.flushRight 4 (toString t.line) ++ "  " ++ t.describe)

end Token

end Scriptlet
