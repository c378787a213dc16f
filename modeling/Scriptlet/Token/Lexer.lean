import Scriptlet.Diagnostic
import Scriptlet.Text.Alphanumeric

/-!
# From text to tokens

A text splits into *elements* from left to right, with nothing lost between them: tokens, skipped
text, characters that start nothing, and a string without its closing quote. Every element ends on
the line given by the line feeds up to its own end, so a string is located at its closing quote.
Faults do not stop the scan.
-/

namespace Scriptlet

/-- A stretch of program text. -/
inductive Element where
  /-- A token with the datum it stands for. -/
  | token (kind : Token.Kind) (literal : Value) (text : List Char)
  /-- A blank, a line feed or a comment. -/
  | skipped (text : List Char)
  /-- A character that starts no token. -/
  | unexpected (c : Char)
  /-- A string that the text ends in. -/
  | unterminated (text : List Char)

namespace Element

def text : Element → List Char
  | token _ _ text | skipped text | unterminated text => text
  | unexpected c => [c]

/-- Digits in program text are ASCII digits. -/
def isDigit (c : Char) : Bool := '0' ≤ c && c ≤ '9'

/-- An identifier starts with an ASCII letter or an underscore. -/
def isIdentifierStart (c : Char) : Bool :=
  ('a' ≤ c && c ≤ 'z') || ('A' ≤ c && c ≤ 'Z') || c == '_'

/-- An identifier goes on with letters and numbers of any script, and underscores. -/
def isIdentifierPart (c : Char) : Bool := Text.isAlphanumeric c || c == '_'

/-- Blanks within a line. -/
def isSpace (c : Char) : Bool := c == ' ' || c == '\t' || c == '\r'

/-- Tokens that are one character and never start a longer one. -/
def single? : Char → Option Token.Kind
  | '(' => some .leftParen
  | ')' => some .rightParen
  | '\x7b' => some .leftBrace
  | '\x7d' => some .rightBrace
  | ',' => some .comma
  | '.' => some .dot
  | '-' => some .minus
  | '+' => some .plus
  | ';' => some .semicolon
  | '*' => some .star
  | _ => none

/-- Tokens that an equals sign may follow: the kind with it, and the kind alone. -/
def equalable? : Char → Option (Token.Kind × Token.Kind)
  | '!' => some (.bangEqual, .bang)
  | '=' => some (.equalEqual, .equal)
  | '<' => some (.lessEqual, .less)
  | '>' => some (.greaterEqual, .greater)
  | _ => none

/-- A string whose opening quote has been read. It ends at the next quote. -/
def stringFrom (rest : List Char) : Element :=
  let body := rest.takeWhile (· != '"')
  if body.length < rest.length then
    token .string (some (.string (String.ofList body))) ('"' :: (body ++ ['"']))
  else unterminated ('"' :: rest)

/-- The digits after a point, if a digit follows the point at once. -/
def fractionOf : List Char → List Char
  | '.' :: rest => rest.takeWhile isDigit
  | _ => []

/-- The datum of a number written with these digits before and after its point. -/
def numberOf (whole fraction : List Char) : Datum :=
  .number (Binary64.ofMagnitude (Decimal.ofDigits whole fraction).magnitude)

/-- A number that starts with the digit `c`. -/
def numberFrom (c : Char) (rest : List Char) : Element :=
  let whole := c :: rest.takeWhile isDigit
  let fraction := fractionOf (rest.dropWhile isDigit)
  let point := if fraction.isEmpty then [] else ['.']
  token .number (some (numberOf whole fraction)) (whole ++ point ++ fraction)

/-- A word that starts with `c`. -/
def wordFrom (c : Char) (rest : List Char) : Element :=
  let word := c :: rest.takeWhile isIdentifierPart
  token (Token.wordKind (String.ofList word)) none word

/-- The element that a text starting with `c` begins with. -/
def first (c : Char) (rest : List Char) : Element :=
  match single? c, equalable? c with
  | some kind, _ => token kind none [c]
  | none, some (longer, alone) =>
    if rest.head? = some '=' then token longer none [c, '='] else token alone none [c]
  | none, none =>
    if c = '/' then
      if rest.head? = some '/' then skipped (c :: rest.takeWhile (· != '\n'))
      else token .slash none [c]
    else if isSpace c ∨ c = '\n' then skipped [c]
    else if c = '"' then stringFrom rest
    else if isDigit c then numberFrom c rest
    else if isIdentifierStart c then wordFrom c rest
    else unexpected c

/-- No element is empty. -/
theorem length_text_first_pos (c : Char) (rest : List Char) : 0 < (first c rest).text.length := by
  grind [first, text, stringFrom, numberFrom, wordFrom]

/-- The elements of a text. -/
def split : List Char → List Element
  | [] => []
  | c :: rest =>
    let element := first c rest
    element :: split ((c :: rest).drop element.text.length)
termination_by text => text.length
decreasing_by
  have := length_text_first_pos c rest
  simp only [List.length_drop, List.length_cons]
  omega

end Element

/-- Something wrong in a text, on a line. -/
inductive LexicalFault where
  | unexpectedCharacter (c : Char) (line : Nat)
  | unterminatedString (line : Nat)
  deriving DecidableEq, Repr

/-- A lexical fault as a diagnostic. Only an unexpected character is quoted. -/
def LexicalFault.diagnostic : LexicalFault → Diagnostic
  | unexpectedCharacter c line =>
    { kind := .scan, message := "Unexpected character.", line, lexeme := some (String.singleton c) }
  | unterminatedString line => { kind := .scan, message := "Unterminated string.", line }

/-- What scanning a text gives: its tokens, closed by an end mark, and its faults. -/
structure Scan where
  tokens : List Token
  faults : List LexicalFault := []

namespace Scan

/-- Gives each element its line, from the line on which the elements start. -/
def ofElements : (line : Nat) → List Element → Scan
  | line, [] => { tokens := [Token.endAt line] }
  | line, element :: elements =>
    let line := line + element.text.count '\n'
    let scan := ofElements line elements
    match element with
    | .token kind literal text =>
      { scan with tokens := { kind, lexeme := String.ofList text, literal, line } :: scan.tokens }
    | .skipped _ => scan
    | .unexpected c => { scan with faults := .unexpectedCharacter c line :: scan.faults }
    | .unterminated _ => { scan with faults := .unterminatedString line :: scan.faults }

/-- Scans a text. -/
def ofText (source : String) : Scan := ofElements 1 (Element.split source.toList)

/-- The faults as diagnostics, in the order of the text. -/
def diagnostics (scan : Scan) : List Diagnostic := scan.faults.map LexicalFault.diagnostic

end Scan

end Scriptlet
