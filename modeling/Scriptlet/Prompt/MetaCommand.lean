import Scriptlet.Text.Alphanumeric
import Scriptlet.Text.Ranges
import Scriptlet.Text.Lines

/-!
# Meta commands

A typed line that starts with a colon is a command to the prompt and not program text. A command
is one of four words; what follows it on its line is its argument. Tabs are columns of eight before
the command is looked at.
-/

namespace Scriptlet

namespace MetaCommand

/-- What a command asks for. -/
inductive Name where
  | tokens
  | ast
  | env
  | help
  | unknown
  deriving DecidableEq, Repr

def Name.word : Name → String
  | .tokens => "tokens"
  | .ast => "ast"
  | .env => "env"
  | .help => "help"
  | .unknown => "unknown"

/-- The commands that can be typed. -/
def Name.known : List Name := [.tokens, .ast, .env, .help]

end MetaCommand

/-- A command with its argument. An unknown command's argument is the whole line. -/
structure MetaCommand where
  name : MetaCommand.Name
  argument : String
  deriving DecidableEq, Repr

namespace MetaCommand

/-- What may stand between the parts of a command. -/
def isGap (c : Char) : Bool := c == ' ' || c == '\n' || c == '\r' || c == '\t'

/-- What would make a command's word longer. -/
def isWordPart (c : Char) : Bool := Text.isAlphanumeric c || c == '_'

/-- The rest of a text after a word, which must end there. -/
def afterWord? (word text : List Char) : Option (List Char) :=
  if word.isPrefixOf text then
    let rest := text.drop word.length
    if rest.head?.any isWordPart then none else some rest
  else none

/-- The command at the start of a text, with the rest after its word. -/
def find? (text : List Char) : Option (Name × List Char) :=
  Name.known.findSome? fun name => (afterWord? name.word.toList text).map (name, ·)

/-- The command in a stripped line that starts with a colon. After the argument's line there may be
nothing but gaps. -/
def parse? (line : List Char) : Option MetaCommand := do
  let text := (Text.expandTabs 8 0 line).drop 1
  let (name, rest) ← find? (text.dropWhile isGap)
  let argument := rest.takeWhile (· != '\n')
  if (rest.dropWhile (· != '\n')).all isGap then
    some { name, argument := String.ofList (Text.strip argument) }
  else none

/-- The command of a typed line; `none` if the line is program text. -/
def ofLine? (line : String) : Option MetaCommand :=
  let text := Text.strip line.toList
  if text.head? = some ':' then
    some ((parse? text).getD { name := .unknown, argument := String.ofList text })
  else none

end MetaCommand

end Scriptlet
