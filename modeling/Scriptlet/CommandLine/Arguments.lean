import Scriptlet.Text.Quoted

/-!
# Arguments of the command line

Arguments are flags and one script. A long flag may be cut short as long as only one flag starts
that way, short flags may share a dash, and `--` ends the flags. What starts with a dash and is no
flag is still taken for a script if it looks like a negative number or holds a space. Flags act in
the order in which they stand, and what is left over is complained about at the end.
-/

namespace Scriptlet

inductive Flag where
  | help
  | interactive
  | tokens
  | parse
  | debug
  | version
  deriving DecidableEq, Repr

namespace Flag

/-- Every spelling of every flag. -/
def spellings : List (String × Flag) :=
  [("-h", help), ("--help", help), ("-i", interactive), ("--interactive", interactive),
    ("--tokens", tokens), ("--parse", parse), ("--debug", debug), ("--version", version)]

/-- All spellings of one flag, as messages give them. -/
def title (flag : Flag) : String :=
  "/".intercalate ((spellings.filter (·.2 = flag)).map (·.1))

end Flag

namespace Arguments

/-- What is wrong with arguments. -/
inductive Fault where
  | ambiguous (word : String) (matching : List String)
  | needlessValue (flag : Flag) (value : String)
  | unrecognized (words : List String)
  deriving DecidableEq, Repr

def Fault.message : Fault → String
  | .ambiguous word matching =>
    "ambiguous option: " ++ word ++ " could match " ++ ", ".intercalate matching
  | .needlessValue flag value =>
    "argument " ++ flag.title ++ ": ignored explicit argument " ++ Text.quoted value
  | .unrecognized words => "unrecognized arguments: " ++ " ".intercalate words

/-- What an argument is taken for. -/
inductive Word where
  /-- A script, or one too many. -/
  | script (word : String)
  /-- The end of the flags. -/
  | separator
  /-- A flag, with what is attached to it. A long flag takes no companions. -/
  | flag (flag : Flag) (long : Bool) (attached : Option (List Char))
  /-- No flag, though it looks like one. -/
  | stray (word : String)
  deriving DecidableEq, Repr

/-- A dash with digits after it, and perhaps a point before the last of them. A line feed may end
it. -/
def isNegativeNumber (word : List Char) : Bool :=
  match word with
  | '-' :: rest =>
    let rest := if rest.getLast? = some '\n' then rest.dropLast else rest
    let whole := rest.takeWhile Text.isDecimalDigit
    match rest.dropWhile Text.isDecimalDigit with
    | [] => !whole.isEmpty
    | '.' :: fraction => !fraction.isEmpty && fraction.all Text.isDecimalDigit
    | _ => false
  | _ => false

def isLong (spelling : List Char) : Bool := ['-', '-'].isPrefixOf spelling

/-- The flags that a word may be short for, with their spelling and what is attached. -/
def interpretations (word : List Char) : List (String × Word) :=
  if isLong word then
    let stem := word.takeWhile (· != '=')
    let attached := if word.contains '=' then some (word.drop (stem.length + 1)) else none
    (Flag.spellings.filter fun (spelling, _) => stem.isPrefixOf spelling.toList).map
      fun (spelling, flag) => (spelling, .flag flag true attached)
  else
    (Flag.spellings.filter fun (spelling, _) => spelling.toList = word.take 2).map
      fun (spelling, flag) => (spelling, .flag flag false (some (word.drop 2)))

/-- What a word before the separator is taken for. -/
def classify (argument : String) : Except Fault Word :=
  let word := argument.toList
  let stem := word.takeWhile (· != '=')
  if word.head? ≠ some '-' then .ok (.script argument)
  else
    match Flag.spellings.lookup argument, Flag.spellings.lookup (String.ofList stem) with
    | some flag, _ => .ok (.flag flag (isLong word) none)
    | none, some flag => .ok (.flag flag (isLong stem) (some (word.drop (stem.length + 1))))
    | none, none =>
      if word = ['-'] then .ok (.script argument)
      else
        match interpretations word with
        | [(_, flag)] => .ok flag
        | [] =>
          if isNegativeNumber word || word.contains ' ' then .ok (.script argument)
          else .ok (.stray argument)
        | many => .error (.ambiguous argument (many.map (·.1)))

/-- What the words of a command line are taken for. -/
def classifyAll : List String → Except Fault (List Word)
  | [] => .ok []
  | "--" :: rest => .ok (.separator :: rest.map .script)
  | word :: rest => do
    let first ← classify word
    let others ← classifyAll rest
    pure (first :: others)

/-- The flags that share a dash with `flag`, which itself comes first. -/
def companions (flag : Flag) : (attached : List Char) → Except Fault (List Flag)
  | [] => .ok [flag]
  | c :: rest =>
    match Flag.spellings.lookup (String.ofList ['-', c]) with
    | some other => (companions other rest).map (flag :: ·)
    | none => .error (.needlessValue flag (String.ofList (c :: rest)))

/-- The flags of one word. Only a short flag may have something attached, which must not be
empty. -/
def flagsOf (flag : Flag) (long : Bool) : (attached : Option (List Char)) →
    Except Fault (List Flag)
  | none => .ok [flag]
  | some attached =>
    if long || attached.isEmpty then .error (.needlessValue flag (String.ofList attached))
    else companions flag attached

/-- What a command line asks for. -/
structure Options where
  interactive : Bool := false
  tokens : Bool := false
  parse : Bool := false
  debug : Bool := false
  script : Option String := none
  deriving DecidableEq, Repr

/-- What a command line comes to. -/
inductive Request where
  | help
  | version
  | invalid (fault : Fault)
  | proceed (options : Options)
  deriving DecidableEq, Repr

/-- Lets flags act in turn. Help and version end everything else. -/
def act (options : Options) : List Flag → Except Request Options
  | [] => .ok options
  | .help :: _ => .error .help
  | .version :: _ => .error .version
  | .interactive :: rest => act { options with interactive := true } rest
  | .tokens :: rest => act { options with tokens := true } rest
  | .parse :: rest => act { options with parse := true } rest
  | .debug :: rest => act { options with debug := true } rest

/-- Goes through the words. The place of the script is vacant until a word fills it, or the
separator does with the word beside it; words after that are left over, the separator too. -/
def consume (options : Options) (vacant : Bool) (leftOver : List String) : List Word → Request
  | [] => if leftOver.isEmpty then .proceed options else .invalid (.unrecognized leftOver)
  | .script word :: .separator :: rest =>
    if vacant then consume { options with script := some word } false leftOver rest
    else consume options false (leftOver ++ [word, "--"]) rest
  | .script word :: rest =>
    if vacant then consume { options with script := some word } false leftOver rest
    else consume options false (leftOver ++ [word]) rest
  | .separator :: .script word :: rest =>
    if vacant then consume { options with script := some word } false leftOver rest
    else consume options false (leftOver ++ ["--", word]) rest
  | .separator :: rest =>
    consume options false (if vacant then leftOver else leftOver ++ ["--"]) rest
  | .stray word :: rest => consume options vacant (leftOver ++ [word]) rest
  | .flag flag long attached :: rest =>
    match flagsOf flag long attached with
    | .error fault => .invalid fault
    | .ok flags =>
      match act options flags with
      | .error request => request
      | .ok options => consume options vacant leftOver rest

/-- What the words of a command line come to. -/
def read (words : List String) : Request :=
  match classifyAll words with
  | .error fault => .invalid fault
  | .ok words => consume {} true [] words

end Arguments

end Scriptlet
