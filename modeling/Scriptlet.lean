import Scriptlet.Binary64
import Scriptlet.CommandLine
import Scriptlet.CommandLine.Arguments
import Scriptlet.Decimal
import Scriptlet.Decimal.Numeral
import Scriptlet.Decimal.Shortest
import Scriptlet.Diagnostic
import Scriptlet.Event
import Scriptlet.Execution
import Scriptlet.Execution.Tree
import Scriptlet.FileStore
import Scriptlet.Main
import Scriptlet.Nesting
import Scriptlet.Operator
import Scriptlet.Program
import Scriptlet.Program.Cursor
import Scriptlet.Program.Grammar
import Scriptlet.Program.Reading
import Scriptlet.Program.Rule
import Scriptlet.Program.Sexp
import Scriptlet.Program.Tree
import Scriptlet.Prompt
import Scriptlet.Prompt.Completion
import Scriptlet.Prompt.MetaCommand
import Scriptlet.Report
import Scriptlet.Scope
import Scriptlet.Scope.Request
import Scriptlet.Scope.Tree
import Scriptlet.Session
import Scriptlet.Text.Alphanumeric
import Scriptlet.Text.Lines
import Scriptlet.Text.Quoted
import Scriptlet.Text.Ranges
import Scriptlet.Text.Utf8
import Scriptlet.Token
import Scriptlet.Token.Lexer
import Scriptlet.Value
import Scriptlet.Proofs.Grammar.Derivation
import Scriptlet.Proofs.Grammar.Rules
import Scriptlet.Proofs.Grammar.Soundness
import Scriptlet.Proofs.Grammar.Relabelling
import Scriptlet.Proofs.Grammar.Completeness
import Scriptlet.Proofs.Token.Lexeme
import Scriptlet.Proofs.Token.LongestMatch
import Scriptlet.Proofs.Execution.Blame
import Scriptlet.Proofs.Grammar.Location
import Scriptlet.Proofs.Token.Location
import Scriptlet.Proofs.Report.Window
import Scriptlet.Proofs.Session.Location
import Scriptlet.Proofs.Token.Composition
import Scriptlet.Proofs.Grammar.Composition
import Scriptlet.Proofs.Execution.Composition
import Scriptlet.Proofs.Session.Composition
import Scriptlet.Proofs.Program.Names
import Scriptlet.Proofs.Execution.Effect
import Scriptlet.Proofs.Execution.Lockstep
import Scriptlet.Proofs.Execution.Renaming
import Scriptlet.Proofs.Execution.Independence
import Scriptlet.Proofs.Session.Accounting
import Scriptlet.Proofs.Binary64.Bits
import Scriptlet.Proofs.Binary64.Rounding
import Scriptlet.Proofs.Decimal.Value
import Scriptlet.Proofs.Decimal.Numeral
import Scriptlet.Proofs.Decimal.ReadBack
import Scriptlet.Proofs.Decimal.Notation
import Scriptlet.Proofs.Operator.Results
import Scriptlet.Proofs.Execution.ScopeCheck
import Scriptlet.Proofs.Grammar.Contents
import Scriptlet.Proofs.Execution.Values
import Scriptlet.Proofs.Session.Stages
import Scriptlet.Proofs.Session.Globals
import Scriptlet.Proofs.Execution.Room
import Scriptlet.Proofs.Prompt.Conversation
import Scriptlet.Proofs.CommandLine.Arguments
import Scriptlet.Proofs.CommandLine.Modes
import Scriptlet.Proofs.Token.Spacing
import Scriptlet.Proofs.Execution.Tracing
import Scriptlet.Proofs.Session.Debugging
import Scriptlet.Proofs.Grammar.Lookahead
import Scriptlet.Proofs.Grammar.Relaxed
import Scriptlet.Proofs.Grammar.Faults
import Scriptlet.Proofs.Grammar.FirstFault
import Scriptlet.Proofs.CommandLine.Endings
import Scriptlet.Proofs.Token.Lines
import Scriptlet.Proofs.Token.Continuation
import Scriptlet.Proofs.Grammar.SingleExpression
import Scriptlet.Proofs.Grammar.Parentheses
import Scriptlet.Proofs.Scope.Visibility
import Scriptlet.Proofs.Scope.Assignment
import Scriptlet.Proofs.Scope.Chain
import Scriptlet.Proofs.Execution.Confinement
import Scriptlet.Proofs.Program.Readability
import Scriptlet.Proofs.Program.Printing
import Scriptlet.Proofs.Token.Blanks
import Scriptlet.Proofs.Prompt.Interception
import Scriptlet.Proofs.Token.Tabs
import Scriptlet.Proofs.Prompt.Argument
import Scriptlet.Proofs.Grammar.Cursor
