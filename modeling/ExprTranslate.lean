import ExprTranslate.Double.Parts
import ExprTranslate.Double.Shortest
import ExprTranslate.Double.Text
import ExprTranslate.Text.CodeSet
import ExprTranslate.Text.Printable
import ExprTranslate.Text.Casing
import ExprTranslate.Text.LowerTable
import ExprTranslate.Text.Lower
import ExprTranslate.Text.Buffered
import ExprTranslate.Text.Blank
import ExprTranslate.Text.Numeric
import ExprTranslate.Text.NameCase
import ExprTranslate.Text.Quoted
import ExprTranslate.Double.Read
import ExprTranslate.Token.Symbol
import ExprTranslate.Token.Basic
import ExprTranslate.Token.Lexicon
import ExprTranslate.Token.Scanner
import ExprTranslate.Token.Report
import ExprTranslate.Span
import ExprTranslate.Arith
import ExprTranslate.Code.Basic
import ExprTranslate.Code.Machine
import ExprTranslate.Scope
import ExprTranslate.Grammar.Basic
import ExprTranslate.Grammar.Analysis
import ExprTranslate.Matrix
import ExprTranslate.Grammar.Table
import ExprTranslate.Grammar.Expressions
import ExprTranslate.Grammar.Ebnf
import ExprTranslate.Translate.Attribute
import ExprTranslate.Translate.Error
import ExprTranslate.Translate.State
import ExprTranslate.Translate.Action
import ExprTranslate.Translate.Engine
import ExprTranslate.Translate.Trace
import ExprTranslate.Cli.Display
import ExprTranslate.Cli.Flags
import ExprTranslate.Cli.Command
import ExprTranslate.Cli.Help
import ExprTranslate.Cli.World
import ExprTranslate.Cli.Bindings
import ExprTranslate.Cli.TranslateCommand
import ExprTranslate.Cli.ScanCommand
import ExprTranslate.Cli.GrammarCommand
import ExprTranslate.Cli.LineEditor
import ExprTranslate.Cli.Session
import ExprTranslate.Cli.Run
import ExprTranslate.Main
import ExprTranslate.Proofs.Steps
import ExprTranslate.Proofs.Table
import ExprTranslate.Proofs.Tree
import ExprTranslate.Proofs.Operations
import ExprTranslate.Proofs.Descent
import ExprTranslate.Proofs.Translation
import ExprTranslate.Proofs.Evaluation
import ExprTranslate.Proofs.Unambiguity
import ExprTranslate.Proofs.Semantics
import ExprTranslate.Proofs.Viability
import ExprTranslate.Proofs.CorrectPrefix
import ExprTranslate.Proofs.Transition
import ExprTranslate.Proofs.Discipline
import ExprTranslate.Proofs.Reports
import ExprTranslate.Proofs.Elimination
import ExprTranslate.Proofs.Emission
import ExprTranslate.Proofs.Linearity
import ExprTranslate.Proofs.SymbolSets
import ExprTranslate.Proofs.Derivations
import ExprTranslate.Proofs.Language
import ExprTranslate.Proofs.FirstSets
import ExprTranslate.Proofs.FollowSets
import ExprTranslate.Proofs.PairMatrix
import ExprTranslate.Proofs.SelectionTable
import ExprTranslate.Proofs.LeftRecursion
import ExprTranslate.Proofs.Termination
import ExprTranslate.Proofs.Pipeline
import ExprTranslate.Proofs.CodeRuns
import ExprTranslate.Proofs.Spans
import ExprTranslate.Proofs.Expected
import ExprTranslate.Proofs.Scanning
import ExprTranslate.Proofs.MatrixHistory
import ExprTranslate.Cli.Cache
import ExprTranslate.Proofs.SessionCache
import ExprTranslate.Proofs.TextLines
