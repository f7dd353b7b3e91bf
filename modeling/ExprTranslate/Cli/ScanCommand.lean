import ExprTranslate.Cli.Display
import ExprTranslate.Cli.World
import ExprTranslate.Token.Scanner
import ExprTranslate.Token.Report
/-!
# The command `scan`

The input is the text given with `-e`, or else the file named (`-` is
standard input), or else standard input. Its unrecognized words are shown
as errors, then its tokens: the report, or a table of line, text, category
and symbol. The command fails if some word was not recognized.
-/

namespace ExprTranslate.Cli

/-- The table of tokens, with a header. -/
def tokenTable (ts : List Token) : String :=
  table (["line", "text", "category", "symbol"] ::
    ts.map fun t => [toString t.line, t.lexeme, t.category.name, t.symbol.name])

/-- The source of the command: the text given, or the file named, or standard input. -/
def scanSource (expr : String) (args : List String) : Source :=
  if !expr.isEmpty then .given expr else Source.ofArg (args.headD "-")

/-- Runs `scan`. -/
def scanCommand (w : World) (expr : String) (asTable : Bool) (args : List String) : Step Unit := do
  match w.read (scanSource expr args) with
  | .error e => throw e
  | .ok text =>
    let sc := ({} : Scanner).scanText text
    say (String.join (sc.errors.toList.map fun e => Label.error.line e.message))
    say (if asTable then tokenTable sc.tokens else report sc.tokens)
    if sc.errorCount > 0 then
      throw (toString sc.errorCount ++ " unrecognized words in " ++ toString sc.lines ++ " lines")

end ExprTranslate.Cli
